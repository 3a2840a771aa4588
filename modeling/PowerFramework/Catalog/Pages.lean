import Mathlib.Data.List.Sort
import Mathlib.Data.Prod.Lex
import Mathlib.Data.Stream.Defs
import Mathlib.Data.String.Basic
import PowerFramework.Ledger.Directory
import PowerFramework.Lib.JsonText
import PowerFramework.Lib.Padded
import PowerFramework.Lib.PosixPath
import PowerFramework.Lib.PythonValue
/-!
# Catalog pages

`_generate_catalog_pages`: the entries of a directory are put on pages one after the other, against
a probe of the page, and each page is then rendered with its own number and the time it is.
-/

namespace PowerFramework.Catalog

open Lib Lib.Failure Lib.Json Lib.JsonText Lib.Padded

/-- `INDEX_MAX_BYTES` -/
def indexMaxBytes : Int := 32 * 1024

def maxDescriptionLength : Nat := 150

def indexRendererVersion : Nat := 2

def catalogMarker : String := "x-generated-by: power"

/-- The working directory by its components. -/
class WorkingDir where
  cwd : List String

/-- What the catalog shows of a note; of a relation, its path. -/
structure NoteInfo where
  relPath : String
  title : String
  description : String
  noteType : String
  tags : List String
  owner : String
  status : String
  expiry : String
  related : List String
  timestamp : String

instance microseconds_neZero : NeZero 1000000 := ⟨by decide⟩

/-- A reading of `datetime.now(UTC)`; years, months and days are counted from zero. -/
structure Instant where
  year : Fin 9999
  month : Fin 12
  day : Fin 31
  hour : Fin 24
  minute : Fin 60
  second : Fin 60
  microsecond : Fin 1000000

/-- `datetime.isoformat()`, which leaves out no microseconds at all. -/
def Instant.isoformat (now : Instant) : String :=
  String.ofList (zeroPad 4 (now.year + 1) ++ '-' :: zeroPad 2 (now.month + 1) ++
    '-' :: zeroPad 2 (now.day + 1) ++ 'T' :: zeroPad 2 now.hour ++ ':' :: zeroPad 2 now.minute ++
    ':' :: zeroPad 2 now.second ++
    (if now.microsecond.val = 0 then [] else '.' :: zeroPad 6 now.microsecond) ++ "+00:00".toList)

/-! ## Entries -/

/-- `truncate_for_catalog` -/
def truncateForCatalog (description : String) : String :=
  let text := description.toList
  if text.length ≤ maxDescriptionLength then description
  else String.ofList ((text.take (maxDescriptionLength - 3)).rdropWhile Ledger.isPySpace) ++ "..."

section
variable [WorkingDir]

/-- `_catalog_link` -/
def catalogLink (folder relPath : String) : Except Exn String := do
  let normalized := relPath.map fun c => if c = '\\' then '/' else c
  let target ← PosixPath.relpath WorkingDir.cwd normalized folder
  let target := if target.toList.head? = some '.' ∨ target.toList.head? = some '/' then target
    else "./" ++ target
  return "[" ++ normalized ++ "](<" ++ target ++ ">)"

/-- A line of an entry, when there is something to show. -/
def optionalLine (label value : String) : List String :=
  if value = "" then [] else [label ++ value]

/-- `_note_catalog_block` -/
def noteCatalogBlock (folder : String) (note : NoteInfo) : Except Exn String := do
  let link ← catalogLink folder note.relPath
  let lines := ["## " ++ note.title, "- **Path:** " ++ link, "- **Type:** " ++ note.noteType,
      "- **Description:** " ++ truncateForCatalog note.description] ++
    (if note.tags = [] then [] else ["- **Tags:** [" ++ ", ".intercalate note.tags ++ "]"]) ++
    optionalLine "- **Owner:** " note.owner ++ optionalLine "- **Status:** " note.status ++
    optionalLine "- **Review by:** " note.expiry ++
    (if note.related = [] then [] else ["- **Related:** " ++ ", ".intercalate note.related]) ++
    (if note.timestamp = "" then []
      else ["- **Updated:** " ++ String.ofList (note.timestamp.toList.take 10)])
  return "\n".intercalate lines ++ "\n"

def displayName (folder : String) : String := folder.map fun c => if c = '_' then ' ' else c

/-- `_child_catalog_block` -/
def childCatalogBlock (folder child : String) (noteCount : Int) : Except Exn String := do
  let link ← catalogLink folder (child ++ "/_index.md")
  return "\n".intercalate ["## " ++ displayName (PosixPath.name child), "- **Folder:** " ++ link,
    "- **Notes:** " ++ toString noteCount, ""]

end

/-- The arguments of `_generate_catalog_pages`. -/
structure CatalogRequest where
  folder : String
  notes : List NoteInfo
  childDirs : List String
  noteCounts : List (String × Int)
  maxBytes : Option Int

/-- The limit that applies. -/
def CatalogRequest.limit (request : CatalogRequest) : Int := request.maxBytes.getD indexMaxBytes

section
variable [WorkingDir] [PythonText]

/-- `(item["title"].casefold(), item["rel_path"])` -/
def noteKey (note : NoteInfo) : String ×ₗ String :=
  toLex (PythonText.casefold note.title, note.relPath)

/-- `_catalog_blocks` -/
def catalogBlocks (request : CatalogRequest) : Except Exn (List String) := do
  let children ← (request.childDirs.insertionSort (· ≤ ·)).mapM fun child =>
    childCatalogBlock request.folder child ((request.noteCounts.lookup child).getD 0)
  let notes ← (request.notes.insertionSort fun a b => noteKey a ≤ noteKey b).mapM
    (noteCatalogBlock request.folder)
  return children ++ notes

end

/-! ## Pages -/

/-- `_catalog_page_filename` -/
def catalogPageFilename (page : Nat) : String :=
  if page = 1 then "_index.md" else "_index-" ++ toString page ++ ".md"

/-- `_catalog_header` -/
def catalogHeader (folder : String) (page pageCount : Nat) (now : Instant) : List String :=
  ["---", "type: System Guide",
    "title: " ++ quote (displayName folder ++ " Sub-Index"),
    "description: " ++ quote ("Detailed catalog of all notes in " ++ displayName folder),
    "timestamp: " ++ now.isoformat, catalogMarker,
    "x-index-renderer: " ++ toString indexRendererVersion,
    "x-index-directory: " ++ String.ofList (asciiText folder),
    "x-index-page: " ++ toString page, "x-index-pages: " ++ toString pageCount, "---", ""]

def previousLink (filename : String) : String := "[Previous](<./" ++ filename ++ ">)"

def nextLink (filename : String) : String := "[Next](<./" ++ filename ++ ">)"

def pageLabel (page pageCount : Nat) : String :=
  "Page " ++ toString page ++ " of " ++ toString pageCount

/-- The link to the catalog of the parent directory, within the vault. -/
def parentLines (folder : String) : List String :=
  if PosixPath.parent folder = "." then [] else ["[Parent catalog](<../_index.md>)"]

/-- The links of a page to the ones before and after it. -/
def navigationLinks (page pageCount : Nat) : List String :=
  (if 1 < page then [previousLink (catalogPageFilename (page - 1))] else []) ++
    [pageLabel page pageCount] ++
    (if page < pageCount then [nextLink (catalogPageFilename (page + 1))] else [])

/-- `_catalog_navigation` -/
def catalogNavigation (folder : String) (page pageCount : Nat) : List String :=
  " | ".intercalate (navigationLinks page pageCount) :: parentLines folder ++ [""]

def headingLines (folder : String) : List String :=
  ["# " ++ displayName folder ++ " — Detailed Index", ""]

/-- The lines of the entries, or the one that says there are none. -/
def entryLines (blocks : List String) : List String :=
  if blocks = [] then ["_No notes or nested folders in this category yet._", ""] else blocks

/-- `_render_catalog_page` -/
def renderCatalogPage (folder : String) (blocks : List String) (page pageCount : Nat)
    (now : Instant) : String :=
  "\n".intercalate (catalogHeader folder page pageCount now ++ headingLines folder ++
    catalogNavigation folder page pageCount ++ entryLines blocks)

def entryExceedsLimit (folder block : String) : Exn :=
  valueError ("catalog_entry_exceeds_limit:" ++ folder ++ ":" ++ toString block.utf8ByteSize)

def pageExceedsLimit (folder filename content : String) : Exn :=
  valueError ("catalog_page_exceeds_limit:" ++ folder ++ "/" ++ filename ++ ":" ++
    toString content.utf8ByteSize)

/-- The pages so far, the one being filled, and what the clock returns from here on. -/
structure Paging where
  pages : List (List String)
  current : List String
  clock : Stream' Instant

/-- A page as it is probed: in the middle of more pages than there are entries. -/
def probe (folder : String) (hint : Nat) (blocks : List String) (now : Instant) : String :=
  renderCatalogPage folder blocks hint (hint + 1) now

/-- One entry goes on the page being filled, or starts a new one. -/
def addBlock (folder : String) (limit : Int) (hint : Nat) (s : Paging) (block : String) :
    Except Exn Paging :=
  if (probe folder hint (s.current ++ [block]) s.clock.head).utf8ByteSize ≤ limit then
    .ok ⟨s.pages, s.current ++ [block], s.clock.tail⟩
  else if s.current = [] then .error (entryExceedsLimit folder block)
  else if limit < (probe folder hint [block] s.clock.tail.head).utf8ByteSize then
    .error (entryExceedsLimit folder block)
  else .ok ⟨s.pages ++ [s.current], [block], s.clock.tail.tail⟩

/-- The entries by page, and what the clock returns afterwards. -/
def partitionBlocks (folder : String) (limit : Int) (blocks : List String)
    (clock : Stream' Instant) : Except Exn (List (List String) × Stream' Instant) :=
  if blocks = [] then .ok ([[]], clock)
  else do
    let s ← blocks.foldlM (addBlock folder limit blocks.length) ⟨[], [], clock⟩
    return (if s.current = [] then s.pages else s.pages ++ [s.current], s.clock)

/-- The pages from one number on, each rendered at its own time. -/
def renderPages (folder : String) (pageCount : Nat) :
    Nat → List (List String) → Stream' Instant → List (String × String)
  | _, [], _ => []
  | page, blocks :: pages, clock =>
      (catalogPageFilename page, renderCatalogPage folder blocks page pageCount clock.head) ::
        renderPages folder pageCount (page + 1) pages clock.tail

/-- `_generate_catalog_pages` -/
def generateCatalogPages [WorkingDir] [PythonText] (request : CatalogRequest)
    (clock : Stream' Instant) : Except Exn (List (String × String)) := do
  raiseIf (request.limit ≤ 0) (valueError "INDEX_MAX_BYTES must be positive")
  let blocks ← catalogBlocks request
  let (pages, clock) ← partitionBlocks request.folder request.limit blocks clock
  let rendered := renderPages request.folder pages.length 1 pages clock
  match rendered.filter fun page => request.limit < (page.2.utf8ByteSize : Int) with
  | (filename, content) :: _ => .error (pageExceedsLimit request.folder filename content)
  | [] => .ok rendered

end PowerFramework.Catalog
