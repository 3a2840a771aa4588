import Mathlib.Data.List.AList
import PowerFramework.Catalog.Pages
import PowerFramework.Lib.Splitlines
import PowerFramework.Memory.Files
/-!
# The hierarchical index

`run_generate_hierarchical_index`: the notes are scanned against a cache of the last scan, the cache
is written, and then the catalogs of the directories with changes are rendered.  A run is the list
of its operations on the disk, so that it can stop at any of them.
-/

namespace PowerFramework.Catalog

open Lib Lib.Failure Lib.Json TaskStore
open Memory (indexFolders)

/-! ## Notes and directories -/

/-- The change detector of a file: its modification time in nanoseconds and its size. -/
structure Signature where
  mtimeNs : Int
  size : Nat
  deriving DecidableEq, Repr

/-- What the scan finds in a file: its signature, and its metadata when they are valid. -/
structure NoteFile where
  signature : Signature
  info : Option NoteInfo

/-- The notes below the index folders in the order of their paths. -/
structure Notes where
  paths : List RelPath
  file : RelPath → NoteFile
  sorted : paths.Pairwise (· < ·)
  indexed : ∀ path ∈ paths, 2 ≤ path.length ∧ ∃ top ∈ indexFolders, path.head? = some top

/-- The notes with valid metadata. -/
def Notes.valid (notes : Notes) : List (RelPath × NoteInfo) :=
  notes.paths.filterMap fun path => (notes.file path).info.map fun info => (path, info)

/-- `_ancestor_dirs` -/
def ancestorDirs (path : RelPath) : List RelPath := path.dropLast.inits.filter (· ≠ [])

/-- `sorted(dirs, key=lambda item: (item.count("/"), item))` -/
def sortedDirs (dirs : List RelPath) : List RelPath :=
  dirs.eraseDups.insertionSort fun a b =>
    toLex (a.length, asPosix a) ≤ toLex (b.length, asPosix b)

/-- `_desired_catalog_dirs`, in the order they are rendered. -/
def desiredDirs (notes : List (RelPath × NoteInfo)) : List RelPath :=
  sortedDirs (indexFolders.map (fun folder => [folder]) ++
    notes.flatMap fun note => ancestorDirs note.1)

/-- `_catalog_children` of one directory. -/
def catalogChildren (notes : List (RelPath × NoteInfo)) (dir : RelPath) : List RelPath :=
  ((notes.flatMap fun note => ancestorDirs note.1).filter (·.dropLast = dir)).eraseDups

/-- The notes below a directory. -/
def notesBelow (notes : List (RelPath × NoteInfo)) (dir : RelPath) : List (RelPath × NoteInfo) :=
  notes.filter fun note => dir.isPrefixOf note.1.dropLast

/-- What the catalog of a directory is rendered from: an index folder shows all notes below it, and
another directory its own.  Of the note counts, those of the children are looked up. -/
def catalogRequest (notes : List (RelPath × NoteInfo)) (dir : RelPath) : CatalogRequest where
  folder := asPosix dir
  notes := ((notesBelow notes dir).filter fun note =>
    dir.length = 1 ∨ note.1.dropLast = dir).map Prod.snd
  childDirs := (catalogChildren notes dir).map asPosix
  noteCounts := (catalogChildren notes dir).map fun child =>
    (asPosix child, ((notesBelow notes child).length : Int))
  maxBytes := none

/-! ## The disk -/

/-- The texts of the files below the index folders that have the name of a catalog page. -/
abbrev CatalogFiles := AList fun _ : RelPath => String

/-- The notes, the cache of the last scan, when it can be read and is of this version, and the
catalog pages. -/
structure Disk where
  notes : Notes
  cache : Option Notes
  catalogs : CatalogFiles

/-- `_catalog_files` -/
def catalogFiles (catalogs : CatalogFiles) (dir : RelPath) : List RelPath :=
  (catalogs.keys.filter (·.dropLast = dir)).insertionSort (· ≤ ·)

/-- The part of a file that is looked at. -/
def pageStart (text : String) : List Char := text.toList.take 4096

/-- `_is_owned_catalog` -/
def isOwnedCatalog (path : RelPath) (text : String) : Bool :=
  let start := pageStart text
  let folder := asPosix path.dropLast
  decide (catalogMarker.toList <:+: start) ||
    (path.getLast? = some "_index.md" && decide (folder ∈ indexFolders) &&
      decide (("title: \"" ++ displayName folder ++ " Sub-Index\"").toList <:+: start) &&
      decide (("description: \"Detailed catalog of all notes in " ++ displayName folder ++
        "\"").toList <:+: start))

/-- The file exists, and is one of the program's. -/
def ownsCatalog (catalogs : CatalogFiles) (path : RelPath) : Bool :=
  (catalogs.lookup path).any (isOwnedCatalog path)

/-- The value of the first line that gives the number of pages. -/
def declaredPages [PythonText] (text : String) : Option Int :=
  let line := ((Splitlines.splitlines (pageStart text)).find?
    ("x-index-pages:".toList.isPrefixOf ·)).getD []
  match line.dropWhile (· ≠ ':') with
  | ':' :: value => PythonText.int (String.ofList (Ledger.strip value))
  | _ => none

/-- `_catalog_is_current`, of the landing page of a directory. -/
def catalogIsCurrent [PythonText] (catalogs : CatalogFiles) (dir : RelPath) : Bool :=
  match catalogs.lookup (dir ++ ["_index.md"]) with
  | none => false
  | some text =>
      isOwnedCatalog (dir ++ ["_index.md"]) text &&
        decide (("x-index-renderer: " ++ toString indexRendererVersion).toList <:+: pageStart text) &&
        match declaredPages text with
        | none => false
        | some pageCount =>
            let expected := (List.range pageCount.toNat).map fun i =>
              dir ++ [catalogPageFilename (i + 1)]
            (catalogFiles catalogs dir).all (· ∈ expected) &&
              expected.all (· ∈ catalogFiles catalogs dir) && expected.all (ownsCatalog catalogs)

/-! ## Operations -/

/-- One operation of a run on the disk. -/
inductive IndexOp where
  | writeCache (entries : Notes)
  | writeMainIndex
  | writePage (path : RelPath) (text : String)
  | removePage (path : RelPath)

def IndexOp.apply (disk : Disk) : IndexOp → Disk
  | .writeCache entries => { disk with cache := some entries }
  | .writeMainIndex => disk
  | .writePage path text => { disk with catalogs := disk.catalogs.insert path text }
  | .removePage path => { disk with catalogs := disk.catalogs.erase path }

/-- The disk in front of an operation, and whether the operation stands in the `try`. -/
abbrev Point := Disk × Bool

/-- The operations one after the other, and the disk they leave. -/
def performOps (covered : Bool) : List IndexOp → Disk → List Point × Disk
  | [], disk => ([], disk)
  | op :: ops, disk =>
      let (points, last) := performOps covered ops (op.apply disk)
      ((disk, covered) :: points, last)

/-- A run up to its end, or up to the exception that a rendering raises. -/
structure IndexRun where
  points : List Point
  disk : Disk
  conflicts : List RelPath
  raised : Option Exn

/-! ## The scan -/

/-- A note whose signature is the one in the cache is not read again. -/
def scannedFile (cached : Option Notes) (notes : Notes) (path : RelPath) : NoteFile :=
  match cached with
  | none => notes.file path
  | some entries =>
      if path ∈ entries.paths ∧ (entries.file path).signature = (notes.file path).signature then
        entries.file path
      else notes.file path

/-- The entries of the next cache. -/
def nextEntries (cached : Option Notes) (notes : Notes) : Notes :=
  { notes with file := scannedFile cached notes }

/-- The directory has a note below it that is new, changed or gone. -/
def isChanged (cached : Option Notes) (notes : Notes) (dir : RelPath) : Bool :=
  match cached with
  | none => notes.paths.any (dir ∈ ancestorDirs ·)
  | some entries =>
      notes.paths.any (fun path => dir ∈ ancestorDirs path && !decide (path ∈ entries.paths ∧
        (entries.file path).signature = (notes.file path).signature)) ||
      entries.paths.any fun path => dir ∈ ancestorDirs path && decide (path ∉ notes.paths)

/-! ## Rendering -/

section
variable [WorkingDir] [PythonText]

/-- The directory is rendered. -/
def isRendered (cached : Option Notes) (notes : Notes) (catalogs : CatalogFiles) (dir : RelPath) :
    Bool :=
  cached.isNone || isChanged cached notes dir || !catalogIsCurrent catalogs dir

/-- The files of a directory that are in the way of its pages. -/
def blockingFiles (catalogs : CatalogFiles) (dir : RelPath) (expected : List RelPath) :
    List RelPath :=
  ((expected ++ catalogFiles catalogs dir).filter fun path =>
    path ∈ catalogs && !decide (path ∈ expected) && !ownsCatalog catalogs path) ++
  expected.filter fun path => path ∈ catalogs && !ownsCatalog catalogs path

/-- `_write_catalog_pages` as the operations it makes. -/
def writeCatalogPages (catalogs : CatalogFiles) (dir : RelPath) (pages : List (String × String)) :
    List IndexOp :=
  let expected := pages.map fun page => dir ++ [page.1]
  (pages.map fun page => .writePage (dir ++ [page.1]) page.2) ++
    ((catalogFiles catalogs dir).filter fun path =>
      !decide (path ∈ expected) && ownsCatalog catalogs path).map .removePage

/-- The loop over the directories; each rendering asks a clock for the time. -/
def renderDirs (cached : Option Notes) (entries : Notes) (clocks : RelPath → Stream' Instant) :
    List RelPath → Disk → IndexRun
  | [], disk => ⟨[(disk, true)], disk, [], none⟩
  | dir :: dirs, disk =>
      if isRendered cached disk.notes disk.catalogs dir then
        match generateCatalogPages (catalogRequest entries.valid dir) (clocks dir) with
        | .error exn => ⟨[(disk, true)], disk, [], some exn⟩
        | .ok pages =>
            let blocking := blockingFiles disk.catalogs dir (pages.map fun page => dir ++ [page.1])
            if blocking = [] then
              let (points, next) := performOps true (writeCatalogPages disk.catalogs dir pages) disk
              let rest := renderDirs cached entries clocks dirs next
              { rest with points := points ++ rest.points }
            else
              let rest := renderDirs cached entries clocks dirs disk
              { rest with conflicts := blocking ++ rest.conflicts }
      else renderDirs cached entries clocks dirs disk

/-- The catalog pages in directories that no longer have a catalog. -/
def staleFiles (catalogs : CatalogFiles) (desired : List RelPath) : List RelPath :=
  (sortedDirs ((catalogs.keys.map List.dropLast).filter (· ∉ desired))).flatMap
    (catalogFiles catalogs)

/-- `run_generate_hierarchical_index` -/
def runIndex (disk : Disk) (clocks : RelPath → Stream' Instant) : IndexRun :=
  let entries := nextEntries disk.cache disk.notes
  let desired := desiredDirs entries.valid
  let stale := staleFiles disk.catalogs desired
  let (points, next) := performOps false (.writeCache entries ::
    (stale.filter (ownsCatalog disk.catalogs)).map .removePage ++ [.writeMainIndex]) disk
  let rest := renderDirs disk.cache entries clocks desired next
  { rest with
    points := points ++ rest.points
    conflicts := stale.filter (!ownsCatalog disk.catalogs ·) ++ rest.conflicts }

/-- How a run ends: by itself, killed in front of an operation, or by an exception there. -/
inductive Ending where
  | completes
  | killed (point : Nat)
  | raised (point : Nat)
  deriving DecidableEq, Repr

/-- The handler of the `try` removes the cache. -/
def withoutCache (disk : Disk) : Disk := { disk with cache := none }

/-- The disk that a run leaves by itself. -/
def IndexRun.left (run : IndexRun) : Disk :=
  if run.raised = none then run.disk else withoutCache run.disk

/-- The disk that a run leaves. -/
def afterRun (disk : Disk) (clocks : RelPath → Stream' Instant) : Ending → Disk
  | .completes => (runIndex disk clocks).left
  | .killed i =>
      match (runIndex disk clocks).points[i]? with
      | some (stopped, _) => stopped
      | none => (runIndex disk clocks).left
  | .raised i =>
      match (runIndex disk clocks).points[i]? with
      | some (stopped, covered) => if covered then withoutCache stopped else stopped
      | none => (runIndex disk clocks).left

end

end PowerFramework.Catalog
