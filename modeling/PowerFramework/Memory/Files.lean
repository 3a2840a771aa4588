import PowerFramework.Lib.Newlines
import PowerFramework.Lib.Utf8
import PowerFramework.Lib.Writes
import PowerFramework.TaskStore.Disk
/-!
# Note files

The files of a vault as a commit reads, captures and restores them: in text mode, so that a file
that is captured and restored comes back with every line ending as `\n`.
-/

namespace PowerFramework.Memory

open Lib Lib.Failure Lib.Text Lib.Writes TaskStore

/-- The files of a vault. -/
abbrev Files := RelPath → Option Bytes

/-! ## Texts -/

/-- `data.decode("utf-8")` with universal newlines. -/
def decodeText (data : Bytes) : Except Exn String :=
  match Utf8.decode data with
  | some text => .ok (String.ofList (Newlines.translate text))
  | none => .error ⟨"UnicodeDecodeError", "'utf-8' codec can't decode bytes"⟩

/-- `content.encode("utf-8")`, the bytes that `atomic_write` leaves. -/
def encodeText (content : String) : Bytes := Utf8.encode content.toList

/-- `path.read_text(encoding="utf-8") if path.exists() else ""` -/
def readText (path : RelPath) (files : Files) : Except Exn String :=
  match files path with
  | none => .ok ""
  | some data => decodeText data

/-- `_FileSnapshot` -/
structure FileSnapshot where
  path : RelPath
  existed : Bool
  content : String
  deriving DecidableEq, Repr

/-- `_capture_file` -/
def captureFile (files : Files) (path : RelPath) : Except Exn FileSnapshot :=
  match files path with
  | none => .ok ⟨path, false, ""⟩
  | some data => (decodeText data).map fun content => ⟨path, true, content⟩

/-- `_restore_file_snapshot` as the write it makes. -/
def FileSnapshot.restoration (snapshot : FileSnapshot) : RelPath × Option Bytes :=
  (snapshot.path, if snapshot.existed then some (encodeText snapshot.content) else none)

/-! ## Catalog pages -/

/-- `INDEX_FOLDERS` -/
def indexFolders : List String :=
  ["00_Inbox", "01_Projects", "02_Areas", "03_Resources", "04_Archive", "06_Daily_Logs",
    "PROTOCOLS"]

/-- What decides whether a page number in a file name is one: `str.isdigit`. -/
class PythonDigits where
  isDigit : String → Bool

/-- `is_catalog_filename` -/
def isCatalogFilename [PythonDigits] (filename : String) : Bool :=
  filename = "_index.md" ||
    ("_index-".toList.isPrefixOf filename.toList && endsWith ".md" filename &&
      PythonDigits.isDigit (removeSuffix ".md" (String.ofList (filename.toList.drop 7))))

/-- A catalog page of the hierarchical index. -/
def isCatalog [PythonDigits] (path : RelPath) : Bool :=
  path.head?.any (· ∈ indexFolders) && isCatalogFilename (pathName path)

/-- The map page. -/
def mainIndex : RelPath := ["index.md"]

def historyPath : RelPath := [".power", "memory-history.jsonl"]

def logPath : RelPath := ["log.md"]

section
variable [PythonDigits]

/-- `_projection_paths`, of the catalog pages that are listed in the vault. -/
def projectionPaths (catalogs : List RelPath) : List RelPath := mainIndex :: catalogs

/-- `_capture_projection_snapshot` -/
def captureProjectionSnapshot (files : Files) (catalogs : List RelPath) :
    Except Exn (List FileSnapshot) :=
  (projectionPaths catalogs).mapM (captureFile files)

/-- `_restore_projection_snapshot` as the writes it makes: the pages that the failed run added are
removed, and the others restored. -/
def restoreProjection (catalogs : List RelPath) (snapshots : List FileSnapshot) :
    List (RelPath × Option Bytes) :=
  let before := snapshots.map FileSnapshot.path
  ((projectionPaths catalogs).filter (· ∉ before)).map (fun path => (path, none)) ++
    snapshots.map FileSnapshot.restoration

/-- `iter_vault_markdown_files` lists the catalog pages there are. -/
def Lists (files : Files) (catalogs : List RelPath) : Prop :=
  ∀ path, path ∈ catalogs ↔ isCatalog path = true ∧ files path ≠ none

end

/-! ## What a file comes back as -/

variable {files : Files} {path : RelPath} {data : Bytes} {content : String}
  {snapshot : FileSnapshot}

theorem decodeText_eq_ok : decodeText data = .ok content ↔
    ∃ text, data = Utf8.encode text ∧ content = String.ofList (Newlines.translate text) := by
  unfold decodeText
  cases htext : Utf8.decode data with
  | none =>
    constructor
    · intro h
      cases h
    · rintro ⟨text, rfl, -⟩
      rw [Utf8.decode_encode] at htext
      cases htext
  | some text =>
    rw [Utf8.decode_eq_some] at htext
    subst htext
    constructor
    · intro h
      exact ⟨text, rfl, (Except.ok.inj h).symm⟩
    · rintro ⟨text', heq, rfl⟩
      rw [Utf8.encode_injective heq]

/-- The carriage return as a byte. -/
def carriageReturn : UInt8 := 13

theorem cr_mem_encode {text : List Char} : carriageReturn ∈ Utf8.encode text ↔ '\r' ∈ text := by
  rw [Utf8.mem_encode_ascii (by decide)]
  constructor
  · rintro ⟨c, hc, heq⟩
    have hcr : c = '\r' := by
      rw [← Char.ofNat_toNat c, heq]
      rfl
    rw [← hcr]
    exact hc
  · intro h
    exact ⟨'\r', h, rfl⟩

/-- A text file comes back as it was exactly when it has no carriage return. -/
theorem restored_eq_self_iff (h : decodeText data = .ok content) :
    encodeText content = data ↔ carriageReturn ∉ data := by
  obtain ⟨text, rfl, rfl⟩ := decodeText_eq_ok.mp h
  rw [encodeText, String.toList_ofList, cr_mem_encode, ← Newlines.translate_eq_self_iff]
  constructor
  · exact Utf8.encode_injective
  · intro htext
    rw [htext]

theorem captureFile_ok : captureFile files path = .ok snapshot ↔
    (files path = none ∧ snapshot = ⟨path, false, ""⟩) ∨
      ∃ data content, files path = some data ∧ decodeText data = .ok content ∧
        snapshot = ⟨path, true, content⟩ := by
  unfold captureFile
  cases hfile : files path with
  | none => simp [eq_comm]
  | some data =>
    simp only [map_eq_ok]
    constructor
    · rintro ⟨content, hcontent, rfl⟩
      exact .inr ⟨data, content, rfl, hcontent, rfl⟩
    · rintro (⟨hnone, -⟩ | ⟨data', content, hsome, hcontent, rfl⟩)
      · cases hnone
      · cases hsome
        exact ⟨content, hcontent, rfl⟩

theorem captureFile_path (h : captureFile files path = .ok snapshot) : snapshot.path = path := by
  rcases captureFile_ok.mp h with ⟨-, rfl⟩ | ⟨data, content, -, -, rfl⟩
  · rfl
  · rfl

/-- A capture restores the file exactly when the file has no carriage return. -/
theorem restoration_iff (h : captureFile files path = .ok snapshot) :
    snapshot.restoration.2 = files path ↔ ∀ data, files path = some data → carriageReturn ∉ data := by
  rcases captureFile_ok.mp h with ⟨hnone, rfl⟩ | ⟨data, content, hsome, hcontent, rfl⟩
  · simp [FileSnapshot.restoration, hnone]
  · rw [hsome]
    simp only [FileSnapshot.restoration, if_true, Option.some.injEq]
    rw [restored_eq_self_iff hcontent]
    constructor
    · intro hcr data' heq
      exact heq ▸ hcr
    · intro hcr
      exact hcr data rfl

end PowerFramework.Memory
