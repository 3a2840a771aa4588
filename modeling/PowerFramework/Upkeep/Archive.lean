import Mathlib.Data.List.Nodup
import Mathlib.Data.Multiset.MapFold
import PowerFramework.Lib.Grouping
import PowerFramework.Lib.Loop
import PowerFramework.Retrieval.Inspection
import PowerFramework.Temporal.Records
import PowerFramework.Upkeep.Scope
/-!
# Archiving stale notes

`archive_stale_notes`: the notes that are due, the preview of the moves, and the moves themselves,
which change the directory that the next target is looked up in.
-/

namespace PowerFramework.Upkeep

open Lib Lib.Failure Lib.Json Lib.Loop Retrieval State TaskStore

/-! ## Notes -/

/-- A value of a frontmatter, as far as archiving looks at it. -/
inductive YamlValue where
  | str (text : String)
  | date (day : Temporal.Date)
  | other
  deriving DecidableEq, Repr

/-- `yaml.safe_load`: the mapping a text holds, if it holds one; malformed YAML is passed over. -/
class PythonYamlDates where
  safeLoad : String → Except Exn (Option (List (String × YamlValue)))

/-- A regular Markdown file: its bytes, and what reading it as a text comes to. -/
structure NoteFile where
  data : Bytes
  text : Except Exn String

/-- What stands at `04_Archive` besides notes: the names of the entries of a directory, or of the
directory outside the vault that a link leads to. -/
inductive ArchiveDir where
  | missing
  | directory (entries : List String)
  | file
  | link (entries : List String)
  deriving DecidableEq, Repr

/-- `archive_dir / name` -/
def archivePath (name : String) : RelPath := ["04_Archive", name]

/-- The notes of a vault in the order they are listed. -/
structure NoteVault where
  notes : List (RelPath × NoteFile)
  archiveDir : ArchiveDir
  nodup : (notes.map Prod.fst).Nodup
  housed : ∀ name, archivePath name ∈ notes.map Prod.fst →
    ∃ entries, archiveDir = .directory entries

namespace NoteVault

def paths (vault : NoteVault) : List RelPath := vault.notes.map Prod.fst

/-- The contents of the notes. -/
def contents (vault : NoteVault) : Multiset Bytes := vault.notes.map fun entry => entry.2.data

/-- `archive_target.exists()` -/
def archived (vault : NoteVault) (name : String) : Bool :=
  match vault.archiveDir with
  | .missing | .file => false
  | .directory entries => entries.contains name || vault.paths.contains (archivePath name)
  | .link entries => entries.contains name

/-- The notes behind `os.rename(source, target)`: what stood at the target is gone. -/
def renamed (source target : RelPath) (notes : List (RelPath × NoteFile)) :
    List (RelPath × NoteFile) :=
  (notes.filter fun entry => entry.1 ≠ target).map fun entry =>
    if entry.1 = source then (target, entry.2) else entry

theorem paths_renamed (source target : RelPath) (notes : List (RelPath × NoteFile)) :
    (renamed source target notes).map Prod.fst =
      ((notes.map Prod.fst).filter (· ≠ target)).map fun path =>
        if path = source then target else path := by
  rw [renamed, List.filter_map, List.map_map, List.map_map]
  apply List.map_congr_left
  intro entry _
  simp only [Function.comp_apply]
  split_ifs <;> rfl

theorem nodup_renamed {source target : RelPath} {notes : List (RelPath × NoteFile)}
    (h : (notes.map Prod.fst).Nodup) : ((renamed source target notes).map Prod.fst).Nodup := by
  rw [paths_renamed]
  apply (h.filter _).map_on
  intro a ha b hb heq
  simp only [ne_eq, decide_not, List.mem_filter, Bool.not_eq_eq_eq_not, Bool.not_true,
    decide_eq_false_iff_not] at ha hb
  split_ifs at heq with hsource hsource'
  · rw [hsource, hsource']
  · exact absurd heq.symm hb.2
  · exact absurd heq ha.2
  · exact heq

/-- `archive_dir.mkdir(parents=True, exist_ok=True)` and `shutil.move`; a note that goes through
a link leaves the vault. -/
def move (vault : NoteVault) (rel : RelPath) : Except Exn NoteVault :=
  match h : vault.archiveDir with
  | .file => .error ⟨"FileExistsError", "File exists"⟩
  | .missing => .ok
      { notes := renamed rel (archivePath (fileName rel)) vault.notes
        archiveDir := .directory []
        nodup := nodup_renamed vault.nodup
        housed := fun _ _ => ⟨[], rfl⟩ }
  | .directory entries => .ok
      { notes := renamed rel (archivePath (fileName rel)) vault.notes
        archiveDir := .directory entries
        nodup := nodup_renamed vault.nodup
        housed := fun _ _ => ⟨entries, rfl⟩ }
  | .link entries => .ok
      { notes := vault.notes.filter fun entry => entry.1 ≠ rel
        archiveDir := .link (fileName rel :: entries)
        nodup := vault.nodup.sublist (List.filter_sublist.map Prod.fst)
        housed := by
          intro name hname
          obtain ⟨_, hentries⟩ := vault.housed name
            ((List.filter_sublist.map Prod.fst).subset hname)
          rw [h] at hentries
          cases hentries }

end NoteVault

/-! ## Due notes -/

section
variable [PythonText] [PythonYamlDates] [PythonPatterns]

/-- `parse_frontmatter` -/
def parseFrontmatter (content : String) : Except Exn (Option (List (String × YamlValue))) :=
  match extractFrontmatterRaw content with
  | none => .ok none
  | some raw => PythonYamlDates.safeLoad raw

/-- `is_archived_status`; no other value than a string reads `archived`. -/
def isArchivedStatus (fm : List (String × YamlValue)) : Bool :=
  match fm.lookup "status" with
  | some (.str text) => PythonText.lower (stripText text) = "archived"
  | _ => false

/-- `is_expired` -/
def isExpired (today : Temporal.Date) (fm : List (String × YamlValue)) : Bool :=
  match fm.lookup "expiry" with
  | some (.date day) => day < today
  | _ => false

/-- A note that is read is archived or expired. -/
def isStale (today : Temporal.Date) (note : NoteFile) : Except Exn Bool :=
  match note.text with
  | .error _ => .ok false
  | .ok content => (parseFrontmatter content).map fun fm =>
      fm.any fun fm => isArchivedStatus fm || isExpired today fm

/-- The path is looked at: in the scope, no index or log, and not in the archive already. -/
def isCandidate (rules : List IgnoreRule) (rel : RelPath) : Bool :=
  !shouldSkip rules rel && !(["index.md", "log.md", "_index.md"].contains (fileName rel)) &&
    !(rel.head? = some "04_Archive" && 2 ≤ rel.length)

/-- A line of the report on a note that is moved. -/
def moveLine (rel : RelPath) : String :=
  "  " ++ asPosix rel ++ " -> " ++ asPosix (archivePath (fileName rel))

/-- A line of the report on a note whose name the archive has. -/
def skipLine (rel : RelPath) : String :=
  "  " ++ asPosix rel ++ " -> SKIP (already exists in archive)"

/-! ## `archive_stale_notes` -/

/-- The lines of the report on moved notes, and those on notes that stay. -/
structure ArchiveReport where
  moved : List String
  errors : List String
  deriving DecidableEq, Repr

/-- The loop over the notes that are listed, from what it has reported so far. -/
def archiveLoop (dryRun : Bool) (today : Temporal.Date) (rules : List IgnoreRule) :
    List RelPath → NoteVault → ArchiveReport → NoteVault × Except Exn ArchiveReport
  | [], vault, report => (vault, .ok report)
  | rel :: rels, vault, report =>
      match vault.notes.lookup rel with
      | none => archiveLoop dryRun today rules rels vault report
      | some note =>
          if !isCandidate rules rel then archiveLoop dryRun today rules rels vault report
          else match isStale today note with
            | .error exn => (vault, .error exn)
            | .ok false => archiveLoop dryRun today rules rels vault report
            | .ok true =>
                if vault.archived (fileName rel) then
                  archiveLoop dryRun today rules rels vault
                    { report with errors := report.errors ++ [skipLine rel] }
                else if dryRun then
                  archiveLoop dryRun today rules rels vault
                    { report with moved := report.moved ++ [moveLine rel] }
                else match vault.move rel with
                  | .error exn => (vault, .error exn)
                  | .ok next => archiveLoop dryRun today rules rels next
                      { report with moved := report.moved ++ [moveLine rel] }

/-- `archive_stale_notes`; a note that is moved while the loop runs is listed no second time,
for what stands in the archive is passed over. -/
def archiveStaleNotes (dryRun : Bool) (today : Temporal.Date) (rules : List IgnoreRule)
    (vault : NoteVault) : NoteVault × Except Exn ArchiveReport :=
  archiveLoop dryRun today rules vault.paths vault ⟨[], []⟩

/-! ## What the preview finds -/

/-- The preview lists the path: a stale note in the scope whose name the archive does not have. -/
def finds (today : Temporal.Date) (rules : List IgnoreRule) (vault : NoteVault) (rel : RelPath) :
    Except Exn Bool :=
  match vault.notes.lookup rel with
  | none => .ok false
  | some note =>
      if isCandidate rules rel then
        (isStale today note).map fun stale => stale && !vault.archived (fileName rel)
      else .ok false

/-- The notes the preview lists, as far as it gets. -/
def movable (today : Temporal.Date) (rules : List IgnoreRule) (vault : NoteVault)
    (rels : List RelPath) : List RelPath :=
  ((untilFailure (finds today rules vault) rels).1.filter Prod.snd).map Prod.fst

/-- The exception that ends the loop, if one does. -/
def failure (today : Temporal.Date) (rules : List IgnoreRule) (vault : NoteVault)
    (rels : List RelPath) : Option Exn :=
  (untilFailure (finds today rules vault) rels).2.map Prod.snd

/-- What a loop reports as moved, given the exception that ends it. -/
def outcome (failure : Option Exn) (moved : List String) : Except Exn (List String) :=
  match failure with
  | none => .ok moved
  | some exn => .error exn

variable {today : Temporal.Date} {rules : List IgnoreRule} {vault next : NoteVault}
  {rel : RelPath} {rels : List RelPath} {report : ArchiveReport}

theorem movable_cons_error {exn : Exn} (h : finds today rules vault rel = .error exn) :
    movable today rules vault (rel :: rels) = [] ∧
      failure today rules vault (rel :: rels) = some exn := by
  simp [movable, failure, untilFailure, h]

theorem movable_cons_ok {found : Bool} (h : finds today rules vault rel = .ok found) :
    movable today rules vault (rel :: rels) =
        (if found then [rel] else []) ++ movable today rules vault rels ∧
      failure today rules vault (rel :: rels) = failure today rules vault rels := by
  constructor
  · cases found <;> simp [movable, untilFailure, h]
  · simp [failure, untilFailure, h]

/-! ## One turn of the loop -/

theorem archiveLoop_error {dryRun : Bool} {exn : Exn}
    (h : finds today rules vault rel = .error exn) :
    archiveLoop dryRun today rules (rel :: rels) vault report = (vault, .error exn) := by
  unfold finds at h
  rw [archiveLoop]
  cases hnote : vault.notes.lookup rel with
  | none =>
    rw [hnote] at h
    cases h
  | some note =>
    rw [hnote] at h
    cases hcandidate : isCandidate rules rel with
    | false => simp [hcandidate] at h
    | true =>
      cases hstale : isStale today note with
      | error exn' =>
        simp only [hcandidate, hstale, if_true] at h
        cases h
        simp [hstale]
      | ok stale => simp [hcandidate, hstale, Except.map] at h

theorem archiveLoop_pass {dryRun : Bool} (h : finds today rules vault rel = .ok false) :
    ∃ report' : ArchiveReport, report'.moved = report.moved ∧
      archiveLoop dryRun today rules (rel :: rels) vault report =
        archiveLoop dryRun today rules rels vault report' := by
  unfold finds at h
  rw [archiveLoop]
  cases hnote : vault.notes.lookup rel with
  | none => exact ⟨report, rfl, rfl⟩
  | some note =>
    rw [hnote] at h
    cases hcandidate : isCandidate rules rel with
    | false => exact ⟨report, rfl, by simp⟩
    | true =>
      cases hstale : isStale today note with
      | error exn => simp [hcandidate, hstale, Except.map] at h
      | ok stale =>
        cases stale with
        | false => exact ⟨report, rfl, by simp [hstale]⟩
        | true =>
          simp only [hcandidate, hstale, if_true, Except.map, Bool.true_and, Except.ok.injEq,
            Bool.not_eq_false'] at h
          exact ⟨{ report with errors := report.errors ++ [skipLine rel] }, rfl, by simp [hstale, h]⟩

/-- A path that is found is moved, or listed. -/
theorem archiveLoop_found {dryRun : Bool} (h : finds today rules vault rel = .ok true) :
    archiveLoop dryRun today rules (rel :: rels) vault report =
      if dryRun then
        archiveLoop dryRun today rules rels vault
          { report with moved := report.moved ++ [moveLine rel] }
      else match vault.move rel with
        | .error exn => (vault, .error exn)
        | .ok next => archiveLoop dryRun today rules rels next
            { report with moved := report.moved ++ [moveLine rel] } := by
  unfold finds at h
  rw [archiveLoop]
  cases hnote : vault.notes.lookup rel with
  | none => simp [hnote] at h
  | some note =>
    rw [hnote] at h
    cases hcandidate : isCandidate rules rel with
    | false => simp [hcandidate] at h
    | true =>
      cases hstale : isStale today note with
      | error exn => simp [hcandidate, hstale, Except.map] at h
      | ok stale =>
        simp only [hcandidate, hstale, if_true, Except.map, Except.ok.injEq, Bool.and_eq_true,
          Bool.not_eq_true'] at h
        obtain ⟨rfl, harchived⟩ := h
        simp [hstale, harchived]

/-- A path that is found is the path of a note, off the archive, whose name the archive does not
have. -/
theorem finds_true (h : finds today rules vault rel = .ok true) :
    rel ∈ vault.paths ∧ isCandidate rules rel = true ∧
      vault.archived (fileName rel) = false := by
  unfold finds at h
  cases hnote : vault.notes.lookup rel with
  | none => simp [hnote] at h
  | some note =>
    rw [hnote] at h
    cases hcandidate : isCandidate rules rel with
    | false => simp [hcandidate] at h
    | true =>
      cases hstale : isStale today note with
      | error exn => simp [hcandidate, hstale, Except.map] at h
      | ok stale =>
        simp only [hcandidate, hstale, if_true, Except.map, Except.ok.injEq, Bool.and_eq_true,
          Bool.not_eq_true'] at h
        have hmem := List.mem_map_of_mem (f := Prod.fst) (Grouping.mem_of_lookup hnote)
        exact ⟨hmem, rfl, h.2⟩

/-! ## The preview -/

/-- The preview leaves the vault as it is, and lists what it finds. -/
theorem archiveLoop_preview :
    (archiveLoop true today rules rels vault report).1 = vault ∧
      (archiveLoop true today rules rels vault report).2.map ArchiveReport.moved =
        outcome (failure today rules vault rels)
          (report.moved ++ (movable today rules vault rels).map moveLine) := by
  induction rels generalizing report with
  | nil => simp [archiveLoop, failure, movable, untilFailure, outcome, Except.map]
  | cons rel rels ih =>
    cases hfinds : finds today rules vault rel with
    | error exn =>
      rw [archiveLoop_error hfinds, (movable_cons_error hfinds).2]
      exact ⟨rfl, rfl⟩
    | ok found =>
      rw [(movable_cons_ok hfinds).1, (movable_cons_ok hfinds).2]
      cases found with
      | false =>
        obtain ⟨report', hmoved, hloop⟩ := @archiveLoop_pass _ _ _ today rules vault rel rels report true hfinds
        rw [hloop, ← hmoved]
        exact ih
      | true =>
        rw [archiveLoop_found hfinds, if_pos rfl]
        obtain ⟨hvault, hresult⟩ := @ih { report with moved := report.moved ++ [moveLine rel] }
        refine ⟨hvault, ?_⟩
        rw [hresult]
        simp

end

end PowerFramework.Upkeep
