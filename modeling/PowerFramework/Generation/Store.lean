import Mathlib.Data.Char
import Mathlib.Data.List.Lex
import Mathlib.Data.Prod.Lex
import Mathlib.Data.List.Sort
import PowerFramework.Lib.Failure
import PowerFramework.Lib.Grouping
import PowerFramework.Lib.Sha256
/-!
# The generation store

The rows of `index_generations`, the pointer of `active_generation` and the database files they
name.  A file is its image; the sidecar files of SQLite are part of it.
-/

namespace PowerFramework.Generation

open Lib Lib.Failure

/-- The states that the table allows. -/
inductive BuildState where
  | building
  | ready
  | failed
  | superseded
  deriving DecidableEq, Repr

/-- The columns of a row that are read again. -/
structure Row where
  state : BuildState
  sourceSnapshotHash : String
  createdAt : String
  completedAt : Option String
  dbSha256 : Option String
  dbSize : Option Nat
  deriving DecidableEq, Repr

structure Store where
  rows : List (String × Row)
  /-- The id and the time of the row of `active_generation`. -/
  activeGeneration : Option (String × String)
  staging : String → Option (List UInt8)
  generations : String → Option (List UInt8)

/-- `PRAGMA integrity_check` of a database image. -/
class Integrity where
  ok : List UInt8 → Bool

/-! ## Statements -/

/-- `UPDATE index_generations SET … WHERE generation_id = ?` -/
def updateRow (generationId : String) (change : Row → Row) (rows : List (String × Row)) :
    List (String × Row) :=
  rows.map fun entry => if entry.1 = generationId then (entry.1, change entry.2) else entry

/-- `SELECT … WHERE generation_id = ? AND state = 'building'` finds the row. -/
def Store.isBuilding (s : Store) (generationId : String) : Bool :=
  (s.rows.lookup generationId).any fun row => row.state = .building

/-- `SELECT generation_id FROM index_generations WHERE state = 'building'` -/
def Store.building (s : Store) : List String :=
  (s.rows.filter fun entry => entry.2.state = .building).map Prod.fst

/-- `INSERT INTO index_generations … 'building'` -/
def Store.insertBuilding (s : Store) (generationId hash createdAt : String) : Store :=
  { s with rows := s.rows ++ [(generationId, ⟨.building, hash, createdAt, none, none, none⟩)] }

/-- `SET state = 'failed', error = ?, completed_at = ?` -/
def Store.fail (s : Store) (now generationId : String) : Store :=
  let change row := { row with state := .failed, completedAt := some now }
  { s with rows := updateRow generationId change s.rows }

/-- `SET state = 'superseded'` -/
def Store.supersede (s : Store) (generationId : String) : Store :=
  let change row := { row with state := .superseded }
  { s with rows := updateRow generationId change s.rows }

/-- The publication transaction: the row is ready and the pointer names it. -/
def Store.publish (s : Store) (generationId sha256 : String) (size : Nat)
    (completedAt activatedAt : String) : Store :=
  let change row := { row with
    state := .ready, dbSha256 := some sha256, dbSize := some size, completedAt := some completedAt }
  { s with
    rows := updateRow generationId change s.rows
    activeGeneration := some (generationId, activatedAt) }

/-- The columns of `ORDER BY completed_at, generation_id`; a missing time sorts first. -/
def retentionKey (generationId : String) (completedAt : Option String) :
    List Char ×ₗ List Char :=
  toLex ((completedAt.getD "").toList, generationId.toList)

/-- The order of `ORDER BY completed_at DESC, generation_id DESC`. -/
def comesBefore (a b : String × Row) : Prop :=
  retentionKey b.1 b.2.completedAt ≤ retentionKey a.1 a.2.completedAt

instance : DecidableRel comesBefore := fun _ _ => inferInstanceAs (Decidable (_ ≤ _))

/-- `RETAIN_READY_GENERATIONS` -/
def retainReadyGenerations : Nat := 2

/-- The ready generations that retention removes. -/
def Store.unretained (s : Store) : List String :=
  (((s.rows.filter fun entry => entry.2.state = .ready).insertionSort comesBefore).drop
    retainReadyGenerations).map Prod.fst

/-- How many other ready generations come before one that was completed at a time. -/
def Store.ahead (s : Store) (generationId : String) (completedAt : Option String) : Nat :=
  s.rows.countP fun entry => entry.2.state = .ready ∧ entry.1 ≠ generationId ∧
    retentionKey generationId completedAt ≤ retentionKey entry.1 entry.2.completedAt

/-! ## Files -/

/-- The two database files of a build. -/
inductive Artifact where
  | staging (generationId : String)
  | generation (generationId : String)
  deriving DecidableEq, Repr

def Artifact.generationId : Artifact → String
  | .staging generationId => generationId
  | .generation generationId => generationId

/-- `_build_artifact_paths` -/
def buildArtifactPaths (generationId : String) : List Artifact :=
  [.staging generationId, .generation generationId]

/-- `path.unlink(missing_ok=True)` -/
def Store.unlink (s : Store) : Artifact → Store
  | .staging generationId => { s with staging := Function.update s.staging generationId none }
  | .generation generationId =>
      { s with generations := Function.update s.generations generationId none }

/-- The staging database is written; a file that was removed meanwhile is not made again. -/
def Store.writeStaging (s : Store) (generationId : String) (image : List UInt8) : Store :=
  match s.staging generationId with
  | none => s
  | some _ => { s with staging := Function.update s.staging generationId (some image) }

/-- `os.replace(staging_path, generation_path)` -/
def Store.replace (s : Store) (generationId : String) (image : List UInt8) : Store :=
  { s with
    staging := Function.update s.staging generationId none
    generations := Function.update s.generations generationId (some image) }

/-! ## Reading the pointer -/

def activeGenerationError (message : String) : Exn := ⟨"ActiveGenerationError", message⟩

structure ActiveGeneration where
  generationId : String
  sourceSnapshotHash : String
  dbSha256 : String
  dbSize : Nat
  completedAt : String
  activatedAt : String
  deriving DecidableEq, Repr

/-- `_verified_generation_path` -/
def verifiedGeneration [Integrity] (s : Store) (generationId expectedSha256 : String)
    (expectedSize : Nat) : Except Exn Unit :=
  match s.generations generationId with
  | none => .error (activeGenerationError ("active generation file is missing: " ++ generationId))
  | some data => do
      raiseIf (data.length ≠ expectedSize ∨ Sha256.hexdigest data ≠ expectedSha256)
        (activeGenerationError ("active generation file identity mismatch: " ++ generationId))
      raiseIf (Integrity.ok data = false)
        (activeGenerationError ("active generation integrity check failed: " ++ generationId))

/-- `resolve_active_generation`, on a vault with a state store. -/
def resolveActiveGeneration [Integrity] (s : Store) : Except Exn (Option ActiveGeneration) :=
  match s.activeGeneration with
  | none => .ok none
  | some (generationId, activatedAt) =>
      match s.rows.lookup generationId with
      | none => .ok none
      | some row =>
          match row.state, row.dbSha256, row.dbSize, row.completedAt with
          | .ready, some sha256, some size, some completedAt => do
              raiseIf (row.sourceSnapshotHash = "" ∨ sha256 = "" ∨ completedAt = "" ∨
                activatedAt = "")
                (activeGenerationError ("active generation is not ready: " ++ generationId))
              verifiedGeneration s generationId sha256 size
              return some ⟨generationId, row.sourceSnapshotHash, sha256, size, completedAt,
                activatedAt⟩
          | _, _, _, _ =>
              .error (activeGenerationError ("active generation is not ready: " ++ generationId))

/-! ## Rows behind the statements -/

variable {rows : List (String × Row)} {generationId other : String} {change : Row → Row}

theorem lookup_updateRow (generationId other : String) (change : Row → Row)
    (rows : List (String × Row)) : (updateRow generationId change rows).lookup other =
      if other = generationId then (rows.lookup other).map change else rows.lookup other := by
  induction rows with
  | nil => simp [updateRow]
  | cons entry rows ih =>
    obtain ⟨id, row⟩ := entry
    unfold updateRow at ih ⊢
    rw [List.map_cons]
    by_cases hid : id = generationId
    · rw [if_pos hid, Grouping.lookup_cons, Grouping.lookup_cons, ih]
      by_cases hother : other = id
      · rw [if_pos hother, if_pos hother, if_pos (hother.trans hid)]
        rfl
      · rw [if_neg hother, if_neg hother]
    · rw [if_neg hid, Grouping.lookup_cons, Grouping.lookup_cons, ih]
      by_cases hother : other = id
      · rw [if_pos hother, if_pos hother, if_neg (by rw [hother]; exact hid)]
      · rw [if_neg hother, if_neg hother]

theorem names_updateRow (generationId : String) (change : Row → Row) (rows : List (String × Row)) :
    (updateRow generationId change rows).map Prod.fst = rows.map Prod.fst := by
  unfold updateRow
  rw [List.map_map]
  refine List.map_congr_left fun entry _ => ?_
  show (if entry.1 = generationId then (entry.1, change entry.2) else entry).1 = entry.1
  split_ifs
  · rfl
  · rfl

theorem isBuilding_iff {s : Store} : s.isBuilding generationId = true ↔
    ∃ row, s.rows.lookup generationId = some row ∧ row.state = .building := by
  unfold Store.isBuilding
  cases s.rows.lookup generationId with
  | none => simp
  | some row => simp

theorem mem_of_mem_unretained {s : Store} (h : generationId ∈ s.unretained) :
    ∃ row, (generationId, row) ∈ s.rows ∧ row.state = .ready := by
  unfold Store.unretained at h
  obtain ⟨entry, hentry, rfl⟩ := List.mem_map.mp h
  have hmem := (List.mem_insertionSort comesBefore).mp (List.mem_of_mem_drop hentry)
  rw [List.mem_filter, decide_eq_true_eq] at hmem
  exact ⟨entry.2, hmem⟩

instance : Std.Total comesBefore where
  total _ _ := le_total _ _

instance : IsTrans (String × Row) comesBefore where
  trans _ _ _ hab hbc := le_trans hbc hab

/-- A ready generation with few others before it is retained. -/
theorem notMem_unretained {s : Store} {row : Row} (hnodup : (s.rows.map Prod.fst).Nodup)
    (hrow : (generationId, row) ∈ s.rows)
    (hahead : s.ahead generationId row.completedAt < retainReadyGenerations) :
    generationId ∉ s.unretained := by
  unfold Store.unretained
  have hsorted := List.pairwise_insertionSort comesBefore
    (s.rows.filter fun entry => entry.2.state = .ready)
  have hperm := List.perm_insertionSort comesBefore
    (s.rows.filter fun entry => entry.2.state = .ready)
  generalize (s.rows.filter fun entry => entry.2.state = .ready).insertionSort comesBefore = sorted
    at hsorted hperm ⊢
  have hnames : (sorted.map Prod.fst).Nodup := by
    rw [(hperm.map Prod.fst).nodup_iff]
    exact hnodup.sublist (List.filter_sublist.map Prod.fst)
  intro hdrop
  obtain ⟨entry, hentry, hid⟩ := List.mem_map.mp hdrop
  have hsame : entry = (generationId, row) := by
    have hmem := (hperm.mem_iff.mp (List.mem_of_mem_drop hentry))
    exact List.inj_on_of_nodup_map hnodup (List.mem_of_mem_filter hmem) hrow hid
  rw [← List.take_append_drop retainReadyGenerations sorted] at hsorted hnames
  -- the entries of the list before it are all ready, and all come before it
  have htake : ∀ before ∈ sorted.take retainReadyGenerations,
      (decide (before.2.state = .ready ∧ before.1 ≠ generationId ∧
        retentionKey generationId row.completedAt ≤
          retentionKey before.1 before.2.completedAt)) = true := by
    intro before hbefore
    rw [decide_eq_true_eq]
    have hmem := hperm.mem_iff.mp (List.mem_of_mem_take hbefore)
    rw [List.mem_filter, decide_eq_true_eq] at hmem
    refine ⟨hmem.2, ?_, ?_⟩
    · rw [List.map_append, List.nodup_append] at hnames
      exact hnames.2.2 before.1 (List.mem_map_of_mem hbefore) generationId hdrop
    · have hbefore' := (List.pairwise_append.mp hsorted).2.2 before hbefore entry hentry
      rw [hsame] at hbefore'
      exact hbefore'
  have hlength : (sorted.take retainReadyGenerations).length = retainReadyGenerations := by
    have hpos := List.length_pos_of_mem hentry
    rw [List.length_drop] at hpos
    rw [List.length_take]
    omega
  have hcount : retainReadyGenerations ≤ s.ahead generationId row.completedAt := by
    calc retainReadyGenerations = (sorted.take retainReadyGenerations).length := hlength.symm
      _ = (sorted.take retainReadyGenerations).countP _ := (List.countP_eq_length.mpr htake).symm
      _ ≤ sorted.countP _ := (List.take_sublist _ _).countP_le
      _ = (s.rows.filter fun entry => entry.2.state = .ready).countP _ := hperm.countP_eq _
      _ ≤ s.rows.countP _ := List.filter_sublist.countP_le
  omega

end PowerFramework.Generation
