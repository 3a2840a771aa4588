import Mathlib.Data.List.Sort
import Mathlib.Data.Prod.Lex
import Mathlib.Data.String.Basic
import PowerFramework.Lib.Failure
import PowerFramework.Upkeep.Scope
/-!
# Backups and their retention

`create_backup` names a copy after the time it is made and leaves it the modification time of its
source; `prune_backups` orders and ages the copies by that modification time.
-/

namespace PowerFramework.Upkeep

open Lib Lib.Failure TaskStore

/-- `datetime.now(UTC).strftime("%Y%m%d_%H%M%S_%f")`, of microseconds since the epoch. -/
class PythonClock where
  strftime : Int → String

/-! ## Names -/

/-- `filepath.stem` and `filepath.suffix` -/
def splitSuffix (name : String) : String × String :=
  let ext := name.toList.reverse.takeWhile (· ≠ '.')
  match name.toList.reverse.dropWhile (· ≠ '.') with
  | '.' :: stem =>
      if ext = [] ∨ stem = [] then (name, "")
      else (String.ofList stem.reverse, String.ofList ('.' :: ext.reverse))
  | _ => (name, "")

/-- The name with the counter that `create_backup` has come to. -/
def backupName (stem stamp suffix : String) (counter : Nat) : String :=
  if counter = 0 then stem ++ ("." ++ (stamp ++ suffix))
  else stem ++ ("." ++ (stamp ++ ("_" ++ (Nat.repr counter ++ suffix))))

section
variable [PythonPatterns]

/-- `\d{8}_\d{6}(?:_\d+)?` -/
def isStamp (text : List Char) : Bool :=
  (text.take 8).length = 8 && (text.take 8).all PythonPatterns.isDecimal &&
    match text.drop 8 with
    | '_' :: rest =>
        (rest.take 6).length = 6 && (rest.take 6).all PythonPatterns.isDecimal &&
          match rest.drop 6 with
          | [] => true
          | '_' :: digits => digits ≠ [] && digits.all PythonPatterns.isDecimal
          | _ => false
    | _ => false

/-- `_BACKUP_NAME_RE.match(name)`, from the last two dots of the name. -/
def isBackupName (name : String) : Bool :=
  let ext := name.toList.reverse.takeWhile (· ≠ '.')
  let front := (name.toList.reverse.dropWhile (· ≠ '.')).drop 1
  let stamp := front.takeWhile (· ≠ '.')
  let stem := (front.dropWhile (· ≠ '.')).drop 1
  ext ≠ [] && isStamp stamp.reverse && stem ≠ [] && !stem.contains '\n'

end

/-! ## The directory -/

/-- What a backup keeps of a file: its size, and its modification time in nanoseconds. -/
structure SourceFile where
  size : Nat
  mtime : Int
  deriving DecidableEq, Repr

/-- A copy `create_backup` made, and the microsecond it was made in. -/
structure Backup extends SourceFile where
  name : String
  created : Int
  deriving DecidableEq, Repr

/-- The backups of a directory in the order they were made. -/
structure BackupDir where
  backups : List Backup
  nodup : (backups.map Backup.name).Nodup

/-- The first name of these that no backup has; there are more of them than backups. -/
def freshName (taken : List String) (stem stamp suffix : String) : String :=
  (((List.range (taken.length + 1)).map (backupName stem stamp suffix)).find?
    fun name => !taken.contains name).getD ""

theorem backupName_injective (stem stamp suffix : String) :
    Function.Injective (backupName stem stamp suffix) := by
  intro n m h
  unfold backupName at h
  split_ifs at h with hn hm hm
  · rw [hn, hm]
  · have hlength := congrArg String.length h
    simp only [String.length_append] at hlength
    have := String.length_append "_" suffix
    have hone : "_".length = 1 := rfl
    omega
  · have hlength := congrArg String.length h
    simp only [String.length_append] at hlength
    have hone : "_".length = 1 := rfl
    omega
  · have hrepr : Nat.repr n = Nat.repr m := by
      simpa using h
    have hdigits := congrArg (fun text : String => Nat.ofDigitChars 10 text.toList 0) hrepr
    simpa using hdigits

/-- More names than there are backups: one of them is free. -/
theorem freshName_not_mem (taken : List String) (stem stamp suffix : String) :
    freshName taken stem stamp suffix ∉ taken := by
  unfold freshName
  cases hfind : ((List.range (taken.length + 1)).map (backupName stem stamp suffix)).find?
      fun name => !taken.contains name with
  | some name => simpa using List.find?_some hfind
  | none =>
    have hall : (List.range (taken.length + 1)).map (backupName stem stamp suffix) ⊆ taken := by
      intro name hname
      simpa using List.find?_eq_none.mp hfind name hname
    have hnodup := (List.nodup_range (n := taken.length + 1)).map
      (backupName_injective stem stamp suffix)
    have hlength := (List.subperm_of_subset hnodup hall).length_le
    rw [List.length_map, List.length_range] at hlength
    omega

/-- `create_backup`, of a file that exists. -/
def createBackup [PythonClock] (name : String) (source : SourceFile) (now : Int)
    (dir : BackupDir) : BackupDir where
  backups := dir.backups ++ [
    { source with
      name := freshName (dir.backups.map Backup.name) (splitSuffix name).1
        (PythonClock.strftime now) (splitSuffix name).2
      created := now }]
  nodup := by
    rw [List.map_append, List.nodup_append]
    refine ⟨dir.nodup, List.nodup_singleton _, ?_⟩
    intro taken htaken fresh hfresh heq
    rw [List.map_singleton, List.mem_singleton] at hfresh
    subst hfresh
    exact freshName_not_mem _ _ _ _ (heq ▸ htaken)

/-! ## `prune_backups` -/

/-- The limits of a retention: a count, an age in microseconds and a number of bytes. -/
structure Limits where
  maxCount : Option Int
  maxAge : Option Int
  maxBytes : Option Int
  deriving DecidableEq, Repr

/-- The first limit that is negative is named. -/
def Limits.check (limits : Limits) : Except Exn Unit := do
  raiseIf (limits.maxCount.any (· < 0)) ⟨"ValueError", "max_count must be non-negative or None"⟩
  raiseIf (limits.maxAge.any (· < 0)) ⟨"ValueError", "max_age_days must be non-negative or None"⟩
  raiseIf (limits.maxBytes.any (· < 0)) ⟨"ValueError", "max_bytes must be non-negative or None"⟩

/-- `(path.stat().st_mtime_ns, path.name)` -/
def Backup.key (backup : Backup) : Int ×ₗ String := toLex (backup.mtime, backup.name)

/-- `_backup_files` -/
def backupFiles [PythonPatterns] (dir : BackupDir) : List Backup :=
  (dir.backups.filter fun backup => isBackupName backup.name).mergeSort
    fun a b => decide (b.key ≤ a.key)

/-- `path.stat().st_mtime < cutoff` -/
def Limits.outdated (limits : Limits) (now : Int) (backup : Backup) : Bool :=
  limits.maxAge.any fun age => backup.mtime < 1000 * (now - age)

/-- What the count and the age remove. -/
def Limits.outlived (limits : Limits) (now : Int) (candidates : List Backup) : List Backup :=
  (match limits.maxCount with
    | none => []
    | some count => candidates.drop count.toNat) ++ candidates.filter (limits.outdated now)

/-- The loop over the candidates that the bytes remove from. -/
def overflowing (maxBytes : Int) (remove : List Backup) : Int → List Backup → List Backup
  | _, [] => []
  | retained, backup :: candidates =>
      if backup ∈ remove then overflowing maxBytes remove retained candidates
      else if maxBytes < retained + backup.size then
        backup :: overflowing maxBytes remove retained candidates
      else overflowing maxBytes remove (retained + backup.size) candidates

/-- The set `remove` at the end. -/
def Limits.remove (limits : Limits) (now : Int) (candidates : List Backup) : List Backup :=
  let remove := limits.outlived now candidates
  match limits.maxBytes with
  | none => remove
  | some maxBytes => remove ++ overflowing maxBytes remove 0 candidates

/-- `prune_backups`: the backups that are selected. -/
def pruneBackups [PythonPatterns] (limits : Limits) (now : Int) (dir : BackupDir) :
    Except Exn (List Backup) := do
  limits.check
  let candidates := backupFiles dir
  return candidates.filter fun backup => backup ∈ limits.remove now candidates

/-- The directory without the backups that are unlinked. -/
def BackupDir.unlink (dir : BackupDir) (selected : List Backup) : BackupDir where
  backups := dir.backups.filter fun backup => backup ∉ selected
  nodup := dir.nodup.sublist (List.filter_sublist.map Backup.name)

end PowerFramework.Upkeep
