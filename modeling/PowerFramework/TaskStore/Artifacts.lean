import PowerFramework.Lib.Failure
import PowerFramework.Lib.Text
/-!
# Recovery artifacts

Which files a task transaction may touch.  `allowedRecoveryPath` is the allow-list that the
transaction applies to every touched path and that recovery applies to every path of a
manifest it reads back.  A vault-relative POSIX path is the list of its components; the
vault holds no symbolic links.
-/

namespace PowerFramework.TaskStore

open Lib.Text Lib.Failure

abbrev Bytes := List UInt8

/-- A path below the vault directory, by components. -/
abbrev RelPath := List String

/-- `MAX_TASK_STATE_BYTES` -/
def maxTaskStateBytes : Nat := 10000000

def powerDir : RelPath := [".power"]

/-- `TaskStore.tasks_dir` -/
def tasksDir : RelPath := [".power", "tasks"]

/-- `VAULT_STRUCTURE` -/
def vaultStructure : List String :=
  ["00_Inbox", "01_Projects", "02_Areas", "03_Resources", "04_Archive", "06_Daily_Logs",
    "05_Templates", "PROTOCOLS"]

/-- `_RECOVERY_OPERATION_LABELS` -/
def recoveryOperationLabels : String → Option (List String)
  | "task_created" => some ["snapshot", "event", "checkpoint", "receipt"]
  | "migrated_from_v1" => some ["snapshot", "event", "checkpoint", "receipt"]
  | "state_transition" => some ["snapshot", "event", "checkpoint", "receipt"]
  | "task_event_append" => some ["event", "checkpoint"]
  | "task_snapshot" => some ["snapshot"]
  | "memory_apply" => some ["note", "history", "log"]
  | "decision_create" => some ["decision"]
  | "decision_resolve" => some ["decision", "receipt"]
  | _ => none

/-- `_RECOVERY_LABEL_PATTERN` and `_recovery_label` -/
def recoveryLabel (value : String) : Except Exn String := do
  raiseIf (!isToken 63 value) (valueError "recovery label is invalid")
  return value

/-- `path.relative_to(base)` when `path.is_relative_to(base)`. -/
def relativeTo (base path : RelPath) : Option RelPath :=
  if base.isPrefixOf path then some (path.drop base.length) else none

/-- `Path.name` -/
def pathName (path : RelPath) : String := path.getLastD ""

/-- `Path.parent` of a relative path. -/
def pathParent (path : RelPath) : RelPath := path.dropLast

/-- `Path.suffix == ".md"`: the name has a stem before the last dot. -/
def hasMarkdownSuffix (path : RelPath) : Bool :=
  endsWith ".md" (pathName path) && 3 < (pathName path).toList.length

/-- `_recovery_path` -/
def recoveryPath (value : RelPath) : Except Exn RelPath := do
  raiseIf (value.isEmpty || value.any fun part => part.toList.any fun c => c == '\\' || isControl c)
    (valueError "recovery path is invalid")
  raiseIf (value.any fun part => part == "" || part == "." || part == "..")
    (valueError "recovery path must be a safe vault-relative path")
  return value

/-- `re.fullmatch(r"[A-Za-z0-9][A-Za-z0-9._-]{0,127}_seq_[0-9]+", stem)`: the digits after
the last `_seq_` are the longest run of digits at the end. -/
def isCheckpointStem (stem : String) : Bool :=
  let digits := stem.toList.reverse.takeWhile isDigit
  let lead := stem.toList.take (stem.toList.length - digits.length)
  !digits.isEmpty && "_seq_".toList.isSuffixOf lead &&
    isToken 127 (String.ofList (lead.take (lead.length - 5)))

/-- The stem that `_allowed_recovery_path` checks: the name below `tasks_dir` without its
`.json` and then its `.jsonl` suffix. -/
def artifactStem (relative : RelPath) : String :=
  removeSuffix ".jsonl" (removeSuffix ".json" (pathName relative))

/-- The file classes below `tasks_dir`, by label. -/
def isTaskArtifact (label operation : String) (relative : RelPath) : Bool :=
  let parent := pathParent relative
  let name := pathName relative
  let stem := artifactStem relative
  match label with
  | "snapshot" => parent == [] && endsWith ".json" name && isToken 127 stem
  | "event" => parent == ["events"] && endsWith ".jsonl" name && isToken 127 stem
  | "checkpoint" => parent == ["checkpoints"] && endsWith ".json" name && isCheckpointStem stem
  | "receipt" =>
      ((operation == "task_created" || operation == "migrated_from_v1" ||
          operation == "state_transition") &&
        parent == ["receipts"] && isDigestToken "tcr_" stem) ||
      (operation == "decision_resolve" &&
        parent == ["decisions", "receipts"] && isDigestToken "dcr_" stem)
  | "decision" => parent == ["decisions"] && endsWith ".json" name && isToken 127 stem
  | _ => false

/-- The file classes outside `tasks_dir`, by label. -/
def isVaultArtifact (label operation : String) (candidate : RelPath) : Bool :=
  match label with
  | "history" => candidate == [".power", "memory-history.jsonl"]
  | "log" => operation == "memory_apply" && candidate == ["log.md"]
  | "note" =>
      operation == "memory_apply" && hasMarkdownSuffix candidate &&
        (candidate.length == 1 || vaultStructure.contains (candidate.headD "")) &&
        !powerDir.isPrefixOf candidate
  | _ => false

/-- `_allowed_recovery_path` -/
def allowedRecoveryPath (label : String) (value : RelPath) (operation : String) :
    Except Exn RelPath := do
  let safeLabel ← recoveryLabel label
  raiseIf (safeLabel ∉ (recoveryOperationLabels operation).getD [])
    (valueError "recovery label is not allowed for this operation")
  let candidate ← recoveryPath value
  raiseIf (!((relativeTo tasksDir candidate).any (isTaskArtifact safeLabel operation) ||
      isVaultArtifact safeLabel operation candidate))
    (valueError "recovery artifact is outside the TaskStore file classes")
  return candidate

theorem recoveryLabel_ok {value label : String} :
    recoveryLabel value = .ok label ↔ value = label ∧ isToken 63 value = true := by
  simp only [recoveryLabel, bind_eq_ok, raiseIf_eq_ok, pure, Except.pure, Except.ok.injEq]
  constructor
  · rintro ⟨-, htoken, hvalue⟩
    exact ⟨hvalue, by simpa using htoken⟩
  · rintro ⟨hvalue, htoken⟩
    exact ⟨⟨⟩, by simp [htoken], hvalue⟩

theorem recoveryPath_ok {value path : RelPath} (h : recoveryPath value = .ok path) :
    path = value := by
  simp only [recoveryPath, bind_eq_ok, pure, Except.pure, Except.ok.injEq] at h
  obtain ⟨-, -, -, -, rfl⟩ := h
  rfl

/-- A path that the allow-list accepts is returned unchanged, its label is well formed and
its operation is known. -/
theorem allowedRecoveryPath_ok {label operation : String} {value path : RelPath}
    (h : allowedRecoveryPath label value operation = .ok path) :
    path = value ∧ recoveryLabel label = .ok label ∧ recoveryOperationLabels operation ≠ none := by
  simp only [allowedRecoveryPath, bind_eq_ok, raiseIf_eq_ok, pure, Except.pure,
    Except.ok.injEq] at h
  obtain ⟨safeLabel, hlabel, -, hmem, candidate, hcandidate, -, -, rfl⟩ := h
  obtain ⟨rfl, htoken⟩ := recoveryLabel_ok.mp hlabel
  refine ⟨recoveryPath_ok hcandidate, hlabel, ?_⟩
  intro hnone
  simp [hnone] at hmem

example : allowedRecoveryPath "snapshot" [".power", "tasks", "t1.json"] "task_created" =
    .ok [".power", "tasks", "t1.json"] := by
  decide

end PowerFramework.TaskStore
