import Mathlib.Data.List.AList
import Mathlib.Data.Stream.Defs
import PowerFramework.Lib.PosixPath
import PowerFramework.Lib.Sha256
import PowerFramework.Memory.Files
import PowerFramework.Upkeep.Backups
/-!
# Maintenance plans

`build_maintenance_plan` looks for the notes that the healer would change, and
`apply_maintenance_plan` heals them again: each one is backed up before it is written, and the
backups are restored when an action fails.  Times are microseconds since the epoch.
-/

namespace PowerFramework.Upkeep

open Lib Lib.Failure TaskStore
open Memory (decodeText encodeText)

/-- The healer, a function of the text of a note, its path and the time. -/
class Healer where
  /-- `heal_frontmatter(content, filepath, vault_dir, now=now)` -/
  heal : String → RelPath → Int → Except Exn (String × List String)

/-- The files by their paths below the root. -/
abbrev VaultFiles := AList fun _ : RelPath => Bytes

/-- A vault without symbolic links, with the components of its root. -/
structure Vault where
  root : List String
  files : VaultFiles
  proper : ∀ rel ∈ files, rel ≠ [] ∧ ∀ name ∈ rel, PosixPath.isName name = true

/-- `str(root)` -/
def Vault.text (vault : Vault) : String := "/" ++ asPosix vault.root

/-! ## Plans -/

inductive MaintenanceClass where
  | safeAuto
  | approvalRequired
  | informational
  deriving DecidableEq, Repr

/-- `MaintenanceAction`; of the time, what `datetime.fromisoformat` makes of it. -/
structure MaintenanceAction where
  actionId : String
  kind : String
  path : String
  actionClass : MaintenanceClass
  beforeSha256 : String
  afterSha256 : Option String
  detail : String
  reversible : Bool
  transformTimestamp : Option (Except Exn Int)

structure MaintenancePlan where
  vault : String
  generatedAt : Int
  actions : List MaintenanceAction

/-- `_action_id` -/
def actionId (kind path : String) (content : Bytes) : String :=
  String.ofList ((Sha256.hexdigest (encodeText
    (kind ++ "\x00" ++ path ++ "\x00" ++ Sha256.hexdigest content))).toList.take 24)

/-- The order of the actions in a plan. -/
def MaintenanceAction.key (action : MaintenanceAction) : String ×ₗ String ×ₗ String :=
  toLex (action.kind, toLex (action.path, action.actionId))

/-- `DEFAULT_EXCLUDED` -/
def defaultExcluded : List String := ["index.md", "log.md", "_index.md", "POWER_STATUS.md", ".git",
  ".backups", "05_Templates", "scratch", ".system_generated", ".agents"]

/-- The action that heals a note, which is bound to the text that was read. -/
def healAction (plannedAt : Int) (rel : RelPath) (content healed : String)
    (changes : List String) : MaintenanceAction where
  actionId := actionId "heal.frontmatter" (asPosix rel) (encodeText content)
  kind := "heal.frontmatter"
  path := asPosix rel
  actionClass := .safeAuto
  beforeSha256 := Sha256.hexdigest (encodeText content)
  afterSha256 := some (Sha256.hexdigest (encodeText healed))
  detail := "; ".intercalate changes
  reversible := true
  transformTimestamp := some (.ok plannedAt)

/-- The finding on a backup outside the limits of its directory. -/
def retentionAction (rel : RelPath) (data : Bytes) : MaintenanceAction where
  actionId := actionId "retention.backup" (asPosix rel) data
  kind := "retention.backup"
  path := asPosix rel
  actionClass := .approvalRequired
  beforeSha256 := Sha256.hexdigest data
  afterSha256 := none
  detail := "retention candidate; deletion remains plan-only"
  reversible := false
  transformTimestamp := none

def fileNotFound (message : String) : Exn := ⟨"FileNotFoundError", message⟩

/-- `path.read_bytes()` -/
def readBytes (files : VaultFiles) (rel : RelPath) : Except Exn Bytes :=
  match files.lookup rel with
  | some data => .ok data
  | none => .error (fileNotFound (asPosix rel))

section
variable [PythonPatterns]

/-- `_candidate_notes` -/
def candidateNotes (rules : List IgnoreRule) (files : VaultFiles) : List RelPath :=
  files.keys.filter fun rel => Text.endsWith ".md" (fileName rel) && !shouldSkip rules rel &&
    !rel.any defaultExcluded.contains

variable [Healer]

/-- What a plan does about a note. -/
def repair (files : VaultFiles) (plannedAt : Int) (rel : RelPath) :
    Except Exn (Option MaintenanceAction) := do
  let data ← readBytes files rel
  let content ← decodeText data
  let (healed, changes) ← Healer.heal content rel plannedAt
  return if changes = [] ∨ healed = content then none
    else some (healAction plannedAt rel content healed changes)

/-- `build_maintenance_plan`, with the backups that their retention would remove. -/
def buildMaintenancePlan (rules : List IgnoreRule) (vault : Vault) (plannedAt : Int)
    (overdue : List RelPath) : Except Exn MaintenancePlan := do
  let repairs ← (candidateNotes rules vault.files).mapM (repair vault.files plannedAt)
  let findings ← overdue.mapM fun rel => (readBytes vault.files rel).map (retentionAction rel)
  return ⟨vault.text, plannedAt,
    (repairs.filterMap id ++ findings).insertionSort fun a b => a.key ≤ b.key⟩

end

/-! ## Applying a plan -/

inductive ReceiptStatus where
  | ok
  | noOp
  deriving DecidableEq, Repr

structure MaintenanceReceipt where
  appliedActionIds : List String
  status : ReceiptStatus
  deriving DecidableEq, Repr

/-- The time an action is taken at, and what goes wrong: when the note is read, when it is copied,
which may leave a part of the copy, or when it is written. -/
structure Turn where
  now : Int
  read : Option Exn
  backup : Option (Exn × Option Bytes)
  write : Option Exn

/-- Nothing goes wrong. -/
def Turn.Smooth (turn : Turn) : Prop := turn.read = none ∧ turn.backup = none ∧ turn.write = none

/-- The files, the notes that were copied with their copies, and the actions taken. -/
structure Applying where
  files : VaultFiles
  backups : List (RelPath × RelPath)
  applied : List String

/-- `_inside_vault` -/
def insideVault (root : List String) (relative : String) : Except Exn RelPath :=
  let target := PosixPath.absolute root relative
  if root.isPrefixOf target then .ok (target.drop root.length)
  else .error (valueError "maintenance path escapes vault")

/-- `_verify_preconditions` -/
def verifyPreconditions (root : List String) (files : VaultFiles)
    (actions : List MaintenanceAction) : Except Exn Unit :=
  actions.forM fun action => do
    let target ← insideVault root action.path
    match files.lookup target with
    | none => .error (fileNotFound ("maintenance target is not a regular file: " ++ action.path))
    | some data =>
        raiseIf (Sha256.hexdigest data ≠ action.beforeSha256)
          (runtimeError ("maintenance plan is stale: " ++ action.path))

/-- The names in a directory. -/
def namesIn (files : VaultFiles) (dir : RelPath) : List String :=
  files.keys.filterMap fun rel => if rel.dropLast = dir then rel.getLast? else none

section
variable [PythonClock]

/-- The path of the copy that `create_backup` makes. -/
def backupPath (files : VaultFiles) (target : RelPath) (now : Int) : RelPath :=
  let dir := target.dropLast ++ [".backups"]
  let (stem, suffix) := splitSuffix (fileName target)
  dir ++ [freshName (namesIn files dir) stem (PythonClock.strftime now) suffix]

variable [Healer]

/-- The target of an action, its content and the text that replaces it. -/
def prepare (root : List String) (turn : Turn) (files : VaultFiles) (action : MaintenanceAction) :
    Except Exn (RelPath × Bytes × String) := do
  let target ← insideVault root action.path
  let data ← match turn.read with
    | some exn => .error exn
    | none => readBytes files target
  let content ← decodeText data
  let now ← action.transformTimestamp.getD (.ok turn.now)
  let (healed, _) ← Healer.heal content target now
  raiseIf (action.afterSha256 ≠ some (Sha256.hexdigest (encodeText healed)))
    (runtimeError ("maintenance postcondition changed: " ++ action.path))
  return (target, data, healed)

/-- One action: the note is copied and then written. -/
def applyAction (root : List String) (turn : Turn) (action : MaintenanceAction) (s : Applying) :
    Applying × Option Exn :=
  match prepare root turn s.files action with
  | .error exn => (s, some exn)
  | .ok (target, data, healed) =>
      let backup := backupPath s.files target turn.now
      match turn.backup with
      | some (exn, none) => (s, some exn)
      | some (exn, some part) => ({ s with files := s.files.insert backup part }, some exn)
      | none =>
          let copied := s.files.insert backup data
          let backups := s.backups ++ [(target, backup)]
          match turn.write with
          | some exn => (⟨copied, backups, s.applied⟩, some exn)
          | none => (⟨copied.insert target (encodeText healed), backups,
              s.applied ++ [action.actionId]⟩, none)

/-- The actions up to the first that fails. -/
def applyActions (root : List String) : Stream' Turn → List MaintenanceAction → Applying →
    Applying × Option Exn
  | _, [], s => (s, none)
  | turns, action :: actions, s =>
      match applyAction root turns.head action s with
      | (next, some exn) => (next, some exn)
      | (next, none) => applyActions root turns.tail actions next

end

/-- `restore_backup(backup, target, overwrite=True)`, one after the other. -/
def rollBack : List (RelPath × RelPath) → VaultFiles → VaultFiles × Option Exn
  | [], files => (files, none)
  | (target, backup) :: backups, files =>
      match files.lookup backup with
      | none => (files, some (fileNotFound ("Backup is not a regular file: " ++ asPosix backup)))
      | some data => rollBack backups (files.insert target data)

/-- The checks before the first write. -/
def admitPlan (vault : Vault) (plan : MaintenancePlan) (approved : Bool) : Except Exn Unit := do
  raiseIf (vault.text ≠ plan.vault) (valueError "maintenance plan belongs to a different vault")
  raiseIf (approved = false)
    ⟨"PermissionError", "maintenance apply requires explicit approved=True"⟩
  raiseIf (∃ action ∈ plan.actions, action.actionClass ≠ .safeAuto)
    ⟨"PermissionError", "plan contains approval-required or plan-only actions"⟩
  verifyPreconditions vault.root vault.files plan.actions

/-- `apply_maintenance_plan`: the files it leaves, and what it returns or raises. -/
def applyMaintenancePlan [PythonClock] [Healer] (vault : Vault) (plan : MaintenancePlan)
    (approved : Bool) (turns : Stream' Turn) : VaultFiles × Except Exn MaintenanceReceipt :=
  match admitPlan vault plan approved with
  | .error exn => (vault.files, .error exn)
  | .ok _ =>
      match applyActions vault.root turns plan.actions ⟨vault.files, [], []⟩ with
      | (s, none) => (s.files, .ok ⟨s.applied, if s.applied = [] then .noOp else .ok⟩)
      | (s, some exn) =>
          let (files, failure) := rollBack s.backups.reverse s.files
          (files, .error (failure.getD exn))

end PowerFramework.Upkeep
