import PowerFramework.Lib.Sha256
import PowerFramework.Lib.Text
import PowerFramework.Lib.Utf8
import PowerFramework.State.ProjectState
/-!
# Work packets

The state of one bounded workflow, carried between agents, and what one lifecycle action makes
of it.
-/

namespace PowerFramework.Handoff

open Lib Lib.Failure Lib.Json Lib.Text State

/-! ## The vocabulary -/

inductive WorkPacketState where
  | submitted
  | working
  | inputRequired
  | completed
  | failed
  | canceled
  deriving DecidableEq, Repr

def WorkPacketState.text : WorkPacketState → String
  | .submitted => "submitted"
  | .working => "working"
  | .inputRequired => "input-required"
  | .completed => "completed"
  | .failed => "failed"
  | .canceled => "canceled"

/-- `_TERMINAL_STATES` -/
def WorkPacketState.terminal : WorkPacketState → Bool
  | .completed | .failed | .canceled => true
  | _ => false

/-- `_HANDOFF_ACTIONS` -/
inductive Action where
  | resume
  | checkpoint
  | inputRequired
  | complete
  | fail
  | cancel
  deriving DecidableEq, Repr

def Action.ofText? : String → Option Action
  | "resume" => some .resume
  | "checkpoint" => some .checkpoint
  | "input-required" => some .inputRequired
  | "complete" => some .complete
  | "fail" => some .fail
  | "cancel" => some .cancel
  | _ => none

/-- `_MAINTENANCE_PHASES` -/
inductive Phase where
  | detect
  | dryRun
  | repair
  | verify
  | receipt
  deriving DecidableEq, Repr

def Phase.text : Phase → String
  | .detect => "detect"
  | .dryRun => "dry-run"
  | .repair => "repair"
  | .verify => "verify"
  | .receipt => "receipt"

def Phase.ofText? : String → Option Phase
  | "detect" => some .detect
  | "dry-run" => some .dryRun
  | "repair" => some .repair
  | "verify" => some .verify
  | "receipt" => some .receipt
  | _ => none

/-- `_NEXT_MAINTENANCE_PHASE` -/
def nextMaintenancePhase : Phase → Phase
  | .detect => .dryRun
  | .dryRun => .repair
  | .repair => .verify
  | .verify => .receipt
  | .receipt => .receipt

inductive Authority where
  | readOnly
  | propose
  | apply
  deriving DecidableEq, Repr

def Authority.ofText? : String → Option Authority
  | "read-only" => some .readOnly
  | "propose" => some .propose
  | "apply" => some .apply
  | _ => none

inductive Profile where
  | standard
  | maintenance
  deriving DecidableEq, Repr

def Profile.ofText? : String → Option Profile
  | "standard" => some .standard
  | "maintenance" => some .maintenance
  | _ => none

/-- `_TASK_PATTERN.fullmatch` -/
def isTaskId (taskId : String) : Bool := isToken 127 taskId

/-- `_TOKEN_PATTERN.fullmatch` -/
def isSafeToken (value : String) : Bool :=
  match value.toList with
  | [] => false
  | c :: cs => isAlnum c && cs.length ≤ 127 && cs.all fun d => isTokenChar d || d = ':'

/-- `_validate_task_id` -/
def validateTaskId (taskId : String) : Except Exn Unit :=
  raiseIf (isTaskId taskId = false) (valueError "task_id must be a safe token")

/-- `_validate_token` -/
def validateToken (value field : String) : Except Exn Unit :=
  raiseIf (isSafeToken value = false) (valueError (field ++ " must be a safe token"))

/-! ## The model -/

/-- The fields of a `WorkPacket`. -/
structure Fields where
  taskId : String
  objective : String
  owner : String
  actor : String
  scope : List String
  authority : Authority
  state : WorkPacketState
  profile : Profile
  maintenancePhase : Option Phase
  sourceRevision : String
  changedArtifacts : List String
  receiptIds : List String
  openGates : List String
  nextAction : String
  blocker : Option String
  requiredApproval : Option String
  humanInterventions : Nat
  idempotencyKey : String
  checkpoint : Nat
  lastAction : String
  lastIdempotencyKey : String
  lastActionFingerprint : String
  createdAt : String
  updatedAt : String
  deriving DecidableEq, Repr

/-- `Field(min_length=low, max_length=high)` -/
def lengthBetween (low high : Nat) (value : String) : Bool :=
  low ≤ value.toList.length && value.toList.length ≤ high

def lengthAtMost (high : Nat) : Option String → Bool
  | some value => lengthBetween 0 high value
  | none => true

/-- `Field(max_length=64)` of a list, and the check of `normalize_string_lists`. -/
def acceptedList (values : List String) : Bool :=
  values.length ≤ 64 && values.all fun value => stripText value ≠ ""

def Fields.accepted (f : Fields) : Bool :=
  lengthBetween 1 128 f.taskId && lengthBetween 1 1000 f.objective && lengthBetween 1 200 f.owner &&
    lengthBetween 1 200 f.actor && acceptedList f.scope && lengthBetween 0 200 f.sourceRevision &&
    acceptedList f.changedArtifacts && acceptedList f.receiptIds && acceptedList f.openGates &&
    lengthBetween 1 1000 f.nextAction && lengthAtMost 1000 f.blocker &&
    lengthAtMost 200 f.requiredApproval && lengthBetween 1 128 f.idempotencyKey &&
    lengthBetween 0 64 f.lastAction && lengthBetween 1 128 f.lastIdempotencyKey &&
    lengthBetween 64 64 f.lastActionFingerprint

/-- What `normalize_string_lists` returns. -/
def Fields.normalize (f : Fields) : Fields :=
  { f with
    scope := f.scope.map stripText
    changedArtifacts := f.changedArtifacts.map stripText
    receiptIds := f.receiptIds.map stripText
    openGates := f.openGates.map stripText }

/-- `WorkPacket` -/
structure WorkPacket where
  fields : Fields
  accepted : fields.accepted = true
  normalized : fields.normalize = fields
  deriving DecidableEq

@[ext] theorem WorkPacket.ext {p q : WorkPacket} (h : p.fields = q.fields) : p = q := by
  cases p
  cases q
  cases h
  rfl

theorem strip_strip (text : List Char) : Ledger.strip (Ledger.strip text) = Ledger.strip text := by
  have hfront : (Ledger.strip text).dropWhile Ledger.isPySpace = Ledger.strip text := by
    rw [List.dropWhile_eq_self_iff]
    intro hpos
    have hlead : Ledger.strip text <+: text.dropWhile Ledger.isPySpace :=
      List.rdropWhile_prefix _ _
    have hne : 0 < (text.dropWhile Ledger.isPySpace).length :=
      Nat.lt_of_lt_of_le hpos hlead.length_le
    have hhead := List.dropWhile_get_zero_not Ledger.isPySpace text hne
    rw [List.get_eq_getElem] at hhead
    rw [hlead.getElem hpos]
    exact hhead
  calc Ledger.strip (Ledger.strip text)
      = (Ledger.strip text).rdropWhile Ledger.isPySpace := by
        conv_lhs => rw [Ledger.strip, hfront]
    _ = Ledger.strip text := List.rdropWhile_idempotent _ _

@[simp] theorem stripText_stripText (text : String) :
    stripText (stripText text) = stripText text := by
  unfold stripText
  rw [String.toList_ofList, strip_strip]

@[simp] theorem acceptedList_map_stripText (values : List String) :
    acceptedList (values.map stripText) = acceptedList values := by
  simp [acceptedList, List.all_map, Function.comp_def]

@[simp] theorem Fields.normalize_normalize (f : Fields) : f.normalize.normalize = f.normalize := by
  simp [Fields.normalize, Function.comp_def]

@[simp] theorem Fields.accepted_normalize (f : Fields) : f.normalize.accepted = f.accepted := by
  simp [Fields.normalize, Fields.accepted]

/-- `ValidationError` -/
def validationError : Exn := ⟨"ValidationError", "WorkPacket"⟩

/-- `WorkPacket.model_validate` -/
def modelValidate (f : Fields) : Except Exn WorkPacket :=
  if h : f.accepted = true then
    .ok ⟨f.normalize, by rw [f.accepted_normalize, h], f.normalize_normalize⟩
  else .error validationError

/-- What a packet is dumped to is the packet again. -/
@[simp] theorem modelValidate_fields (p : WorkPacket) : modelValidate p.fields = .ok p := by
  rw [modelValidate, dif_pos p.accepted]
  exact congrArg _ (WorkPacket.ext p.normalized)

theorem modelValidate_ok {f : Fields} {p : WorkPacket} (h : modelValidate f = .ok p) :
    f.accepted = true ∧ p.fields = f.normalize := by
  unfold modelValidate at h
  split at h
  · rename_i haccepted
    cases h
    exact ⟨haccepted, rfl⟩
  · cases h

def optionalText : Option String → List Char
  | some value => dumpsStr value
  | none => "null".toList

def flagText (flag : Bool) : List Char := if flag then "true".toList else "false".toList

def textList (values : List String) : List Char := '[' :: joinComma (values.map dumpsStr) ++ [']']

/-- `json.dumps(…, ensure_ascii=False, sort_keys=True, separators=(",", ":"))` of a dict, from the
texts of its values in the order of its keys. -/
def canonical (items : List (String × List Char)) : List Char :=
  '{' :: joinComma (items.map fun item => dumpsStr item.1 ++ ':' :: item.2) ++ ['}']

/-- `_action_fingerprint` -/
def actionFingerprint (action : String) (payload : List (String × List Char)) : String :=
  Sha256.hexdigest
    (Utf8.encode (canonical [("action", dumpsStr action), ("payload", canonical payload)]))

theorem length_actionFingerprint (action : String) (payload : List (String × List Char)) :
    (actionFingerprint action payload).toList.length = 64 := Sha256.length_hexdigest _

/-! ## Creation -/

/-- The arguments of `create_work_packet`. -/
structure CreateArgs where
  taskId : String
  objective : String
  owner : String
  actor : String
  scope : List String := []
  authority : String := "read-only"
  sourceRevision : String := "unknown"
  nextAction : String := "inspect"
  profile : String := "standard"
  requiredApproval : Option String := none
  idempotencyKey : Option String := none

/-- `idempotency_key or task_id` -/
def CreateArgs.key (args : CreateArgs) : String :=
  match args.idempotencyKey with
  | some key => if key = "" then args.taskId else key
  | none => args.taskId

/-- The next action that the packet is created with. -/
def CreateArgs.firstAction (args : CreateArgs) : String :=
  if args.profile = "maintenance" then "detect" else args.nextAction

/-- `_creation_fingerprint` -/
def CreateArgs.fingerprint (args : CreateArgs) : String :=
  actionFingerprint "create" [
    ("actor", dumpsStr args.actor),
    ("authority", dumpsStr args.authority),
    ("next_action", dumpsStr args.firstAction),
    ("objective", dumpsStr args.objective),
    ("owner", dumpsStr args.owner),
    ("profile", dumpsStr args.profile),
    ("required_approval", optionalText args.requiredApproval),
    ("scope", textList args.scope),
    ("source_revision", dumpsStr args.sourceRevision),
    ("task_id", dumpsStr args.taskId)]

/-- The packet that `create` constructs. -/
def CreateArgs.packet (args : CreateArgs) (now : String) : Except Exn WorkPacket :=
  match Authority.ofText? args.authority, Profile.ofText? args.profile with
  | some authority, some profile =>
      modelValidate
        { taskId := args.taskId
          objective := args.objective
          owner := args.owner
          actor := args.actor
          scope := args.scope
          authority
          state := .submitted
          profile
          maintenancePhase := if args.profile = "maintenance" then some .detect else none
          sourceRevision := args.sourceRevision
          changedArtifacts := []
          receiptIds := []
          openGates := []
          nextAction := args.firstAction
          blocker := none
          requiredApproval := args.requiredApproval
          humanInterventions := 0
          idempotencyKey := args.key
          checkpoint := 0
          lastAction := "create"
          lastIdempotencyKey := args.key
          lastActionFingerprint := args.fingerprint
          createdAt := now
          updatedAt := now }
  | _, _ => .error validationError

/-! ## Lifecycle actions -/

/-- The arguments of `advance_work_packet` behind the task id. -/
structure AdvanceArgs where
  action : String
  idempotencyKey : String
  actor : String
  approved : Bool := false
  nextAction : Option String := none
  blocker : Option String := none
  requiredApproval : Option String := none
  receiptId : Option String := none
  changedArtifacts : Option (List String) := none
  openGates : Option (List String) := none
  phase : Option String := none

/-- `_action_fingerprint(action, …)` in `advance` -/
def AdvanceArgs.fingerprint (args : AdvanceArgs) (taskId : String) : String :=
  actionFingerprint args.action [
    ("actor", dumpsStr args.actor),
    ("approved", flagText args.approved),
    ("blocker", optionalText args.blocker),
    ("changed_artifacts", textList (args.changedArtifacts.getD [])),
    ("idempotency_key", dumpsStr args.idempotencyKey),
    ("next_action", optionalText args.nextAction),
    ("open_gates", textList (args.openGates.getD [])),
    ("phase", optionalText args.phase),
    ("receipt_id", optionalText args.receiptId),
    ("required_approval", optionalText args.requiredApproval),
    ("task_id", dumpsStr taskId)]

/-- `action not in _HANDOFF_ACTIONS` -/
def AdvanceArgs.givenAction (args : AdvanceArgs) : Except Exn Action :=
  match Action.ofText? args.action with
  | some action => .ok action
  | none => .error (valueError "unknown work-packet action")

/-- `phase is not None and phase not in _MAINTENANCE_PHASES` -/
def AdvanceArgs.givenPhase (args : AdvanceArgs) : Except Exn (Option Phase) :=
  match args.phase with
  | none => .ok none
  | some text =>
      match Phase.ofText? text with
      | some phase => .ok (some phase)
      | none => .error (valueError "unknown maintenance phase")

def AdvanceArgs.validateReceipt (args : AdvanceArgs) : Except Exn Unit :=
  match args.receiptId with
  | some receiptId => validateToken receiptId "receipt_id"
  | none => .ok ()

/-- The action and the phase of arguments that pass the checks of `advance_work_packet`. -/
def AdvanceArgs.validate (args : AdvanceArgs) (taskId : String) :
    Except Exn (Action × Option Phase) := do
  validateTaskId taskId
  let action ← args.givenAction
  validateToken args.idempotencyKey "idempotency_key"
  args.validateReceipt
  raiseIf (stripText args.actor = "") (valueError "actor must be a non-empty string")
  let phase ← args.givenPhase
  return (action, phase)

/-- `repr` of a phase -/
def phaseRepr : Option Phase → String
  | some phase => "'" ++ phase.text ++ "'"
  | none => "None"

/-- `_advance_maintenance_phase` -/
def advanceMaintenancePhase (packet : Fields) (phase : Option Phase) (approved : Bool) :
    Except Exn (Option Phase) :=
  if packet.profile ≠ .maintenance then
    match phase with
    | some _ => .error (valueError "phase is valid only for maintenance packets")
    | none => .ok none
  else
    match phase with
    | none => .error (runtimeError ("maintenance phase must advance from " ++
        phaseRepr packet.maintenancePhase ++ "; got None"))
    | some given =>
        if packet.maintenancePhase ≠ some given then
          .error (runtimeError ("maintenance phase must advance from " ++
            phaseRepr packet.maintenancePhase ++ "; got " ++ phaseRepr (some given)))
        else if given = .repair ∧ approved = false then
          .error ⟨"PermissionError", "maintenance repair requires explicit approved=True"⟩
        else .ok (some (nextMaintenancePhase given))

/-- `_default_next_action` -/
def defaultNextAction (state : WorkPacketState) (phase : Option Phase) : String :=
  match state, phase with
  | .working, some phase => phase.text
  | .completed, _ => "none"
  | .failed, _ | .canceled, _ => "handoff"
  | .inputRequired, _ => "provide-input-or-approval"
  | _, _ => "inspect"

/-- `new_state`, `new_phase`, `new_blocker` and `new_approval` of `advance`. -/
structure Change where
  state : WorkPacketState
  phase : Option Phase
  blocker : Option String
  approval : Option String

/-- `blocker.strip()`, of a blocker that is given and not blank. -/
def givenBlocker (blocker : Option String) (message : String) : Except Exn String :=
  match blocker with
  | some text =>
      if stripText text = "" then .error (valueError message) else .ok (stripText text)
  | none => .error (valueError message)

/-- The branches of `advance`. -/
def change (packet : Fields) (action : Action) (phase : Option Phase) (args : AdvanceArgs) :
    Except Exn Change :=
  if packet.state.terminal = true then
    .error (runtimeError ("work packet is already " ++ packet.state.text))
  else
    match action with
    | .resume =>
        if packet.state = .inputRequired ∧ args.approved = false then
          .error ⟨"PermissionError", "resume requires explicit approval for the requested input"⟩
        else .ok ⟨.working, packet.maintenancePhase, none, none⟩
    | .checkpoint =>
        if packet.state ≠ .working then
          .error (runtimeError "checkpoint requires a working packet")
        else do
          let newPhase ← advanceMaintenancePhase packet phase args.approved
          return ⟨.working, newPhase, none, none⟩
    | .inputRequired => do
        let blocker ← givenBlocker args.blocker "input-required requires a blocker"
        return ⟨.inputRequired, packet.maintenancePhase, some blocker,
          match args.requiredApproval with
          | some approval => some (if approval = "" then "caller" else approval)
          | none => some "caller"⟩
    | .complete =>
        if packet.state ≠ .working then
          .error (runtimeError "only a working packet can be completed")
        else if (args.receiptId.any isSafeToken) = false then
          .error (valueError "complete requires a receipt_id")
        else if packet.openGates ≠ [] ∨
            (packet.profile = .maintenance ∧ packet.maintenancePhase ≠ some .receipt) then
          .error (runtimeError "cannot complete a packet with open gates")
        else .ok ⟨.completed, packet.maintenancePhase, none, none⟩
    | .fail => do
        let blocker ← givenBlocker args.blocker "fail requires a blocker"
        return ⟨.failed, packet.maintenancePhase, some blocker, none⟩
    | .cancel =>
        if args.approved = false then
          .error ⟨"PermissionError", "cancel requires explicit approved=True"⟩
        else .ok ⟨.canceled, packet.maintenancePhase,
          match args.blocker with
          | some text => some (if text = "" then "canceled by caller" else stripText text)
          | none => some "canceled by caller", none⟩

/-- Items appended to a list that does not have them. -/
def appendNew (items : List String) (values : List String) : List String :=
  values.foldl (fun items value => if value ∈ items then items else items ++ [value]) items

/-- The fields that `advance` validates. -/
def updatedFields (packet : Fields) (action : Action) (phase : Option Phase) (args : AdvanceArgs)
    (new : Change) (fingerprint now : String) : Fields :=
  { packet with
    actor := args.actor
    state := new.state
    maintenancePhase := new.phase
    changedArtifacts := appendNew packet.changedArtifacts (args.changedArtifacts.getD [])
    receiptIds := appendNew packet.receiptIds ((args.receiptId.filter (· ≠ "")).toList)
    openGates := args.openGates.getD packet.openGates
    nextAction := match args.nextAction with
      | some text => if text = "" then defaultNextAction new.state new.phase else text
      | none => defaultNextAction new.state new.phase
    blocker := new.blocker
    requiredApproval := new.approval
    humanInterventions := packet.humanInterventions +
      if action = .inputRequired ∨ action = .cancel ∨
        (action = .checkpoint ∧ phase = some .repair ∧ args.approved = true) then 1 else 0
    checkpoint := packet.checkpoint + 1
    lastAction := args.action
    lastIdempotencyKey := args.idempotencyKey
    lastActionFingerprint := fingerprint
    updatedAt := now }

end PowerFramework.Handoff
