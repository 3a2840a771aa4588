import PowerFramework.Task.Saving
/-!
# The task service

`create_task` and `transition_task`.  A command runs under the store lock, so it is a function
from the files to an exception or to a task and the new files.  The times it reads are a
parameter.
-/

namespace PowerFramework.Task

open Lib Lib.Failure Lib.Json Lib.Splitlines Ledger TaskStore

def conflictError (message : String) : Exn := ⟨"ConflictError", message⟩

def permissionError (message : String) : Exn := ⟨"PermissionError", message⟩

def notFoundError (message : String) : Exn := ⟨"FileNotFoundError", message⟩

/-! ## Arguments -/

/-- The times that a command reads: `now_iso`, the `created_at` of its event and of its receipt,
and the milliseconds of the event id. -/
structure Clock where
  now : String
  event : String
  receipt : String
  stamp : Int

/-- The items of a dict argument. -/
def optDict : Option Dict → Value
  | none => .null
  | some items => .dict (dictFrom items)

def optInt : Option Int → Value
  | none => .null
  | some n => .int n

def optStrList : Option (List String) → Value
  | none => .null
  | some texts => strList texts

/-- A `dict[str, str]` argument. -/
def strItems (items : List (String × String)) : Dict :=
  dictFrom (items.map fun item => (item.1, .str item.2))

def optStrDict : Option (List (String × String)) → Value
  | none => .null
  | some items => .dict (strItems items)

/-- The arguments of `create_task`.  An empty list stands for `None` where both mean the same. -/
structure CreateCommand where
  taskId : String
  title : String
  objective : String := ""
  owner : String := "local"
  assignee : Option String := none
  state : String := "backlog"
  priority : String := "normal"
  kind : String := "human"
  scope : List String := []
  authority : String := "read-only"
  dependencies : List String := []
  sourceRevision : String := ""
  nextAction : String := "inspect"
  openGates : List String := []
  requiredInput : Option Dict := none
  artifactRefs : List String := []
  receiptIds : List String := []
  externalRefs : List (String × String) := []
  dueAt : Option String := none
  actor : String := "local"
  idempotencyKey : Option String := none

/-- The arguments of `transition_task`; `projection` tells whether the token is the broker's. -/
structure TransitionCommand where
  taskId : String
  newState : String
  actor : String := "local"
  expectedRevision : Option Int := none
  receiptId : Option String := none
  completionPostcondition : Option String := none
  completionArtifactRefs : Option (List String) := none
  idempotencyKey : Option String := none
  nextAction : Option String := none
  assignee : Option String := none
  requiredInput : Option Dict := none
  openGates : Option (List String) := none
  errorRef : Option String := none
  externalRefUpdates : Option (List (String × String)) := none
  requiredClaimKey : Option String := none
  requiredClaimIntentDigest : Option String := none
  projection : Bool := false
  values : Option Dict := none

/-- What the fingerprint of a creation covers. -/
def CreateCommand.payload (c : CreateCommand) : Dict := [
  ("artifact_refs", strList c.artifactRefs),
  ("assignee", optValue c.assignee),
  ("authority", .str c.authority),
  ("dependencies", strList c.dependencies),
  ("due_at", optValue c.dueAt),
  ("external_refs", .dict (strItems c.externalRefs)),
  ("kind", .str c.kind),
  ("next_action", .str c.nextAction),
  ("objective", .str c.objective),
  ("open_gates", strList c.openGates),
  ("owner", .str c.owner),
  ("priority", .str c.priority),
  ("receipt_ids", strList c.receiptIds),
  ("required_input", optDict c.requiredInput),
  ("scope", strList c.scope),
  ("source_revision", .str c.sourceRevision),
  ("state", .str c.state),
  ("task_id", .str c.taskId),
  ("title", .str c.title)]

/-- What the fingerprint of a transition covers. -/
def TransitionCommand.payload (c : TransitionCommand) : Dict := [
  ("allow_infra_projection", .bool c.projection),
  ("assignee", optValue c.assignee),
  ("completion_artifact_refs", optStrList c.completionArtifactRefs),
  ("completion_postcondition", optValue c.completionPostcondition),
  ("error_ref", optValue c.errorRef),
  ("expected_revision", optInt c.expectedRevision),
  ("external_ref_updates", optStrDict c.externalRefUpdates),
  ("new_state", .str c.newState),
  ("next_action", optValue c.nextAction),
  ("open_gates", optStrList c.openGates),
  ("receipt_id", optValue c.receiptId),
  ("required_claim_intent_digest", optValue c.requiredClaimIntentDigest),
  ("required_claim_key", optValue c.requiredClaimKey),
  ("required_input", optDict c.requiredInput),
  ("task_id", .str c.taskId),
  ("values", optDict c.values)]

/-- The text that `_command_fingerprint` takes the digest of. -/
def fingerprintText [PythonText] (operation : String) (payload : Dict) : Except Exn (List Char) :=
  (Layout.spaced true).write 0
    (Value.dict [("operation", .str operation), ("payload", .dict payload)]).defaultStr

/-- `_command_fingerprint` -/
def commandFingerprint [PythonText] (operation : String) (payload : Dict) : Except Exn String :=
  (fingerprintText operation payload).map fun text => Sha256.hexdigest (Utf8.encode text)

/-! ## Replays -/

section
variable [LaxInt] (now : String)

/-- The loop of `_find_idempotent_result`. -/
def recordedResult (key commandSha256 : String) :
    List TaskEvent → Except Exn (Option PowerTask)
  | [] => .ok none
  | event :: events =>
      if (getItem event.payload "idempotency_key").isText key then do
        raiseIf (!(getItem event.payload "command_sha256").isText commandSha256)
          (valueError "Idempotency key was reused for a different task command")
        match getItem event.payload "result" with
        | .dict result => (validate (taskFields now) (.dict result)).map some
        | _ => .error (valueError "Idempotent task event is missing its result snapshot")
      else recordedResult key commandSha256 events

/-- `_find_idempotent_result` -/
def findIdempotentResult (files : Files) (taskId : String) (idempotencyKey : Option String)
    (commandSha256 : String) (events : Option (List TaskEvent)) :
    Except Exn (Option PowerTask) := do
  match idempotencyKey with
  | none => return none
  | some key =>
      match events with
      | some events => recordedResult now key commandSha256 events
      | none => do
          let events ← getTaskEvents now files taskId 0 false
          recordedResult now key commandSha256 events

/-! ## Creation -/

/-- The task that `create_task` builds. -/
def newTask (c : CreateCommand) : Except Exn PowerTask :=
  validate (taskFields now) (.dict [
    ("artifact_refs", strList c.artifactRefs),
    ("assignee", optValue c.assignee),
    ("authority", .str c.authority),
    ("created_at", .str now),
    ("dependencies", strList c.dependencies),
    ("due_at", optValue c.dueAt),
    ("external_refs", .dict (strItems c.externalRefs)),
    ("kind", .str c.kind),
    ("next_action", .str c.nextAction),
    ("objective", .str c.objective),
    ("open_gates", strList c.openGates),
    ("owner", .str c.owner),
    ("priority", .str c.priority),
    ("receipt_ids", strList c.receiptIds),
    ("required_input", optDict c.requiredInput),
    ("revision", .int 1),
    ("scope", strList c.scope),
    ("source_revision", .str c.sourceRevision),
    ("state", .str c.state),
    ("task_id", .str c.taskId),
    ("tenant_id", .str "local"),
    ("title", .str c.title),
    ("updated_at", .str now),
    ("vault_id", .str "default")])

end

/-- The payload of the event `task_created`. -/
def createdPayload (c : CreateCommand) (commandSha256 : String) (task : PowerTask) : Dict := [
  ("command_sha256", .str commandSha256),
  ("idempotency_key", optValue c.idempotencyKey),
  ("initial_state", .str c.state),
  ("owner", .str c.owner),
  ("result", .dict task),
  ("title", .str c.title)]

/-- `create_task` -/
def createTask [PythonText] [LaxInt] (clock : Clock) (files : Files) (c : CreateCommand) :
    Except Exn (PowerTask × Files) := do
  raiseIf (terminalStates.contains c.state)
    (valueError "Task creation cannot start in a terminal state")
  raiseIf (c.externalRefs.any fun ref => ref.1.startsWith "infra_")
    (permissionError "Infrastructure task references require broker projection")
  let commandSha256 ← commandFingerprint "create" c.payload
  let existing ← getTask clock.now files c.taskId
  match existing with
  | some _ => do
      let replay ← findIdempotentResult clock.now files c.taskId c.idempotencyKey commandSha256 none
      match replay with
      | some task => return (task, files)
      | none => .error (conflictError ("Task with ID " ++ c.taskId ++ " already exists"))
  | none => do
      let task : PowerTask ← newTask clock.now c
      let event ← TaskEvent.create clock.event clock.stamp c.taskId 1 c.actor "task_created"
        (createdPayload c commandSha256 task) ""
      let files ← saveTask clock.now files task (some event) none
      return (task, files)

/-! ## Receipts -/

/-- `text.strip()` -/
def stripped (text : String) : String :=
  String.ofList ((text.toList.dropWhile isWhitespace).rdropWhile isWhitespace)

/-- `Path(text).parts` of a relative path. -/
def pathParts (text : String) : List String :=
  ((text.toList.splitOn '/').map String.ofList).filter fun part => part != "" && part != "."

/-- The digest of one artifact, by its path below the vault. -/
def artifactDigest (files : Files) (relPath : String) : Except Exn (String × Value) := do
  raiseIf (isBlank relPath.toList)
    (valueError "Completion artifact references must be non-empty paths")
  let parts := pathParts relPath
  raiseIf (relPath.toList.head? = some '/' ∨ '\\' ∈ relPath.toList ∨ parts.contains "..")
    (valueError "Completion artifact path is invalid")
  match files parts with
  | some data => return (String.intercalate "/" parts, .str (Sha256.hexdigest data))
  | none => .error (notFoundError relPath)

/-- `_build_completion_receipt` -/
def buildCompletionReceipt [LaxInt] (clock : Clock) (files : Files) (task : PowerTask)
    (actor : String) (postcondition : Option String) (artifactRefs : Option (List String)) :
    Except Exn TaskCompletionReceipt := do
  raiseIf (isBlank (postcondition.getD "").toList)
    (valueError "Completion requires a verified postcondition")
  let refs := artifactRefs.getD (textsOf task "artifact_refs")
  raiseIf (refs.isEmpty) (valueError "Completion requires at least one verifiable artifact")
  let digests ← refs.mapM (artifactDigest files)
  let content : TaskCompletionReceipt.Content :=
    { taskId := task.taskId
      taskRevision := task.revision + 1
      completionPolicy := textOf task "completion_policy"
      postconditionSha256 :=
        Sha256.hexdigest (Utf8.encode (stripped (postcondition.getD "")).toList)
      artifactDigests := dictFrom digests
      actor := actor }
  let receiptId ← TaskCompletionReceipt.deriveReceiptId content
  validate (receiptFields clock.receipt)
    (.dict (dictFrom (("receipt_id", .str receiptId) :: content.payload)))

/-! ## Transitions -/

/-- `not text` of an optional string. -/
def missing (text : Option String) : Bool := text.getD "" == ""

/-- `any(key.startswith("infra_") for key in refs)` of a dict, false of anything else. -/
def infraKeyed : Value → Except Exn Bool
  | .dict items => .ok (items.any fun item => item.1.startsWith "infra_")
  | .keyed .. => .error ⟨"AttributeError", "object has no attribute 'startswith'"⟩
  | _ => .ok false

def requiredInfraRefs : List String := [
  "infra_run_id", "infra_manifest_digest", "infra_profile_id", "infra_target_id",
  "infra_verify_receipt_id", "infra_verify_run_id", "infra_verify_manifest_digest",
  "infra_verify_profile_id", "infra_verify_target_id"]

/-- The references of a task name a verified remote postcondition. -/
def remotelyVerified (task : PowerTask) : Bool :=
  task.externalRef "infra_verify_status" == some "inventory-matched" &&
    requiredInfraRefs.all (fun key => !missing (task.externalRef key)) &&
    ((task.externalRef "infra_verify_receipt_id").getD "").startsWith "ir_" &&
    task.externalRef "infra_verify_run_id" == task.externalRef "infra_run_id" &&
    task.externalRef "infra_verify_manifest_digest" == task.externalRef "infra_manifest_digest" &&
    task.externalRef "infra_verify_profile_id" == task.externalRef "infra_profile_id" &&
    task.externalRef "infra_verify_target_id" == task.externalRef "infra_target_id"

/-- `{**task.external_refs, **external_ref_updates}` -/
def mergedRefs (task : PowerTask) (updates : List (String × String)) : Dict :=
  (strItems updates).foldl (fun d item => setItem item.1 item.2 d) (itemsOf task "external_refs")

/-- The checks of `transition_task` on infrastructure references. -/
def checkInfra (task : PowerTask) (c : TransitionCommand) : Except Exn Unit := do
  let claimed := (task.externalRef "infra_claim_key_ref").isSome
  raiseIf ((c.requiredClaimKey.isSome || c.requiredClaimIntentDigest.isSome) &&
      (missing c.requiredClaimKey || missing c.requiredClaimIntentDigest ||
        task.externalRef "infra_claim_key_ref" != c.requiredClaimKey ||
        task.externalRef "infra_claim_intent_digest" != c.requiredClaimIntentDigest))
    (conflictError "Task infrastructure claim no longer owns this projection")
  raiseIf (claimed && ((c.values.any fun values => hasItem (dictFrom values) "external_refs") ||
      c.externalRefUpdates.isSome) && !c.projection)
    (permissionError "Infrastructure task references may only be changed by projection")
  raiseIf (claimed && ["leased", "running"].contains (textOf task "execution_state") &&
      terminalStates.contains c.newState && !c.projection)
    (conflictError "Active infrastructure execution must be reconciled before terminal transition")
  let candidate := match c.externalRefUpdates with
    | some updates => .dict (mergedRefs task updates)
    | none => getItem (dictFrom (c.values.getD [])) "external_refs"
  let infra ← infraKeyed candidate
  raiseIf (infra && !c.projection)
    (permissionError "Infrastructure task references require broker projection")
  raiseIf (c.newState == "completed" && claimed &&
      task.externalRef "infra_operation" == some "replicate" && !remotelyVerified task)
    (permissionError
      "Infrastructure task completion requires a matching verified remote postcondition")

/-- The receipt of a transition to `completed`. -/
def completionReceipt [LaxInt] (clock : Clock) (files : Files) (task : PowerTask)
    (c : TransitionCommand) : Except Exn (Option TaskCompletionReceipt) :=
  if c.newState = "completed" then do
    raiseIf (c.expectedRevision = none) (valueError "Completion requires expected_revision")
    match c.receiptId with
    | some receiptId => do
        let receipt ← getCompletionReceipt clock.now files receiptId
        match receipt with
        | none => .error (valueError "Completion receipt does not exist")
        | some (receipt : TaskCompletionReceipt) => do
            raiseIf (receipt.taskId ≠ c.taskId ∨ receipt.taskRevision ≠ task.revision + 1)
              (valueError "Completion receipt is not bound to this task revision")
            return some receipt
    | none => do
        let receipt ← buildCompletionReceipt clock files task c.actor c.completionPostcondition
          c.completionArtifactRefs
        return some receipt
  else .ok none

/-- `instance.name = value` unless it is `None`. -/
def assign (name : String) (value : Option Value) (task : PowerTask) : PowerTask :=
  match value with
  | some value => setItem name value task
  | none => task

/-- `if receipt_id and receipt_id not in task.receipt_ids: …` -/
def addReceiptId (receiptId : Option String) (task : PowerTask) : PowerTask :=
  if missing receiptId || task.receiptIds.contains (receiptId.getD "") then task
  else setItem "receipt_ids" (strList (task.receiptIds ++ [receiptId.getD ""])) task

/-- The assignments on the model, which are not validated. -/
def assigned (now : String) (task : PowerTask) (c : TransitionCommand)
    (receiptId : Option String) : PowerTask :=
  let moved := setItem "updated_at" (.str now)
    (setItem "revision" (.int (task.revision + 1)) (setItem "state" (.str c.newState) task))
  assign "error_ref" (c.errorRef.map .str)
    (assign "open_gates" (c.openGates.map strList)
      (assign "required_input" (c.requiredInput.map fun items => .dict (dictFrom items))
        (assign "assignee" (c.assignee.map .str)
          (assign "next_action" (c.nextAction.map .str)
            (addReceiptId receiptId moved)))))

def mutableFields : List String := [
  "next_action", "assignee", "required_input", "open_gates", "error_ref", "artifact_refs",
  "external_refs", "max_attempts", "retry_at", "lease_owner", "lease_expires_at", "heartbeat_at",
  "execution_state", "dead_letter_reason", "due_at"]

/-- The updates that are validated with the whole task. -/
def revalidated [LaxInt] (now : String) (task : PowerTask) (c : TransitionCommand) :
    Except Exn PowerTask :=
  match dictFrom (c.values.getD []), c.externalRefUpdates.getD [] with
  | [], [] => .ok task
  | [], updates =>
      validate (taskFields now)
        (.dict (setItem "external_refs" (.dict (mergedRefs task updates)) task))
  | values, updates => do
      let unknown := (values.map Prod.fst).filter fun name => !mutableFields.contains name
      raiseIf (unknown ≠ [])
        (valueError ("Task update contains immutable or unknown fields: " ++
          String.intercalate ", " unknown))
      let values := if updates = [] then values
        else setItem "external_refs" (.dict (mergedRefs task updates)) values
      validate (taskFields now)
        (.dict (values.foldl (fun d item => setItem item.1 item.2 d) task))

/-- The payload of the event `state_transition`. -/
def transitionPayload (c : TransitionCommand) (commandSha256 prevState : String)
    (receiptId : Option String) (task : PowerTask) : Dict := [
  ("command_sha256", .str commandSha256),
  ("from_state", .str prevState),
  ("idempotency_key", optValue c.idempotencyKey),
  ("next_action", getItem task "next_action"),
  ("receipt_id", optValue receiptId),
  ("result", .dict task),
  ("to_state", .str c.newState)]

/-- `transition_task` behind the replay: the task as it was read, and its events. -/
def advance [LaxInt] (clock : Clock) (files : Files) (c : TransitionCommand)
    (commandSha256 : String) (task : PowerTask) (events : List TaskEvent) :
    Except Exn (PowerTask × Files) := do
  raiseIf (c.expectedRevision.any fun revision => task.revision ≠ revision)
    (conflictError ("Revision conflict for task " ++ c.taskId ++ ": expected " ++
      toString (c.expectedRevision.getD 0) ++ ", found " ++ toString task.revision))
  checkInfra task c
  let receipt ← completionReceipt clock files task c
  let receiptId := match receipt with
    | some receipt => some (TaskCompletionReceipt.receiptId receipt)
    | none => c.receiptId
  task.validateTransition c.newState receiptId
  let next : PowerTask ← revalidated clock.now (assigned clock.now task c receiptId) c
  let event ← TaskEvent.create clock.event clock.stamp c.taskId
    ((events.getLast?.map TaskEvent.sequence).getD 0 + 1) c.actor "state_transition"
    (transitionPayload c commandSha256 task.state receiptId next) (lastDigest "" events)
  let files ← saveTask clock.now files next (some event) receipt
  return (next, files)

/-- `transition_task` -/
def transitionTask [PythonText] [LaxInt] (clock : Clock) (files : Files) (c : TransitionCommand) :
    Except Exn (PowerTask × Files) := do
  let commandSha256 ← commandFingerprint "transition" c.payload
  let stored ← getTask clock.now files c.taskId
  match stored with
  | none => .error (notFoundError ("Task " ++ c.taskId ++ " not found"))
  | some task => do
      let events ← getTaskEvents clock.now files c.taskId 0 false
      raiseIf (events.isEmpty) (journalIntegrityError "Task event journal is empty")
      let replay ← findIdempotentResult clock.now files c.taskId c.idempotencyKey commandSha256
        (some events)
      match replay with
      | some result => return (result, files)
      | none => advance clock files c commandSha256 task events

/-- A call of the service. -/
inductive Command where
  | create (c : CreateCommand)
  | transition (c : TransitionCommand)

namespace Command

def taskId : Command → String
  | create c => c.taskId
  | transition c => c.taskId

def idempotencyKey : Command → Option String
  | create c => c.idempotencyKey
  | transition c => c.idempotencyKey

/-- The text that the fingerprint of the command is the digest of. -/
def fingerprintText [PythonText] : Command → Except Exn (List Char)
  | create c => Task.fingerprintText "create" c.payload
  | transition c => Task.fingerprintText "transition" c.payload

def run [PythonText] [LaxInt] (clock : Clock) (files : Files) :
    Command → Except Exn (PowerTask × Files)
  | create c => createTask clock files c
  | transition c => transitionTask clock files c

end Command

end PowerFramework.Task
