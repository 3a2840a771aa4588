import PowerFramework.Lib.Sha256
import PowerFramework.Lib.Text
import PowerFramework.Lib.Utf8
import PowerFramework.Task.Fields
/-!
# Tasks, events and receipts

The models of a task, of a journal event and of a completion receipt, the transitions a task may
make, and the digests that events and receipts carry.
-/

namespace PowerFramework.Task

open Lib Lib.Failure Lib.Json Lib.Text Ledger

/-! ## Values of fields -/

/-- `instance.name` of a string field. -/
def textOf (d : Dict) (name : String) : String :=
  match getItem d name with
  | .str s => s
  | _ => ""

/-- `instance.name` of an integer field. -/
def intOf (d : Dict) (name : String) : Int :=
  match getItem d name with
  | .int n => n
  | _ => 0

/-- `instance.name` of a list of strings. -/
def textsOf (d : Dict) (name : String) : List String :=
  match getItem d name with
  | .list items => items.filterMap strOf
  | _ => []

/-- `instance.name` of a dict. -/
def itemsOf (d : Dict) (name : String) : Dict :=
  match getItem d name with
  | .dict items => items
  | _ => []

/-! ## Tasks -/

def taskStates : List String := [
  "backlog", "ready", "submitted", "working", "input-required", "auth-required", "blocked",
  "completed", "failed", "canceled", "rejected"]

def terminalStates : List String := ["completed", "failed", "canceled", "rejected"]

/-- `TASK_ID_PATTERN.fullmatch(task_id)` -/
def isTaskId (s : String) : Bool := isToken 127 s

/-- `ensure_valid_task_id` -/
def ensureValidTaskId (taskId : String) : Except Exn Unit :=
  raiseIf (!isTaskId taskId)
    (valueError "task_id must be a safe token using letters, digits, '.', '_' or '-'")

/-- `VALID_TRANSITIONS` -/
def validTransitions : String → List String
  | "backlog" => ["ready", "submitted", "working", "canceled"]
  | "ready" =>
      ["backlog", "working", "input-required", "auth-required", "blocked", "canceled", "rejected"]
  | "submitted" =>
      ["backlog", "ready", "working", "input-required", "auth-required", "blocked", "canceled",
        "rejected"]
  | "working" =>
      ["ready", "completed", "failed", "blocked", "input-required", "auth-required", "canceled"]
  | "input-required" => ["working", "ready", "canceled", "failed"]
  | "auth-required" => ["working", "ready", "canceled", "failed", "rejected"]
  | "blocked" => ["ready", "working", "canceled", "failed"]
  | _ => []

/-- The values of a `PowerTask`, by field. -/
abbrev PowerTask := Dict

section
variable [LaxInt]

/-- The fields of a `PowerTask`; `now` is the default of its timestamps. -/
def taskFields (now : String) : List Field := [
  .strList "artifact_refs" (some []),
  .optStr "assignee" (lengthAtMost 64),
  .int "attempt" (some 0) (0 ≤ ·),
  .str "authority" (some "read-only") (["read-only", "propose", "apply"].contains ·),
  .str "completion_policy" (some "standard") (lengthAtMost 64),
  .str "created_at" (some now) (fun _ => true),
  .optStr "dead_letter_reason" (fun _ => true),
  .strList "dependencies" (some []),
  .optStr "due_at" (fun _ => true),
  .optStr "error_ref" (fun _ => true),
  .str "execution_state" (some "none")
    (["none", "queued", "leased", "running", "retry-wait", "waiting-network",
      "dead-letter"].contains ·),
  .strDict "external_refs" (some []) (fun _ => true) (fun _ => true),
  .optStr "heartbeat_at" (fun _ => true),
  .str "kind" (some "human") (["human", "agent", "maintenance", "fleet", "federated"].contains ·),
  .optStr "lease_expires_at" (fun _ => true),
  .optStr "lease_owner" (fun _ => true),
  .int "max_attempts" (some 3) (fun n => 1 ≤ n && n ≤ 10),
  .str "next_action" (some "inspect") (lengthAtMost 512),
  .str "objective" (some "") (lengthAtMost 4096),
  .strList "open_gates" (some []),
  .str "owner" (some "local") (lengthAtMost 64),
  .str "priority" (some "normal") (["low", "normal", "high", "critical"].contains ·),
  .strList "receipt_ids" (some []),
  .optDict "required_input",
  .optStr "retry_at" (fun _ => true),
  .int "revision" (some 1) (1 ≤ ·),
  .strList "scope" (some []),
  .str "source_revision" (some "") (lengthAtMost 128),
  .str "state" (some "backlog") (taskStates.contains ·),
  .str "task_id" none (fun s => lengthBetween 128 s && isTaskId s),
  .str "tenant_id" (some "local") (lengthAtMost 64),
  .str "title" none (lengthBetween 256),
  .str "updated_at" (some now) (fun _ => true),
  .str "vault_id" (some "default") (lengthAtMost 64)]

end

namespace PowerTask

def taskId (task : PowerTask) : String := textOf task "task_id"

def state (task : PowerTask) : String := textOf task "state"

def revision (task : PowerTask) : Int := intOf task "revision"

def receiptIds (task : PowerTask) : List String := textsOf task "receipt_ids"

/-- `task.external_refs.get(key)` -/
def externalRef (task : PowerTask) (key : String) : Option String :=
  strOf (getItem (itemsOf task "external_refs") key)

def isTerminal (task : PowerTask) : Bool := terminalStates.contains task.state

def canTransitionTo (task : PowerTask) (newState : String) : Bool :=
  task.state == newState || (validTransitions task.state).contains newState

/-- `validate_transition` -/
def validateTransition (task : PowerTask) (newState : String) (receiptId : Option String) :
    Except Exn Unit := do
  raiseIf (task.isTerminal && newState != task.state)
    (valueError ("Cannot transition terminal task " ++ task.taskId ++ " from " ++ task.state ++
      " to " ++ newState))
  raiseIf (!task.canTransitionTo newState)
    (valueError ("Illegal state transition for task " ++ task.taskId ++ ": " ++ task.state ++
      " -> " ++ newState))
  raiseIf (newState == "completed" && receiptId.getD "" == "" && task.receiptIds.isEmpty)
    (valueError "Transition to completed requires a terminal receipt ID")

end PowerTask

/-! ## Events -/

/-- `canonical_payload_digest` -/
def canonicalPayloadDigest (payload : Dict) : Except Exn String :=
  ((Layout.spaced true).write 0 (.dict payload)).map fun text =>
    Sha256.hexdigest (Utf8.encode text)

/-- The values of a `TaskEvent`, by field. -/
abbrev TaskEvent := Dict

section
variable [LaxInt]

/-- The fields of a `TaskEvent`; `now` is the default of its timestamp. -/
def eventFields (now : String) : List Field := [
  .str "actor" none (fun _ => true),
  .str "created_at" (some now) (fun _ => true),
  .str "event_id" none (fun _ => true),
  .str "event_type" none (fun _ => true),
  .dict "payload" (some []),
  .str "payload_digest" none (fun _ => true),
  .str "prev_event_digest" (some "") (fun _ => true),
  .int "sequence" none (1 ≤ ·),
  .str "task_id" none isTaskId]

/-- `TaskEvent.create` at the time `now`, `stamp` milliseconds of the epoch. -/
def TaskEvent.create (now : String) (stamp : Int) (taskId : String) (sequence : Int)
    (actor eventType : String) (payload : Dict) (prevEventDigest : String) :
    Except Exn TaskEvent := do
  let eventId := "evt_" ++ taskId ++ "_" ++ toString sequence ++ "_" ++ toString stamp
  let payloadDigest ← canonicalPayloadDigest payload
  validate (eventFields now) (.dict [
    ("actor", .str actor),
    ("event_id", .str eventId),
    ("event_type", .str eventType),
    ("payload", .dict payload),
    ("payload_digest", .str payloadDigest),
    ("prev_event_digest", .str prevEventDigest),
    ("sequence", .int sequence),
    ("task_id", .str taskId)])

end

namespace TaskEvent

def taskId (event : TaskEvent) : String := textOf event "task_id"

def sequence (event : TaskEvent) : Int := intOf event "sequence"

def eventType (event : TaskEvent) : String := textOf event "event_type"

def payload (event : TaskEvent) : Dict := itemsOf event "payload"

def payloadDigest (event : TaskEvent) : String := textOf event "payload_digest"

def prevEventDigest (event : TaskEvent) : String := textOf event "prev_event_digest"

end TaskEvent

/-! ## Receipts -/

/-- `TASK_COMPLETION_RECEIPT_PATTERN.fullmatch(receipt_id)` -/
def isReceiptId (s : String) : Bool := isDigestToken "tcr_" s

/-- The values of a `TaskCompletionReceipt`, by field. -/
abbrev TaskCompletionReceipt := Dict

section
variable [LaxInt]

/-- The fields of a `TaskCompletionReceipt`; `now` is the default of its timestamp. -/
def receiptFields (now : String) : List Field := [
  .str "actor" none (lengthBetween 200),
  .strDict "artifact_digests" none (isDigestToken "") (fun n => 1 ≤ n && n ≤ 64),
  .str "completion_policy" none (lengthBetween 64),
  .str "created_at" (some now) (fun _ => true),
  .str "postcondition_sha256" none (isDigestToken ""),
  .str "receipt_id" none isReceiptId,
  .str "receipt_schema" (some "power.task-completion.v1") (· == "power.task-completion.v1"),
  .str "status" (some "verified") (· == "verified"),
  .str "task_id" none isTaskId,
  .int "task_revision" none (1 ≤ ·)]

end

namespace TaskCompletionReceipt

def receiptId (receipt : TaskCompletionReceipt) : String := textOf receipt "receipt_id"

def taskId (receipt : TaskCompletionReceipt) : String := textOf receipt "task_id"

def taskRevision (receipt : TaskCompletionReceipt) : Int := intOf receipt "task_revision"

/-- The content that a receipt id is derived from. -/
structure Content where
  taskId : String
  taskRevision : Int
  completionPolicy : String
  postconditionSha256 : String
  artifactDigests : Dict
  actor : String

def content (receipt : TaskCompletionReceipt) : Content where
  taskId := receipt.taskId
  taskRevision := receipt.taskRevision
  completionPolicy := textOf receipt "completion_policy"
  postconditionSha256 := textOf receipt "postcondition_sha256"
  artifactDigests := itemsOf receipt "artifact_digests"
  actor := textOf receipt "actor"

def Content.payload (content : Content) : Dict := [
  ("actor", .str content.actor),
  ("artifact_digests", .dict content.artifactDigests),
  ("completion_policy", .str content.completionPolicy),
  ("postcondition_sha256", .str content.postconditionSha256),
  ("task_id", .str content.taskId),
  ("task_revision", .int content.taskRevision)]

/-- `derive_receipt_id` -/
def deriveReceiptId (content : Content) : Except Exn String :=
  ((Layout.spaced true).write 0 (.dict content.payload)).map fun text =>
    "tcr_" ++ Sha256.hexdigest (Utf8.encode text)

end TaskCompletionReceipt

/-! ## Well-formed models -/

/-- The default passes the field's own check. -/
def Field.DefaultRead (field : Field) : Prop :=
  ∀ value, field.default = some value → field.read value = some value

theorem defaultRead_str {name : String} {default : Option String} {ok : String → Bool}
    (h : ∀ s, default = some s → ok s = true) : (Field.str name default ok).DefaultRead := by
  intro value hvalue
  obtain ⟨s, hs, rfl⟩ := Option.map_eq_some_iff.mp hvalue
  exact if_pos (h s hs)

theorem defaultRead_optStr (name : String) (ok : String → Bool) :
    (Field.optStr name ok).DefaultRead := by
  rintro value ⟨⟩
  rfl

theorem defaultRead_int [LaxInt] {name : String} {default : Option Int} {ok : Int → Bool}
    (h : ∀ n, default = some n → ok n = true) : (Field.int name default ok).DefaultRead := by
  intro value hvalue
  obtain ⟨n, hn, rfl⟩ := Option.map_eq_some_iff.mp hvalue
  exact readInt_int (h n hn)

theorem defaultRead_strList (name : String) (default : Option (List String)) :
    (Field.strList name default).DefaultRead := by
  intro value hvalue
  obtain ⟨texts, -, rfl⟩ := Option.map_eq_some_iff.mp hvalue
  exact readStrList_strList texts

theorem defaultRead_none {field : Field} (h : field.default = none) : field.DefaultRead := by
  intro value hvalue
  rw [h] at hvalue
  cases hvalue

theorem defaultRead_emptyDict (name : String) : (Field.dict name (some [])).DefaultRead := by
  rintro value ⟨⟩
  rfl

theorem defaultRead_emptyStrDict (name : String) (ok : String → Bool) :
    (Field.strDict name (some []) ok fun _ => true).DefaultRead := by
  rintro value ⟨⟩
  rfl

theorem defaultRead_optDict (name : String) : (Field.optDict name).DefaultRead := by
  rintro value ⟨⟩
  rfl

section
variable [LaxInt] (now : String)

theorem sorted_taskFields : sortedNames ((taskFields now).map Field.name) = true := by
  change sortedNames ["artifact_refs", "assignee", "attempt", "authority", "completion_policy",
    "created_at", "dead_letter_reason", "dependencies", "due_at", "error_ref", "execution_state",
    "external_refs", "heartbeat_at", "kind", "lease_expires_at", "lease_owner", "max_attempts",
    "next_action", "objective", "open_gates", "owner", "priority", "receipt_ids",
    "required_input", "retry_at", "revision", "scope", "source_revision", "state", "task_id",
    "tenant_id", "title", "updated_at", "vault_id"] = true
  decide

theorem sorted_eventFields : sortedNames ((eventFields now).map Field.name) = true := by
  change sortedNames ["actor", "created_at", "event_id", "event_type", "payload",
    "payload_digest", "prev_event_digest", "sequence", "task_id"] = true
  decide

theorem sorted_receiptFields : sortedNames ((receiptFields now).map Field.name) = true := by
  change sortedNames ["actor", "artifact_digests", "completion_policy", "created_at",
    "postcondition_sha256", "receipt_id", "receipt_schema", "status", "task_id",
    "task_revision"] = true
  decide

theorem defaults_taskFields : ∀ field ∈ taskFields now, field.DefaultRead := by
  simp only [taskFields, List.forall_mem_cons, List.not_mem_nil, false_implies, implies_true,
    and_true]
  repeat' apply And.intro
  all_goals first
    | exact defaultRead_strList _ _
    | exact defaultRead_optStr _ _
    | exact defaultRead_optDict _
    | exact defaultRead_emptyStrDict _ _
    | exact defaultRead_none rfl
    | exact defaultRead_int (by rintro n ⟨⟩; decide)
    | exact defaultRead_str (by rintro s ⟨⟩; decide)

theorem defaults_eventFields : ∀ field ∈ eventFields now, field.DefaultRead := by
  simp only [eventFields, List.forall_mem_cons, List.not_mem_nil, false_implies, implies_true,
    and_true]
  repeat' apply And.intro
  all_goals first
    | exact defaultRead_none rfl
    | exact defaultRead_emptyDict _
    | exact defaultRead_str (by rintro s ⟨⟩; decide)

theorem defaults_receiptFields : ∀ field ∈ receiptFields now, field.DefaultRead := by
  simp only [receiptFields, List.forall_mem_cons, List.not_mem_nil, false_implies, implies_true,
    and_true]
  repeat' apply And.intro
  all_goals first
    | exact defaultRead_none rfl
    | exact defaultRead_str (by rintro s ⟨⟩; decide)

/-- Only the structured input of a task can have another JSON form. -/
theorem stable_taskFields :
    ∀ field ∈ taskFields now, field.Stable ∨ field = .optDict "required_input" := by
  simp only [taskFields, List.forall_mem_cons, List.not_mem_nil, false_implies, implies_true,
    and_true]
  repeat' apply And.intro
  all_goals first
    | exact Or.inr trivial
    | exact Or.inl (stable_str _ _ _)
    | exact Or.inl (stable_optStr _ _)
    | exact Or.inl (stable_int _ _ _)
    | exact Or.inl (stable_strList _ _)
    | exact Or.inl (stable_strDict _ _ _ _)

/-- Only the payload of an event can have another JSON form. -/
theorem stable_eventFields :
    ∀ field ∈ eventFields now, field.Stable ∨ field = .dict "payload" (some []) := by
  simp only [eventFields, List.forall_mem_cons, List.not_mem_nil, false_implies, implies_true,
    and_true]
  repeat' apply And.intro
  all_goals first
    | exact Or.inr trivial
    | exact Or.inl (stable_str _ _ _)
    | exact Or.inl (stable_int _ _ _)

theorem stable_receiptFields : ∀ field ∈ receiptFields now, field.Stable := by
  simp only [receiptFields, List.forall_mem_cons, List.not_mem_nil, false_implies, implies_true,
    and_true]
  repeat' apply And.intro
  all_goals first
    | exact stable_str _ _ _
    | exact stable_int _ _ _
    | exact stable_strDict _ _ _ _

end

/-! ## Read back -/

section
variable [LaxInt] {now : String}

theorem task_instance {value : Value} {task : PowerTask}
    (h : validate (taskFields now) value = .ok task) : Instance (taskFields now) task :=
  instance_of_validate h (nodup_of_sorted (sorted_taskFields now)) (defaults_taskFields now)

theorem event_instance {value : Value} {event : TaskEvent}
    (h : validate (eventFields now) value = .ok event) : Instance (eventFields now) event :=
  instance_of_validate h (nodup_of_sorted (sorted_eventFields now)) (defaults_eventFields now)

theorem receipt_instance {value : Value} {receipt : TaskCompletionReceipt}
    (h : validate (receiptFields now) value = .ok receipt) : Instance (receiptFields now) receipt :=
  instance_of_validate h (nodup_of_sorted (sorted_receiptFields now)) (defaults_receiptFields now)

omit [LaxInt] in
/-- A field of text holds the text that it was given. -/
theorem textOf_of_validate {fields : List Field} {d values : Dict}
    (h : validate fields (.dict d) = .ok values) (hnodup : (fields.map Field.name).Nodup)
    {name s : String} (default : Option String) (ok : String → Bool)
    (hfield : Field.str name default ok ∈ fields) (hgiven : d.lookup name = some (.str s)) :
    textOf values name = s := by
  have hread := read_of_validate h hnodup hfield hgiven
  change readStr ok (.str s) = some (getItem values name) at hread
  obtain ⟨s', hs, -, hvalue⟩ := readStr_ok hread
  cases hs
  rw [textOf, hvalue]

theorem intOf_of_validate {fields : List Field} {d values : Dict}
    (h : validate fields (.dict d) = .ok values) (hnodup : (fields.map Field.name).Nodup)
    {name : String} {n : Int} (default : Option Int) (ok : Int → Bool)
    (hfield : Field.int name default ok ∈ fields) (hgiven : d.lookup name = some (.int n)) :
    intOf values name = n := by
  have hread := read_of_validate h hnodup hfield hgiven
  change readInt ok (.int n) = some (getItem values name) at hread
  rw [readInt, LaxInt.ofValue_int, Option.bind_some] at hread
  split_ifs at hread
  rw [intOf, ← Option.some.inj hread]

/-- A task is read back from its JSON form when its structured input has no other form. -/
theorem task_readBack {task : PowerTask} (h : Instance (taskFields now) task) :
    validate (taskFields now) (Value.dict task).asJson = .ok task ↔
      (getItem task "required_input").asJson = getItem task "required_input" := by
  have hfield : Field.optDict "required_input" ∈ taskFields now := by simp [taskFields]
  rw [h.validate_asJson_at (sorted_taskFields now) hfield (faithful_optDict _)
    (stable_taskFields now)]
  obtain ⟨value, hvalue⟩ := h.exists_lookup hfield
  change task.lookup "required_input" = some value at hvalue
  change (∀ value', task.lookup "required_input" = some value' → value'.asJson = value') ↔ _
  rw [getItem, hvalue, Option.getD_some]
  constructor
  · exact fun hall => hall value rfl
  · rintro hjson value' ⟨⟩
    exact hjson

/-- An event is read back from its JSON form when its payload has no other form. -/
theorem event_readBack {event : TaskEvent} (h : Instance (eventFields now) event) :
    validate (eventFields now) (Value.dict event).asJson = .ok event ↔
      (Value.dict event.payload).asJson = .dict event.payload := by
  have hfield : Field.dict "payload" (some []) ∈ eventFields now := by simp [eventFields]
  rw [h.validate_asJson_at (sorted_eventFields now) hfield (faithful_dict _ _)
    (stable_eventFields now)]
  obtain ⟨value, hvalue⟩ := h.exists_lookup hfield
  obtain ⟨items, rfl, -⟩ := readDict_ok (h.2 _ hfield value hvalue)
  change event.lookup "payload" = some (.dict items) at hvalue
  change (∀ value', event.lookup "payload" = some value' → value'.asJson = value') ↔ _
  have hpayload : event.payload = items := by
    rw [TaskEvent.payload, itemsOf, getItem, hvalue]
    rfl
  rw [hpayload, hvalue]
  constructor
  · exact fun hall => hall _ rfl
  · rintro hjson value' ⟨⟩
    exact hjson

theorem receipt_readBack {receipt : TaskCompletionReceipt}
    (h : Instance (receiptFields now) receipt) :
    validate (receiptFields now) (Value.dict receipt).asJson = .ok receipt := by
  rw [h.validate_asJson (sorted_receiptFields now)
    fun field hfield => (stable_receiptFields now field hfield).faithful]
  intro field hfield value hvalue
  exact stable_receiptFields now field hfield value value (h.2 field hfield value hvalue)

/-- What an event that was created holds. -/
structure TaskEvent.CreatedAs (taskId : String) (sequence : Int) (eventType : String)
    (payload : Dict) (prevEventDigest : String) (event : TaskEvent) : Prop where
  taskId : TaskEvent.taskId event = taskId
  sequence : TaskEvent.sequence event = sequence
  eventType : TaskEvent.eventType event = eventType
  items : TaskEvent.payload event = dictFrom payload
  previous : TaskEvent.prevEventDigest event = prevEventDigest
  digest : canonicalPayloadDigest payload = .ok (TaskEvent.payloadDigest event)

theorem TaskEvent.create_ok {stamp : Int} {taskId : String} {sequence : Int}
    {actor eventType : String} {payload : Dict} {prevEventDigest : String} {event : TaskEvent}
    (h : TaskEvent.create now stamp taskId sequence actor eventType payload prevEventDigest =
      .ok event) :
    Instance (eventFields now) event ∧
      TaskEvent.CreatedAs taskId sequence eventType payload prevEventDigest event := by
  obtain ⟨digest, hdigest, h⟩ := bind_eq_ok.mp h
  have hnodup := nodup_of_sorted (sorted_eventFields now)
  have hpayload := read_of_validate h hnodup
    (by simp [eventFields] : Field.dict "payload" (some []) ∈ eventFields now)
    (by rfl : _ = some (Value.dict payload))
  change readDict (.dict payload) = some (getItem event "payload") at hpayload
  refine ⟨event_instance h,
    { taskId := textOf_of_validate h hnodup none isTaskId (by simp [eventFields]) rfl
      sequence := intOf_of_validate h hnodup none (1 ≤ ·) (by simp [eventFields]) rfl
      eventType := textOf_of_validate h hnodup none (fun _ => true) (by simp [eventFields]) rfl
      items := ?_
      previous :=
        textOf_of_validate h hnodup (some "") (fun _ => true) (by simp [eventFields]) rfl
      digest := ?_ }⟩
  · rw [TaskEvent.payload, itemsOf, ← Option.some.inj hpayload]
  · rw [hdigest]
    exact congrArg _
      (textOf_of_validate h hnodup none (fun _ => true) (by simp [eventFields]) rfl).symm

end

end PowerFramework.Task
