import PowerFramework.Ledger.Events
/-!
# Append commands

A client command as its fields, and as a value that its own validation accepts.  Public
writers validate a command once more before they use it; that changes nothing.
-/

namespace PowerFramework.Ledger

open Lib Lib.Failure Lib.Json

structure CommandFields extends Fingerprinted where
  projectId : String
  idempotencyKey : Option String
  eventId : Option String
  timestamp : Option String

/-- `command.model_dump()`, in key order. -/
def CommandFields.modelDump (c : CommandFields) : Dict := [
  ("actor", .str c.actor),
  ("artifact_refs", strList c.artifactRefs),
  ("causation_id", optValue c.causationId),
  ("correlation_id", optValue c.correlationId),
  ("event_id", optValue c.eventId),
  ("event_type", .str c.eventType.text),
  ("evidence_refs", strList c.evidenceRefs),
  ("idempotency_key", optValue c.idempotencyKey),
  ("payload", .dict c.payload),
  ("project_id", .str c.projectId),
  ("session_id", optValue c.sessionId),
  ("source", .str c.source),
  ("timestamp", optValue c.timestamp)]

def commandFields : List String := [
  "project_id", "event_type", "payload", "actor", "source", "session_id", "artifact_refs",
  "evidence_refs", "correlation_id", "causation_id", "idempotency_key", "event_id", "timestamp"]

variable [LaxInt]

def CommandFields.readFields (d : Dict) : Except Exn CommandFields := do
  let projectId ← strField d "project_id" isProjectId
  let eventType ← eventTypeField d
  let payload ← dictField d "payload"
  let actor ← strField d "actor" (lengthBetween 128)
  let source ← strField d "source" (lengthBetween 64)
  let sessionId ← optStrField d "session_id" (lengthAtMost 128)
  let artifactRefs ← strListField d "artifact_refs"
  let evidenceRefs ← strListField d "evidence_refs"
  let correlationId ← optStrField d "correlation_id" (lengthAtMost 128)
  let causationId ← optStrField d "causation_id" (lengthAtMost 128)
  let idempotencyKey ← optStrField d "idempotency_key" (lengthAtMost 128)
  let eventId ← optStrField d "event_id" isEventId
  let timestamp ← optStrField d "timestamp" isTimestamp
  noExtras d commandFields
  let payload ← sagaPayload eventType projectId correlationId idempotencyKey payload
  return {
    projectId, eventType, payload, actor, source, sessionId, artifactRefs, evidenceRefs
    correlationId, causationId, idempotencyKey, eventId, timestamp }

/-- `AppendCommand.model_validate` -/
def CommandFields.modelValidate : Value → Except Exn CommandFields
  | .dict d => readFields d
  | _ => .error (invalidField "AppendCommand")

/-- What a validated command's fields satisfy; its payload is a dict, listed in key order. -/
structure CommandFields.Valid (c : CommandFields) : Prop where
  projectId : isProjectId c.projectId = true
  actor : lengthBetween 128 c.actor = true
  source : lengthBetween 64 c.source = true
  sessionId : ∀ s, c.sessionId = some s → lengthAtMost 128 s = true
  correlationId : ∀ s, c.correlationId = some s → lengthAtMost 128 s = true
  causationId : ∀ s, c.causationId = some s → lengthAtMost 128 s = true
  idempotencyKey : ∀ s, c.idempotencyKey = some s → lengthAtMost 128 s = true
  eventId : ∀ s, c.eventId = some s → isEventId s = true
  timestamp : ∀ s, c.timestamp = some s → isTimestamp s = true
  saga : sagaPayload c.eventType c.projectId c.correlationId c.idempotencyKey c.payload =
    .ok c.payload
  ordered : (Value.dict c.payload).ordered = true

structure AppendCommand extends CommandFields where
  valid : toCommandFields.Valid

/-- What validation checks of a command's fields. -/
structure CommandFields.Checked (c : CommandFields) : Prop where
  projectId : isProjectId c.projectId = true
  actor : lengthBetween 128 c.actor = true
  source : lengthBetween 64 c.source = true
  sessionId : ∀ s, c.sessionId = some s → lengthAtMost 128 s = true
  correlationId : ∀ s, c.correlationId = some s → lengthAtMost 128 s = true
  causationId : ∀ s, c.causationId = some s → lengthAtMost 128 s = true
  idempotencyKey : ∀ s, c.idempotencyKey = some s → lengthAtMost 128 s = true
  eventId : ∀ s, c.eventId = some s → isEventId s = true
  timestamp : ∀ s, c.timestamp = some s → isTimestamp s = true
  saga : sagaPayload c.eventType c.projectId c.correlationId c.idempotencyKey c.payload =
    .ok c.payload

theorem CommandFields.Valid.checked {c : CommandFields} (h : c.Valid) : c.Checked :=
  ⟨h.projectId, h.actor, h.source, h.sessionId, h.correlationId, h.causationId, h.idempotencyKey,
    h.eventId, h.timestamp, h.saga⟩

omit [LaxInt] in
theorem ordered_lookup {d : Dict} {field : String} {value : Value}
    (hd : (Value.dict d).ordered = true) (h : d.lookup field = some value) :
    value.ordered = true := by
  have hmem := mem_of_lookup h
  simp only [Value.ordered, Value.everywhere, Bool.and_eq_true] at hd
  have hall : ∀ (p : Value → Bool) (items : Dict), everywhereDict p items = true →
      ∀ item ∈ items, item.2.everywhere p = true := by
    intro p items
    induction items with
    | nil => simp
    | cons item items ih =>
        obtain ⟨key, v⟩ := item
        simp only [everywhereDict, Bool.and_eq_true, List.forall_mem_cons]
        exact fun h => ⟨h.1, ih h.2⟩
  exact hall _ d hd.2 (field, value) hmem

/-- What validation returns has passed its checks, with the payload of its dict or one of a saga
model. -/
theorem CommandFields.checked_of_readFields {d : Dict} {c : CommandFields}
    (h : CommandFields.readFields d = .ok c) : c.Checked ∧
      (Plain (.dict c.payload) ∨ d.lookup "payload" = some (.dict c.payload) ∨ c.payload = []) := by
  simp only [CommandFields.readFields, bind_eq_ok, pure, Except.pure, Except.ok.injEq] at h
  obtain ⟨projectId, hproject, eventType, -, payload, hpayload, actor, hactor, source, hsource,
    sessionId, hsession, artifactRefs, -, evidenceRefs, -, correlationId, hcorrelation,
    causationId, hcausation, key, hkey, eventId, heventId, timestamp, htimestamp, -, -, payload',
    hsaga, rfl⟩ := h
  constructor
  · exact {
      projectId := strField_ok hproject
      actor := strField_ok hactor
      source := strField_ok hsource
      sessionId := optStrField_ok hsession
      correlationId := optStrField_ok hcorrelation
      causationId := optStrField_ok hcausation
      idempotencyKey := optStrField_ok hkey
      eventId := optStrField_ok heventId
      timestamp := optStrField_ok htimestamp
      saga := sagaPayload_idem hsaga }
  · rcases sagaPayload_cases hsaga with heq | hplain
    · exact Or.inr (heq ▸ dictField_ok hpayload)
    · exact Or.inl hplain

/-- A command that validation returns is valid. -/
theorem CommandFields.valid_of_readFields {d : Dict} (hd : (Value.dict d).ordered = true)
    {c : CommandFields} (h : CommandFields.readFields d = .ok c) : c.Valid := by
  obtain ⟨hchecked, hpayload⟩ := CommandFields.checked_of_readFields h
  exact { hchecked with
    ordered := by
      rcases hpayload with hplain | hlookup | hnil
      · exact hplain.2
      · exact ordered_lookup hd hlookup
      · rw [hnil]
        rfl }

omit [LaxInt] in
theorem CommandFields.noExtras_modelDump (c : CommandFields) :
    noExtras c.modelDump commandFields = .ok ⟨⟩ := by
  rw [noExtras_ok]
  intro item hitem
  simp only [CommandFields.modelDump, List.mem_cons, List.not_mem_nil, or_false] at hitem
  rcases hitem with rfl | rfl | rfl | rfl | rfl | rfl | rfl | rfl | rfl | rfl | rfl | rfl | rfl <;>
    simp [commandFields]

/-- The dump of a checked command is read back as the command. -/
theorem CommandFields.modelValidate_modelDump {c : CommandFields} (hc : c.Checked) :
    CommandFields.modelValidate (.dict c.modelDump) = .ok c := by
  have hat : ∀ {field value}, (field, value) ∈ c.modelDump →
      c.modelDump.lookup field = some value := by
    intro field value hmem
    apply lookup_of_mem _ hmem
    simp [CommandFields.modelDump]
  rw [CommandFields.modelValidate, CommandFields.readFields,
    strField_of_lookup (s := c.projectId) (hat (by simp [CommandFields.modelDump])) hc.projectId,
    eventTypeField_of_lookup (t := c.eventType) (hat (by simp [CommandFields.modelDump])),
    dictField_of_lookup (v := c.payload) (hat (by simp [CommandFields.modelDump])),
    strField_of_lookup (s := c.actor) (hat (by simp [CommandFields.modelDump])) hc.actor,
    strField_of_lookup (s := c.source) (hat (by simp [CommandFields.modelDump])) hc.source,
    optStrField_of_lookup (o := c.sessionId) (hat (by simp [CommandFields.modelDump])) hc.sessionId,
    strListField_of_lookup (l := c.artifactRefs) (hat (by simp [CommandFields.modelDump])),
    strListField_of_lookup (l := c.evidenceRefs) (hat (by simp [CommandFields.modelDump])),
    optStrField_of_lookup (o := c.correlationId) (hat (by simp [CommandFields.modelDump]))
      hc.correlationId,
    optStrField_of_lookup (o := c.causationId) (hat (by simp [CommandFields.modelDump]))
      hc.causationId,
    optStrField_of_lookup (o := c.idempotencyKey) (hat (by simp [CommandFields.modelDump]))
      hc.idempotencyKey,
    optStrField_of_lookup (o := c.eventId) (hat (by simp [CommandFields.modelDump])) hc.eventId,
    optStrField_of_lookup (o := c.timestamp) (hat (by simp [CommandFields.modelDump])) hc.timestamp,
    c.noExtras_modelDump]
  simp only [bind, Except.bind, hc.saga]
  rfl

/-- What is read from the dump of a command has its fields, and a payload that may be another. -/
theorem CommandFields.eq_of_readFields {c c' : CommandFields}
    (h : CommandFields.readFields c.modelDump = .ok c') : c' = { c with payload := c'.payload } := by
  have hat : ∀ {field value}, (field, value) ∈ c.modelDump →
      c.modelDump.lookup field = some value := by
    intro field value hmem
    apply lookup_of_mem _ hmem
    simp [CommandFields.modelDump]
  simp only [CommandFields.readFields, bind_eq_ok, pure, Except.pure, Except.ok.injEq] at h
  obtain ⟨projectId, hproject, eventType, htype, payload, -, actor, hactor, source, hsource,
    sessionId, hsession, artifactRefs, hartifacts, evidenceRefs, hevidence, correlationId,
    hcorrelation, causationId, hcausation, key, hkey, eventId, heventId, timestamp, htimestamp, -, -,
    payload', -, rfl⟩ := h
  obtain rfl := strField_eq (x := c.projectId) hproject (hat (by simp [CommandFields.modelDump]))
  obtain rfl := eventTypeField_eq (x := c.eventType) htype
    (hat (by simp [CommandFields.modelDump]))
  obtain rfl := strField_eq (x := c.actor) hactor (hat (by simp [CommandFields.modelDump]))
  obtain rfl := strField_eq (x := c.source) hsource (hat (by simp [CommandFields.modelDump]))
  obtain rfl := optStrField_eq (x := c.sessionId) hsession
    (hat (by simp [CommandFields.modelDump]))
  obtain rfl := strListField_eq (x := c.artifactRefs) hartifacts
    (hat (by simp [CommandFields.modelDump]))
  obtain rfl := strListField_eq (x := c.evidenceRefs) hevidence
    (hat (by simp [CommandFields.modelDump]))
  obtain rfl := optStrField_eq (x := c.correlationId) hcorrelation
    (hat (by simp [CommandFields.modelDump]))
  obtain rfl := optStrField_eq (x := c.causationId) hcausation
    (hat (by simp [CommandFields.modelDump]))
  obtain rfl := optStrField_eq (x := c.idempotencyKey) hkey
    (hat (by simp [CommandFields.modelDump]))
  obtain rfl := optStrField_eq (x := c.eventId) heventId (hat (by simp [CommandFields.modelDump]))
  obtain rfl := optStrField_eq (x := c.timestamp) htimestamp
    (hat (by simp [CommandFields.modelDump]))
  rfl

end PowerFramework.Ledger
