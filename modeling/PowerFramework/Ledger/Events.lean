import PowerFramework.Lib.JsonLine
import PowerFramework.Lib.Sha256
import PowerFramework.Lib.Utf8
import PowerFramework.Ledger.Saga
/-!
# Events and commands

The ledger event and the client command as their validated fields, the canonical JSON they
are hashed over, and the digests of a payload, an event and a command.  Validating the dump
of a valid event or command gives it back.
-/

namespace PowerFramework.Ledger

open Lib Lib.Failure Lib.Json

/-! ## Canonical JSON -/

/-- `_check_floats`: no NaN and no infinity among the values. -/
def finiteFloats : Value → Bool := Value.everywhere fun
  | .float x => x.isFinite
  | _ => true

def canonicalJsonDumps (data : Value) : Except Exn (List Char) := do
  raiseIf (finiteFloats data = false)
    (valueError "NaN and Infinity values are strictly forbidden in canonical JSON")
  dumps data

def canonicalJsonBytes (data : Value) : Except Exn (List UInt8) :=
  (canonicalJsonDumps data).map Utf8.encode

def sha256Canonical (data : Value) : Except Exn String :=
  (canonicalJsonBytes data).map Sha256.hexdigest

def computePayloadDigest (payload : Dict) : Except Exn String := sha256Canonical (.dict payload)

/-- The digest of every field but `event_hash`. -/
def computeEventHash (event : Dict) : Except Exn String :=
  sha256Canonical (.dict (event.filter (·.1 ≠ "event_hash")))

/-- The fields `compute_command_fingerprint` reads, of a command or of an event. -/
structure Fingerprinted where
  actor : String
  eventType : EventType
  payload : Dict
  artifactRefs : List String
  evidenceRefs : List String
  source : String
  sessionId : Option String
  correlationId : Option String
  causationId : Option String

def computeCommandFingerprint (c : Fingerprinted) : Except Exn String :=
  sha256Canonical (.dict [
    ("actor", .str c.actor),
    ("artifact_refs", strList (c.artifactRefs.mergeSort (· ≤ ·))),
    ("causation_id", .str (c.causationId.getD "")),
    ("correlation_id", .str (c.correlationId.getD "")),
    ("event_type", .str c.eventType.text),
    ("evidence_refs", strList (c.evidenceRefs.mergeSort (· ≤ ·))),
    ("payload", .dict c.payload),
    ("session_id", .str (c.sessionId.getD "")),
    ("source", .str c.source)])

/-- `generate_deterministic_event_id` -/
def generateDeterministicEventId (projectId idempotencyKey : String) : String :=
  let digest := Sha256.hexdigest (Utf8.encode (projectId ++ ":" ++ idempotencyKey).toList)
  "evt_" ++ String.ofList (digest.toList.take 24)

/-! ## Events -/

def schemaVersion : String := "power.project-event.v1"

structure ProjectEvent extends Fingerprinted where
  eventId : String
  projectId : String
  sequence : Nat
  timestamp : String
  payloadDigest : String
  prevEventHash : String
  eventHash : String
  idempotencyKey : Option String

/-- `event.model_dump()`, in key order. -/
def ProjectEvent.modelDump (e : ProjectEvent) : Dict := [
  ("actor", .str e.actor),
  ("artifact_refs", strList e.artifactRefs),
  ("causation_id", optValue e.causationId),
  ("correlation_id", optValue e.correlationId),
  ("event_hash", .str e.eventHash),
  ("event_id", .str e.eventId),
  ("event_type", .str e.eventType.text),
  ("evidence_refs", strList e.evidenceRefs),
  ("idempotency_key", optValue e.idempotencyKey),
  ("payload", .dict e.payload),
  ("payload_digest", .str e.payloadDigest),
  ("prev_event_hash", .str e.prevEventHash),
  ("project_id", .str e.projectId),
  ("schema_version", .str schemaVersion),
  ("sequence", .int e.sequence),
  ("session_id", optValue e.sessionId),
  ("source", .str e.source),
  ("timestamp", .str e.timestamp)]

def eventFields : List String := [
  "event_id", "schema_version", "project_id", "sequence", "timestamp", "actor", "source",
  "session_id", "event_type", "payload", "payload_digest", "prev_event_hash", "event_hash",
  "artifact_refs", "evidence_refs", "correlation_id", "causation_id", "idempotency_key"]

def eventTypeField (d : Dict) : Except Exn EventType := do
  let text ← strField d "event_type" fun s => (EventType.ofText? s).isSome
  match EventType.ofText? text with
  | some t => return t
  | none => .error (invalidField "event_type")

variable [LaxInt]

def ProjectEvent.readFields (d : Dict) : Except Exn ProjectEvent := do
  let eventId ← strField d "event_id" isEventId
  let _ ← strFieldD d "schema_version" schemaVersion (· == schemaVersion)
  let projectId ← strField d "project_id" isProjectId
  let sequence ← positiveField d "sequence" none
  let timestamp ← strField d "timestamp" isTimestamp
  let actor ← strField d "actor" (lengthBetween 128)
  let source ← strField d "source" (lengthBetween 64)
  let sessionId ← optStrField d "session_id" (lengthAtMost 128)
  let eventType ← eventTypeField d
  let payload ← dictField d "payload"
  let payloadDigest ← strField d "payload_digest" isHash
  let prevEventHash ← strFieldD d "prev_event_hash" "" isPrevHash
  let eventHash ← strField d "event_hash" isHash
  let artifactRefs ← strListField d "artifact_refs"
  let evidenceRefs ← strListField d "evidence_refs"
  let correlationId ← optStrField d "correlation_id" (lengthAtMost 128)
  let causationId ← optStrField d "causation_id" (lengthAtMost 128)
  let idempotencyKey ← optStrField d "idempotency_key" (lengthAtMost 128)
  noExtras d eventFields
  let payload ← sagaPayload eventType projectId correlationId idempotencyKey payload
  return {
    eventId, projectId, sequence, timestamp, actor, source, sessionId, eventType, payload
    payloadDigest, prevEventHash, eventHash, artifactRefs, evidenceRefs, correlationId
    causationId, idempotencyKey }

/-- `ProjectEvent.model_validate` -/
def ProjectEvent.modelValidate : Value → Except Exn ProjectEvent
  | .dict d => readFields d
  | _ => .error (invalidField "ProjectEvent")

/-- What a validated event's fields satisfy. -/
structure ProjectEvent.Valid (e : ProjectEvent) : Prop where
  eventId : isEventId e.eventId = true
  projectId : isProjectId e.projectId = true
  sequence : 1 ≤ e.sequence
  timestamp : isTimestamp e.timestamp = true
  actor : lengthBetween 128 e.actor = true
  source : lengthBetween 64 e.source = true
  sessionId : ∀ s, e.sessionId = some s → lengthAtMost 128 s = true
  payloadDigest : isHash e.payloadDigest = true
  prevEventHash : isPrevHash e.prevEventHash = true
  eventHash : isHash e.eventHash = true
  correlationId : ∀ s, e.correlationId = some s → lengthAtMost 128 s = true
  causationId : ∀ s, e.causationId = some s → lengthAtMost 128 s = true
  idempotencyKey : ∀ s, e.idempotencyKey = some s → lengthAtMost 128 s = true
  saga : sagaPayload e.eventType e.projectId e.correlationId e.idempotencyKey e.payload =
    .ok e.payload

theorem ProjectEvent.valid_of_readFields {d : Dict} {e : ProjectEvent}
    (h : ProjectEvent.readFields d = .ok e) : e.Valid := by
  simp only [ProjectEvent.readFields, bind_eq_ok, pure, Except.pure, Except.ok.injEq] at h
  obtain ⟨eventId, heventId, -, -, projectId, hproject, sequence, hsequence, timestamp,
    htimestamp, actor, hactor, source, hsource, sessionId, hsession, eventType, -, payload, -,
    payloadDigest, hdigest, prevEventHash, hprev, eventHash, hhash, artifactRefs, -,
    evidenceRefs, -, correlationId, hcorrelation, causationId, hcausation, key, hkey, -, -,
    payload', hsaga, rfl⟩ := h
  exact {
    eventId := strField_ok heventId
    projectId := strField_ok hproject
    sequence := positiveField_ok (by simp) hsequence
    timestamp := strField_ok htimestamp
    actor := strField_ok hactor
    source := strField_ok hsource
    sessionId := optStrField_ok hsession
    payloadDigest := strField_ok hdigest
    prevEventHash := strFieldD_ok rfl hprev
    eventHash := strField_ok hhash
    correlationId := optStrField_ok hcorrelation
    causationId := optStrField_ok hcausation
    idempotencyKey := optStrField_ok hkey
    saga := sagaPayload_idem hsaga }

omit [LaxInt] in
theorem eventTypeField_of_lookup {d : Dict} {t : EventType}
    (h : d.lookup "event_type" = some (.str t.text)) : eventTypeField d = .ok t := by
  rw [eventTypeField, strField_of_lookup h (by rw [EventType.ofText?_text]; rfl)]
  simp only [bind, Except.bind, EventType.ofText?_text]
  rfl

omit [LaxInt] in
theorem ProjectEvent.noExtras_modelDump (e : ProjectEvent) :
    noExtras e.modelDump eventFields = .ok ⟨⟩ := by
  rw [noExtras_ok]
  intro item hitem
  simp only [ProjectEvent.modelDump, List.mem_cons, List.not_mem_nil, or_false] at hitem
  rcases hitem with rfl | rfl | rfl | rfl | rfl | rfl | rfl | rfl | rfl | rfl | rfl | rfl | rfl |
    rfl | rfl | rfl | rfl | rfl <;> simp [eventFields]

/-- The dump of a valid event is read back as the event. -/
theorem ProjectEvent.readFields_modelDump {e : ProjectEvent} (he : e.Valid) :
    ProjectEvent.readFields e.modelDump = .ok e := by
  have hat : ∀ {field value}, (field, value) ∈ e.modelDump →
      e.modelDump.lookup field = some value := by
    intro field value hmem
    apply lookup_of_mem _ hmem
    simp [ProjectEvent.modelDump]
  rw [ProjectEvent.readFields,
    strField_of_lookup (s := e.eventId) (hat (by simp [ProjectEvent.modelDump])) he.eventId,
    strFieldD_of_lookup (s := schemaVersion) (hat (by simp [ProjectEvent.modelDump])) (by simp),
    strField_of_lookup (s := e.projectId) (hat (by simp [ProjectEvent.modelDump])) he.projectId,
    positiveField_of_lookup (n := e.sequence) (hat (by simp [ProjectEvent.modelDump])) he.sequence,
    strField_of_lookup (s := e.timestamp) (hat (by simp [ProjectEvent.modelDump])) he.timestamp,
    strField_of_lookup (s := e.actor) (hat (by simp [ProjectEvent.modelDump])) he.actor,
    strField_of_lookup (s := e.source) (hat (by simp [ProjectEvent.modelDump])) he.source,
    optStrField_of_lookup (o := e.sessionId) (hat (by simp [ProjectEvent.modelDump])) he.sessionId,
    eventTypeField_of_lookup (t := e.eventType) (hat (by simp [ProjectEvent.modelDump])),
    dictField_of_lookup (v := e.payload) (hat (by simp [ProjectEvent.modelDump])),
    strField_of_lookup (s := e.payloadDigest) (hat (by simp [ProjectEvent.modelDump]))
      he.payloadDigest,
    strFieldD_of_lookup (s := e.prevEventHash) (hat (by simp [ProjectEvent.modelDump]))
      he.prevEventHash,
    strField_of_lookup (s := e.eventHash) (hat (by simp [ProjectEvent.modelDump])) he.eventHash,
    strListField_of_lookup (l := e.artifactRefs) (hat (by simp [ProjectEvent.modelDump])),
    strListField_of_lookup (l := e.evidenceRefs) (hat (by simp [ProjectEvent.modelDump])),
    optStrField_of_lookup (o := e.correlationId) (hat (by simp [ProjectEvent.modelDump]))
      he.correlationId,
    optStrField_of_lookup (o := e.causationId) (hat (by simp [ProjectEvent.modelDump]))
      he.causationId,
    optStrField_of_lookup (o := e.idempotencyKey) (hat (by simp [ProjectEvent.modelDump]))
      he.idempotencyKey,
    e.noExtras_modelDump]
  simp only [bind, Except.bind, he.saga]
  rfl

omit [LaxInt] in
theorem eventTypeField_eq {d : Dict} {t x : EventType} (h : eventTypeField d = .ok t)
    (hx : d.lookup "event_type" = some (.str x.text)) : t = x := by
  rw [eventTypeField_of_lookup hx] at h
  cases h
  rfl

/-- Whatever is read from the dump of an event with a normal payload is the event. -/
theorem ProjectEvent.eq_of_readFields {e e' : ProjectEvent}
    (h : ProjectEvent.readFields e.modelDump = .ok e')
    (hsaga : sagaPayload e.eventType e.projectId e.correlationId e.idempotencyKey e.payload =
      .ok e.payload) : e' = e := by
  have hat : ∀ {field value}, (field, value) ∈ e.modelDump →
      e.modelDump.lookup field = some value := by
    intro field value hmem
    apply lookup_of_mem _ hmem
    simp [ProjectEvent.modelDump]
  simp only [ProjectEvent.readFields, bind_eq_ok, pure, Except.pure, Except.ok.injEq] at h
  obtain ⟨eventId, heventId, -, -, projectId, hproject, sequence, hsequence, timestamp,
    htimestamp, actor, hactor, source, hsource, sessionId, hsession, eventType, htype, payload,
    hpayload, payloadDigest, hdigest, prevEventHash, hprev, eventHash, hhash, artifactRefs,
    hartifacts, evidenceRefs, hevidence, correlationId, hcorrelation, causationId, hcausation, key,
    hkey, -, -, payload', hsaga', rfl⟩ := h
  obtain rfl := strField_eq (x := e.eventId) heventId (hat (by simp [ProjectEvent.modelDump]))
  obtain rfl := strField_eq (x := e.projectId) hproject (hat (by simp [ProjectEvent.modelDump]))
  obtain rfl := positiveField_eq (x := e.sequence) hsequence
    (hat (by simp [ProjectEvent.modelDump]))
  obtain rfl := strField_eq (x := e.timestamp) htimestamp (hat (by simp [ProjectEvent.modelDump]))
  obtain rfl := strField_eq (x := e.actor) hactor (hat (by simp [ProjectEvent.modelDump]))
  obtain rfl := strField_eq (x := e.source) hsource (hat (by simp [ProjectEvent.modelDump]))
  obtain rfl := optStrField_eq (x := e.sessionId) hsession (hat (by simp [ProjectEvent.modelDump]))
  obtain rfl := eventTypeField_eq (x := e.eventType) htype (hat (by simp [ProjectEvent.modelDump]))
  obtain rfl := dictField_eq (x := e.payload) hpayload (hat (by simp [ProjectEvent.modelDump]))
  obtain rfl := strField_eq (x := e.payloadDigest) hdigest
    (hat (by simp [ProjectEvent.modelDump]))
  obtain rfl := strFieldD_eq (x := e.prevEventHash) hprev
    (hat (by simp [ProjectEvent.modelDump]))
  obtain rfl := strField_eq (x := e.eventHash) hhash (hat (by simp [ProjectEvent.modelDump]))
  obtain rfl := strListField_eq (x := e.artifactRefs) hartifacts
    (hat (by simp [ProjectEvent.modelDump]))
  obtain rfl := strListField_eq (x := e.evidenceRefs) hevidence
    (hat (by simp [ProjectEvent.modelDump]))
  obtain rfl := optStrField_eq (x := e.correlationId) hcorrelation
    (hat (by simp [ProjectEvent.modelDump]))
  obtain rfl := optStrField_eq (x := e.causationId) hcausation
    (hat (by simp [ProjectEvent.modelDump]))
  obtain rfl := optStrField_eq (x := e.idempotencyKey) hkey
    (hat (by simp [ProjectEvent.modelDump]))
  rw [hsaga] at hsaga'
  cases hsaga'
  rfl

omit [LaxInt] in
theorem plain_optValue (o : Option String) : Plain (optValue o) := by
  cases o <;> exact ⟨rfl, rfl⟩

omit [LaxInt] in
theorem plain_strList (texts : List String) : Plain (strList texts) := by
  rw [strList, plain_list]
  intro v hv
  obtain ⟨s, -, rfl⟩ := List.mem_map.mp hv
  exact ⟨rfl, rfl⟩

omit [LaxInt] in
theorem ProjectEvent.sortedKeys_modelDump (e : ProjectEvent) : sortedKeys e.modelDump = true := by
  rw [sortedKeys_eq]
  change sortedNames ["actor", "artifact_refs", "causation_id", "correlation_id", "event_hash",
    "event_id", "event_type", "evidence_refs", "idempotency_key", "payload", "payload_digest",
    "prev_event_hash", "project_id", "schema_version", "sequence", "session_id", "source",
    "timestamp"] = true
  decide

omit [LaxInt] in
/-- An event is plain as a whole exactly when its payload is. -/
theorem ProjectEvent.plain_modelDump {e : ProjectEvent} :
    Plain (.dict e.modelDump) ↔ Plain (.dict e.payload) := by
  rw [plain_dict]
  constructor
  · rintro ⟨-, h⟩
    exact h ("payload", .dict e.payload) (by simp [ProjectEvent.modelDump])
  · intro hpayload
    refine ⟨sortedKeys_modelDump e, fun item hitem => ?_⟩
    simp only [ProjectEvent.modelDump, List.mem_cons, List.not_mem_nil, or_false] at hitem
    rcases hitem with rfl | rfl | rfl | rfl | rfl | rfl | rfl | rfl | rfl | rfl | rfl | rfl |
      rfl | rfl | rfl | rfl | rfl | rfl
    all_goals first
      | exact plain_optValue _
      | exact plain_strList _
      | exact hpayload
      | exact ⟨rfl, rfl⟩

/-- The payload of an event that was read from a plain value is plain. -/
theorem ProjectEvent.plain_payload_of_modelValidate {v : Value} {e : ProjectEvent}
    (hv : Plain v) (h : ProjectEvent.modelValidate v = .ok e) : Plain (.dict e.payload) := by
  cases v with
  | dict d =>
      simp only [ProjectEvent.modelValidate, ProjectEvent.readFields, bind_eq_ok, pure,
        Except.pure, Except.ok.injEq] at h
      obtain ⟨eventId, -, -, -, projectId, -, sequence, -, timestamp, -, actor, -, source, -,
        sessionId, -, eventType, -, payload, hpayload, payloadDigest, -, prevEventHash, -,
        eventHash, -, artifactRefs, -, evidenceRefs, -, correlationId, -, causationId, -, key, -,
        -, -, payload', hsaga, rfl⟩ := h
      rcases sagaPayload_cases hsaga with rfl | hplain
      · rcases dictField_ok hpayload with hlookup | rfl
        · exact (plain_dict.mp hv).2 ("payload", .dict payload') (mem_of_lookup hlookup)
        · exact ⟨rfl, rfl⟩
      · exact hplain
  | _ => cases h

omit [LaxInt] in
theorem canonicalJsonDumps_ok {v : Value} {text : List Char} :
    canonicalJsonDumps v = .ok text ↔ finiteFloats v = true ∧ dumps v = .ok text := by
  simp only [canonicalJsonDumps, bind_eq_ok, raiseIf_eq_ok, Bool.not_eq_false]
  exact ⟨fun h => h.choose_spec, fun h => ⟨⟨⟩, h⟩⟩

omit [LaxInt] in
theorem isHash_hexdigest (data : List UInt8) : isHash (Sha256.hexdigest data) = true := by
  have hhex : ∀ c ∈ (Sha256.hexdigest data).toList, Text.isHex c = true := fun c hc =>
    Sha256.isHexDigit_of_mem_hexdigest hc
  simp only [isHash, Text.isDigestToken]
  simpa [Sha256.length_hexdigest, List.all_eq_true] using hhex

omit [LaxInt] in
theorem isHash_of_sha256Canonical {v : Value} {digest : String}
    (h : sha256Canonical v = .ok digest) : isHash digest = true := by
  rw [sha256Canonical, map_eq_ok] at h
  obtain ⟨data, -, rfl⟩ := h
  exact isHash_hexdigest data

end PowerFramework.Ledger
