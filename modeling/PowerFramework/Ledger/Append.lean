import PowerFramework.Ledger.TornTail
/-!
# Appending an event

`_append_unchecked` and the three writers in front of it.  An append repairs the active file,
verifies the whole ledger, looks for an earlier event of the same command, and otherwise writes
one line; `appended` says what that line reads back as.
-/

namespace PowerFramework.Ledger

open Lib Lib.Failure Lib.Json Lib.Lines

/-- What the clock and the id generator give: `datetime.now(UTC)` as text and twelve hex digits
of a `uuid4`. -/
structure Draw where
  now : String
  hex : String

/-- `command.model_copy(update={"source": source})` -/
def CommandFields.withSource (cmd : CommandFields) (source : String) : CommandFields :=
  { cmd with source }

/-- A string that Python takes for true. -/
def truthy (text : Option String) : Option String := text.filter (· ≠ "")

/-- `event.idempotency_key == command.idempotency_key`, when the command has a key. -/
def sameKey (cmd : CommandFields) (event : ProjectEvent) : Bool :=
  (truthy cmd.idempotencyKey).isSome && event.idempotencyKey == cmd.idempotencyKey

/-- `event.event_id == command.event_id`, when the command has an id. -/
def sameId (cmd : CommandFields) (event : ProjectEvent) : Bool :=
  (truthy cmd.eventId).isSome && some event.eventId == cmd.eventId

/-- The event carries the command's key or its id. -/
def sameEvent (cmd : CommandFields) (event : ProjectEvent) : Bool :=
  sameKey cmd event || sameId cmd event

/-- The stored event, unless the command differs from the one that wrote it. -/
def sameCommand (fingerprint label : String) (event : ProjectEvent) : Except Exn ProjectEvent := do
  let stored ← computeCommandFingerprint event.toFingerprinted
  raiseIf (fingerprint ≠ stored) ⟨"IdempotencyConflictError",
    "Idempotency conflict for " ++ label ++ ": command fingerprint mismatch"⟩
  return event

/-- The event an earlier call with this command has written. -/
def resolveIdempotent (cmd : CommandFields) (fingerprint : String) :
    List ProjectEvent → Except Exn (Option ProjectEvent)
  | [] => .ok none
  | event :: events =>
      if sameKey cmd event then
        (sameCommand fingerprint ("key '" ++ cmd.idempotencyKey.getD "" ++ "'") event).map some
      else if sameId cmd event then
        (sameCommand fingerprint ("event_id '" ++ cmd.eventId.getD "" ++ "'") event).map some
      else resolveIdempotent cmd fingerprint events

/-- How a conflict names what matched. -/
def matchLabel (cmd : CommandFields) (event : ProjectEvent) : String :=
  if sameKey cmd event then "key '" ++ cmd.idempotencyKey.getD "" ++ "'"
  else "event_id '" ++ cmd.eventId.getD "" ++ "'"

theorem resolveIdempotent_eq (cmd : CommandFields) (fingerprint : String)
    (events : List ProjectEvent) :
    resolveIdempotent cmd fingerprint events =
      match events.find? (sameEvent cmd) with
      | none => .ok none
      | some event => (sameCommand fingerprint (matchLabel cmd event) event).map some := by
  induction events with
  | nil => rfl
  | cons event events ih =>
      rw [resolveIdempotent, List.find?_cons]
      by_cases hkey : sameKey cmd event = true
      · have hsame : sameEvent cmd event = true := by simp [sameEvent, hkey]
        simp only [hkey, hsame, matchLabel, if_true]
      · by_cases hid : sameId cmd event = true
        · have hsame : sameEvent cmd event = true := by simp [sameEvent, hid]
          simp only [hkey, hid, hsame, matchLabel, if_true, Bool.false_eq_true, if_false]
        · have hother : sameEvent cmd event = false := by simp [sameEvent, hkey, hid]
          rw [if_neg hkey, if_neg hid, ih, hother]

def newEventId (cmd : CommandFields) (projectId : String) (sequence : Nat) (draw : Draw) : String :=
  match truthy cmd.eventId with
  | some eventId => eventId
  | none =>
      match truthy cmd.idempotencyKey with
      | some key => generateDeterministicEventId projectId key
      | none => "evt_" ++ projectId ++ "_" ++ toString sequence ++ "_" ++ draw.hex

/-- `raw_envelope`, before its hash is set. -/
def rawEnvelope (cmd : CommandFields) (projectId eventId timestamp payloadDigest prevEventHash : String)
    (sequence : Nat) : Dict := [
  ("actor", .str cmd.actor),
  ("artifact_refs", strList cmd.artifactRefs),
  ("causation_id", optValue cmd.causationId),
  ("correlation_id", optValue cmd.correlationId),
  ("event_id", .str eventId),
  ("event_type", .str cmd.eventType.text),
  ("evidence_refs", strList cmd.evidenceRefs),
  ("idempotency_key", optValue cmd.idempotencyKey),
  ("payload", .dict cmd.payload),
  ("payload_digest", .str payloadDigest),
  ("prev_event_hash", .str prevEventHash),
  ("project_id", .str projectId),
  ("schema_version", .str schemaVersion),
  ("sequence", .int sequence),
  ("session_id", optValue cmd.sessionId),
  ("source", .str cmd.source),
  ("timestamp", .str timestamp)]

variable [LaxInt]

/-- The event for a command behind a head with this sequence and hash. -/
def buildEvent (projectId : String) (draw : Draw) (cmd : CommandFields) (lastSequence : Nat)
    (lastEventHash : String) : Except Exn ProjectEvent := do
  let sequence := lastSequence + 1
  let prevEventHash := if sequence = 1 then "" else lastEventHash
  let timestamp := (truthy cmd.timestamp).getD draw.now
  let eventId := newEventId cmd projectId sequence draw
  let payloadDigest ← computePayloadDigest cmd.payload
  let raw := rawEnvelope cmd projectId eventId timestamp payloadDigest prevEventHash sequence
  let eventHash ← computeEventHash raw
  ProjectEvent.modelValidate (.dict (setItem "event_hash" (.str eventHash) raw))

omit [LaxInt] in
def eventLine (event : ProjectEvent) : Except Exn (List Char) := do
  let line ← canonicalJsonDumps (.dict event.modelDump)
  return line ++ ['\n']

omit [LaxInt] in
/-- `f.write(text)` on the active file, opened to append. -/
def writeActive (dir : ProjectDir) (text : List Char) : ProjectDir :=
  dir.insert activeEventsFile (readFile dir activeEventsFile ++ Utf8.encode text)

/-- The active file is repaired when there is one. -/
def recoverDir (dir : ProjectDir) : Except Exn ProjectDir := do
  if activeEventsFile ∈ dir then
    let (cut, content) ← recoverTornTail (readFile dir activeEventsFile)
    return if cut = 0 then dir else dir.insert activeEventsFile content
  else return dir

/-- The append behind the repair. -/
def appendRecovered (projectId : String) (draw : Draw) (expectedLastSequence : Option Nat)
    (expectedLastEventHash : Option String) (dir : ProjectDir) (cmd : CommandFields) :
    Except Exn (ProjectDir × ProjectEvent) := do
  let verified := verify projectId dir
  raiseIf (verified.valid = false) (integrityError ("Ledger integrity verification failed for " ++
    "project " ++ projectId ++ ": " ++ "; ".intercalate verified.errors))
  raiseIf (expectedLastSequence.any (· ≠ verified.lastSequence))
    (valueError "Canonical ledger head changed before governed append")
  raiseIf (expectedLastEventHash.any (· ≠ verified.lastEventHash))
    (valueError "Canonical ledger hash changed before governed append")
  let fingerprint ← computeCommandFingerprint cmd.toFingerprinted
  match ← resolveIdempotent cmd fingerprint (← replay dir 1) with
  | some event => return (dir, event)
  | none =>
      let event ← buildEvent projectId draw cmd verified.lastSequence verified.lastEventHash
      let line ← eventLine event
      return (writeActive dir line, event)

/-- `_append_unchecked`: the directory it leaves, and what it returns or raises. -/
def appendUnchecked (projectId : String) (draw : Draw) (expectedLastSequence : Option Nat)
    (expectedLastEventHash : Option String) (dir : ProjectDir) (cmd : CommandFields) :
    ProjectDir × Except Exn ProjectEvent :=
  if cmd.projectId ≠ projectId then
    (dir, .error (valueError ("Command project_id '" ++ cmd.projectId ++
      "' does not match store '" ++ projectId ++ "'")))
  else
    match recoverDir dir with
    | .error exn => (dir, .error exn)
    | .ok dir =>
        match appendRecovered projectId draw expectedLastSequence expectedLastEventHash dir cmd with
        | .error exn => (dir, .error exn)
        | .ok (dir, event) => (dir, .ok event)

omit [LaxInt] in
def permissionError (message : String) : Exn := ⟨"PermissionError", message⟩

omit [LaxInt] in
def pseGovernance : String := "pse_governance"

/-- `ProjectEventStore.append` -/
def append (projectId : String) (draw : Draw) (dir : ProjectDir) (cmd : CommandFields) :
    ProjectDir × Except Exn ProjectEvent :=
  match CommandFields.modelValidate (.dict cmd.modelDump) with
  | .error exn => (dir, .error exn)
  | .ok cmd =>
      if cmd.eventType.governance || (cmd.source == pseGovernance && cmd.eventType.observation) then
        (dir, .error (permissionError "Public writer rejects governance-bearing event"))
      else appendUnchecked projectId draw none none dir cmd

/-- `ProjectEventStore.append_untrusted` -/
def appendUntrusted (projectId : String) (draw : Draw) (dir : ProjectDir) (cmd : CommandFields) :
    ProjectDir × Except Exn ProjectEvent :=
  match CommandFields.modelValidate (.dict cmd.modelDump) with
  | .error exn => (dir, .error exn)
  | .ok cmd =>
      if cmd.eventType.governance then
        (dir, .error (permissionError "Public writer rejects governance-bearing event"))
      else
        let cmd := if cmd.eventType.observation then cmd.withSource "untrusted_ingest" else cmd
        appendUnchecked projectId draw none none dir cmd

/-- `ProjectEventStore._append_governed` -/
def appendGoverned (projectId : String) (draw : Draw) (expectedLastSequence : Option Nat)
    (expectedLastEventHash : Option String) (dir : ProjectDir) (cmd : CommandFields) :
    ProjectDir × Except Exn ProjectEvent :=
  if cmd.source != pseGovernance || !(cmd.eventType.governance || cmd.eventType.observation) then
    (dir, .error (permissionError "Trusted PSE writer requires governed provenance"))
  else appendUnchecked projectId draw expectedLastSequence expectedLastEventHash dir cmd

/-! ## The new event -/

section
omit [LaxInt]

/-- The event with the fields of a command and the envelope it is given. -/
def eventOf (cmd : CommandFields) (projectId eventId timestamp payloadDigest prevEventHash : String)
    (sequence : Nat) (eventHash : String) : ProjectEvent :=
  { cmd.toFingerprinted with
    eventId, projectId, sequence, timestamp, payloadDigest, prevEventHash, eventHash
    idempotencyKey := cmd.idempotencyKey }

variable {cmd : CommandFields}
  {projectId eventId timestamp payloadDigest prevEventHash eventHash : String} {sequence : Nat}

theorem setItem_rawEnvelope :
    setItem "event_hash" (.str eventHash)
        (rawEnvelope cmd projectId eventId timestamp payloadDigest prevEventHash sequence) =
      (eventOf cmd projectId eventId timestamp payloadDigest prevEventHash sequence
        eventHash).modelDump := rfl

theorem computeEventHash_rawEnvelope (h : String) :
    computeEventHash
        (rawEnvelope cmd projectId eventId timestamp payloadDigest prevEventHash sequence) =
      computeEventHash (eventOf cmd projectId eventId timestamp payloadDigest prevEventHash sequence
        h).modelDump := rfl

end

/-- The command's payload is in the normal form of its saga model, as validation leaves it. -/
def CommandFields.Normal (cmd : CommandFields) : Prop :=
  sagaPayload cmd.eventType cmd.projectId cmd.correlationId cmd.idempotencyKey cmd.payload =
    .ok cmd.payload

/-- The event built for a command: its fields, with the digests of its own content. -/
theorem buildEvent_ok {draw : Draw} {cmd : CommandFields} {lastSequence : Nat}
    {lastEventHash : String} {event : ProjectEvent} (hnormal : cmd.Normal)
    (h : buildEvent cmd.projectId draw cmd lastSequence lastEventHash = .ok event) :
    event.Valid ∧ event.Sealed ∧ ∃ timestamp payloadDigest eventHash,
      event = eventOf cmd cmd.projectId (newEventId cmd cmd.projectId (lastSequence + 1) draw)
        timestamp payloadDigest (if lastSequence + 1 = 1 then "" else lastEventHash)
        (lastSequence + 1) eventHash := by
  obtain ⟨payloadDigest, hdigest, h⟩ := bind_eq_ok.mp h
  obtain ⟨eventHash, hhash, h⟩ := bind_eq_ok.mp h
  rw [setItem_rawEnvelope] at h
  obtain rfl := ProjectEvent.eq_of_readFields h hnormal
  have hvalid := ProjectEvent.valid_of_readFields h
  exact ⟨hvalid, ⟨hdigest, hhash⟩, _, _, _, rfl⟩

/-! ## The new line -/

section
omit [LaxInt]

theorem strip_braces (text : List Char) : strip ('{' :: text ++ ['}']) = '{' :: text ++ ['}'] := by
  rw [strip, List.cons_append, List.dropWhile_cons_of_neg (by decide), ← List.cons_append,
    List.rdropWhile_concat_neg _ _ _ (by decide)]

theorem dumps_dict_braces {d : Dict} {text : List Char} (h : dumps (.dict d) = .ok text) :
    ∃ inner, text = '{' :: inner ++ ['}'] := by
  simp only [dumps, bind_eq_ok, pure, Except.pure, Except.ok.injEq] at h
  obtain ⟨texts, -, rfl⟩ := h
  exact ⟨_, rfl⟩

/-- An event is written as one terminated line that is one record. -/
theorem eventLine_ok {event : ProjectEvent} {line : List Char} (h : eventLine event = .ok line) :
    ∃ raw, line = raw ++ ['\n'] ∧ dumps (.dict event.modelDump) = .ok raw ∧ recordsOf line = [raw] := by
  obtain ⟨raw, hraw, h⟩ := bind_eq_ok.mp h
  cases h
  have hdumps := (canonicalJsonDumps_ok.mp hraw).2
  have hline := oneLine_dumps _ hdumps
  have hlf : '\n' ∉ raw := fun hmem => absurd (hline _ hmem) (by decide)
  have hcr : '\r' ∉ raw := fun hmem => absurd (hline _ hmem) (by decide)
  obtain ⟨inner, rfl⟩ := dumps_dict_braces hdumps
  refine ⟨_, rfl, hdumps, ?_⟩
  rw [recordsOf, universalLines_line (by decide) hlf hcr, List.map_singleton, strip_braces]
  rfl

theorem terminated_eventLine {event : ProjectEvent} {line : List Char}
    (h : eventLine event = .ok line) : Terminated '\n' line := by
  obtain ⟨raw, rfl, -⟩ := eventLine_ok h
  exact Or.inr ⟨raw, rfl⟩

end

/-- The line of a valid event reads back as the event exactly when its payload is plain. -/
theorem parseRecord_dumps {event : ProjectEvent} {raw : List Char} (hvalid : event.Valid)
    (h : dumps (.dict event.modelDump) = .ok raw) :
    parseRecord raw = .ok event ↔ Plain (.dict event.payload) := by
  unfold parseRecord
  constructor
  · intro hparse
    cases hloads : loads raw with
    | none => simp [hloads] at hparse
    | some data =>
        rw [hloads] at hparse
        exact ProjectEvent.plain_payload_of_modelValidate (plain_of_loads hloads) hparse
  · intro hplain
    rw [(loads_dumps_iff h).mpr (ProjectEvent.plain_modelDump.mpr hplain)]
    exact ProjectEvent.readFields_modelDump hvalid

end PowerFramework.Ledger
