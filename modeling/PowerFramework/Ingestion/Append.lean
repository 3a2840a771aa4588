import PowerFramework.Ingestion.Payload
import PowerFramework.Ledger.AppendIntegrity
/-!
# Appending through the ingestion boundary

`append_project_event`: the command is checked and its payload cleaned, in full-content mode the
raw content is filed as evidence, and then the ledger is appended to.  A call that raises leaves
no new evidence file exactly when the ledger accepts every command whose content gets a new file
(`appendProjectEvent_noOrphan`).
-/

namespace PowerFramework.Ingestion

open Lib Lib.Failure Lib.Json Ledger

inductive PrivacyMode where
  | metadataOnly
  | structuredEvents
  | fullContent
  deriving DecidableEq, Repr

/-- The evidence files of a project by name. -/
abbrev EvidenceDir := String → Option (List UInt8)

/-- The directories of a project that an append works on. -/
structure Vault where
  ledger : ProjectDir
  evidence : EvidenceDir

/-- What a call is given beside its command: the clock and the random digits, the privacy mode, the
raw content, the message when the project lock is not obtained in time, the days that evidence is
kept and which files are older. -/
structure Request where
  draw : Draw
  privacyMode : PrivacyMode
  rawContent : Option Value
  lockTimeout : Option String
  ttlDays : Int
  expired : String → Bool

/-! ## Preparing the command -/

/-- `validate_event_id`; Python's `$` also matches before a final newline. -/
def validateEventId (eventId : String) : Except Exn Unit :=
  raiseIf (!(isEventId eventId || (eventId.toList.getLast? == some '\n' &&
      isEventId (String.ofList eventId.toList.dropLast))))
    (valueError ("Invalid event_id format: " ++ eventId))

/-- The payload that metadata-only mode keeps of an event without a saga. -/
def metadataPayload (eventType : EventType) (payload : Dict) : Dict := [
  ("_privacy_mode", .str "metadata-only"),
  ("event_type", .str eventType.text),
  ("keys", strList (payload.map Prod.fst).mergeSort)]

/-- The event id of a command, given, derived from its key or random. -/
def targetEventId (draw : Draw) (cmd : CommandFields) : String :=
  match truthy cmd.eventId with
  | some eventId => eventId
  | none =>
      match truthy cmd.idempotencyKey with
      | some key => generateDeterministicEventId cmd.projectId key
      | none => "evt_" ++ cmd.projectId ++ "_" ++ draw.hex

/-- The file of the evidence for an event. -/
def evidenceFile (eventId : String) : String := eventId ++ ".json"

section
variable [LaxInt] [Redaction]

/-- The steps in front of the evidence: the prepared command, with its event id, and the content
to file. -/
def prepare (request : Request) (cmd : CommandFields) :
    Except Exn (CommandFields × String × Option Value) := do
  let cmd ← CommandFields.modelValidate (.dict cmd.modelDump)
  raiseIf (cmd.eventType.governance = true) (permissionError
    ("Generic append rejects governance-bearing event '" ++ cmd.eventType.text ++ "'"))
  let (cleaned, extracted) := stripRawDialogue (redactItems cmd.payload)
  let finalPayload :=
    if request.privacyMode = .metadataOnly ∧ sagaPayloadModels cmd.eventType = none then
      metadataPayload cmd.eventType cleaned
    else cleaned
  let finalPayload ←
    sagaPayload cmd.eventType cmd.projectId cmd.correlationId cmd.idempotencyKey finalPayload
  let eventId := targetEventId request.draw cmd
  validateEventId eventId
  let test := { cmd with eventId := some eventId, payload := finalPayload }
  let prepared ← CommandFields.modelValidate (.dict test.modelDump)
  let content :=
    if request.privacyMode = .fullContent then
      request.rawContent.or (if extracted.isEmpty then none else some (.dict extracted))
    else none
  return (prepared, eventId, content)

/-! ## Evidence -/

omit [LaxInt] [Redaction] in
/-- `path.suffix == ".json"` -/
def hasJsonSuffix (name : String) : Bool := name.endsWith ".json" && name != ".json"

omit [LaxInt] [Redaction] in
/-- `prune_raw_evidence`; the file just written is not old. -/
def pruneRawEvidence (request : Request) (written : String) (evidence : EvidenceDir) :
    EvidenceDir := fun name =>
  if 0 < request.ttlDays ∧ hasJsonSuffix name = true ∧ request.expired name = true ∧ name ≠ written
  then none else evidence name

omit [LaxInt] [Redaction] in
/-- The directory with a new evidence file, without those that are too old. -/
def writeEvidence (request : Request) (file : String) (bytes : List UInt8)
    (evidence : EvidenceDir) : EvidenceDir :=
  pruneRawEvidence request file (Function.update evidence file (some bytes))

omit [LaxInt] in
/-- `store_raw_evidence`: the directory it leaves, and the digest it returns or what it raises. -/
def storeRawEvidence (request : Request) (evidence : EvidenceDir) (eventId : String)
    (content : Value) : EvidenceDir × Except Exn String :=
  let file := evidenceFile eventId
  match canonicalJsonBytes (redactSecrets content) with
  | .error exn => (evidence, .error exn)
  | .ok bytes =>
      let digest := "sha256:" ++ Sha256.hexdigest bytes
      match evidence file with
      | some existing =>
          if existing ≠ bytes then
            (evidence, .error ⟨"IdempotencyConflictError", "Evidence file '" ++ file ++
              "' already exists with different content"⟩)
          else (evidence, .ok digest)
      | none => (writeEvidence request file bytes evidence, .ok digest)

/-! ## The append -/

omit [LaxInt] [Redaction] in
/-- The command with the digest of its evidence among its references. -/
def withEvidence (ref : String) (cmd : CommandFields) : CommandFields :=
  { cmd with evidenceRefs :=
      if ref ∈ cmd.evidenceRefs then cmd.evidenceRefs else cmd.evidenceRefs ++ [ref] }

omit [Redaction] in
/-- The writer that a command goes to. -/
def writerOf (cmd : CommandFields) : Writer :=
  if cmd.eventType.observation then .appendUntrusted else .append

omit [Redaction] in
/-- The steps behind the evidence. -/
def submit (request : Request) (vault : Vault) (cmd : CommandFields) :
    Vault × Except Exn ProjectEvent :=
  match CommandFields.modelValidate (.dict cmd.modelDump) with
  | .error exn => (vault, .error exn)
  | .ok cmd =>
      match (writerOf cmd).refuses cmd, request.lockTimeout with
      | false, some message => (vault, .error ⟨"LockAcquisitionTimeoutError", message⟩)
      | _, _ =>
          let (ledger, result) := (writerOf cmd).run cmd.projectId request.draw vault.ledger cmd
          ({ vault with ledger }, result)

/-- `append_project_event`, without the derived index, whose failures it ignores. -/
def appendProjectEvent (request : Request) (vault : Vault) (cmd : CommandFields) :
    Vault × Except Exn ProjectEvent :=
  match prepare request cmd with
  | .error exn => (vault, .error exn)
  | .ok (prepared, _, none) => submit request vault prepared
  | .ok (prepared, eventId, some content) =>
      match storeRawEvidence request vault.evidence eventId content with
      | (evidence, .error exn) => ({ vault with evidence }, .error exn)
      | (evidence, .ok ref) =>
          submit request { vault with evidence } (withEvidence ref prepared)

end

/-! ## When the ledger accepts a command -/

section
variable [LaxInt]

/-- The ledger takes the command: its repair and its verification pass, the payload has a canonical
text, and either the event that the command names was written by the same command, or a new event
can be built. -/
structure Accepted (draw : Draw) (dir : ProjectDir) (cmd : CommandFields) (repaired : ProjectDir)
    (events : List ProjectEvent) : Prop where
  repair : recoverDir dir = .ok repaired
  verified : Verified cmd.projectId repaired events
  payload : Canonical (.dict cmd.payload)
  answer : match events.find? (sameEvent cmd) with
    | some event =>
        computeCommandFingerprint event.toFingerprinted = computeCommandFingerprint cmd.toFingerprinted
    | none => Appendable draw cmd events

omit [LaxInt] in
theorem sameCommand_of {fingerprint label : String} {event : ProjectEvent}
    (h : computeCommandFingerprint event.toFingerprinted = .ok fingerprint) :
    sameCommand fingerprint label event = .ok event :=
  bind_eq_ok.mpr ⟨fingerprint, h, bind_eq_ok.mpr ⟨⟨⟩, raiseIf_eq_ok.mpr (by simp), rfl⟩⟩

/-- A new event is built of an appendable command only. -/
theorem appendable_of_buildEvent {draw : Draw} {cmd : CommandFields} {events : List ProjectEvent}
    {lastEventHash : String} {event : ProjectEvent} (hnormal : cmd.Normal)
    (hunknown : ∀ other ∈ events, sameEvent cmd other = false)
    (h : buildEvent cmd.projectId draw cmd events.length lastEventHash = .ok event) :
    Appendable draw cmd events := by
  obtain ⟨payloadDigest, hdigest, h⟩ := bind_eq_ok.mp h
  obtain ⟨eventHash, hhash, h⟩ := bind_eq_ok.mp h
  rw [setItem_rawEnvelope] at h
  have hvalid := ProjectEvent.valid_of_readFields h
  obtain rfl := ProjectEvent.eq_of_readFields h hnormal
  have hsequence : Canonical (.int ((events.length + 1 : Nat) : Int)) :=
    canonical_dict.mp (canonical_of_sha256 hhash) ("sequence", .int ((events.length + 1 : Nat) : Int))
      (List.mem_filter.mpr ⟨by simp [rawEnvelope], by simp⟩)
  exact
    { payload := canonical_of_sha256 hdigest
      sequence := canonical_int.mp hsequence
      timestamp := hvalid.timestamp
      eventId := hvalid.eventId
      unknown := hunknown }

theorem appendUnchecked_accepted {draw : Draw} {dir : ProjectDir} {cmd : CommandFields}
    (hcmd : cmd.Checked) :
    (∃ dir' event, appendUnchecked cmd.projectId draw none none dir cmd = (dir', .ok event)) ↔
      ∃ repaired events, Accepted draw dir cmd repaired events := by
  constructor
  · rintro ⟨dir', event, h⟩
    obtain ⟨-, repaired, hrecover, h⟩ := appendUnchecked_ok h
    obtain ⟨events, hverified, hcase⟩ := appendRecovered_ok h
    obtain ⟨-, -, h⟩ := bind_eq_ok.mp h
    obtain ⟨-, -, h⟩ := bind_eq_ok.mp h
    obtain ⟨-, -, h⟩ := bind_eq_ok.mp h
    obtain ⟨fingerprint, hfingerprint, h⟩ := bind_eq_ok.mp h
    obtain ⟨events', hreplay, h⟩ := bind_eq_ok.mp h
    obtain rfl := Except.ok.inj (hverified.1.symm.trans hreplay)
    obtain ⟨found, hfound, -⟩ := bind_eq_ok.mp h
    have hpayload : Canonical (.dict cmd.payload) :=
      canonical_dict.mp (canonical_of_sha256 hfingerprint) ("payload", .dict cmd.payload) (by simp)
    refine ⟨repaired, events, hrecover, hverified, hpayload, ?_⟩
    rcases hcase with ⟨-, hfind⟩ | ⟨hnone, hbuild, -⟩
    · rw [resolveIdempotent_eq, hfind] at hfound
      obtain ⟨stored, hstored, -⟩ := map_eq_ok.mp hfound
      obtain ⟨other, hother, hstored⟩ := bind_eq_ok.mp hstored
      obtain ⟨⟨⟩, hsame, -⟩ := bind_eq_ok.mp hstored
      have heq : fingerprint = other := by simpa using raiseIf_eq_ok.mp hsame
      rw [hfind]
      exact hother.trans (heq ▸ hfingerprint.symm)
    · have hfind : events.find? (sameEvent cmd) = none :=
        List.find?_eq_none.mpr (by simpa using hnone)
      rw [hfind]
      obtain ⟨hseq, -⟩ := verify_head hverified
      rw [head_after_start hverified.2] at hseq
      have hlast : (verify cmd.projectId repaired).lastSequence = events.length := by omega
      rw [hlast] at hbuild
      exact appendable_of_buildEvent hcmd.saga hnone hbuild
  · rintro ⟨repaired, events, hrepair, hverified, hpayload, hanswer⟩
    cases hfind : events.find? (sameEvent cmd) with
    | none =>
        rw [hfind] at hanswer
        obtain ⟨event, line, -, -, hrun⟩ :=
          appendUnchecked_succeeds draw hcmd hrepair hverified hanswer
        exact ⟨_, event, hrun⟩
    | some event =>
        rw [hfind] at hanswer
        obtain ⟨fingerprint, hfingerprint⟩ :=
          computeCommandFingerprint_ok (c := cmd.toFingerprinted) hpayload
        rw [hfingerprint] at hanswer
        have hvalid : (verify cmd.projectId repaired).valid = true :=
          verify_valid.mpr ⟨events, hverified⟩
        have happend : appendRecovered cmd.projectId draw none none repaired cmd =
            .ok (repaired, event) := by
          simp only [appendRecovered, hvalid, raiseIf, Bool.true_eq_false, if_false, Option.any_none,
            Bool.false_eq_true, bind, Except.bind, hfingerprint, hverified.1, resolveIdempotent_eq,
            hfind, sameCommand_of hanswer, Except.map, pure, Except.pure]
        refine ⟨repaired, event, ?_⟩
        rw [appendUnchecked, if_neg (by simp), hrepair]
        simp only [happend]

/-- The command as its writer appends it. -/
def sourced (cmd : CommandFields) : CommandFields := cmd.withSource ((writerOf cmd).sourceOf cmd)

theorem checked_sourced {cmd : CommandFields} (hcmd : cmd.Checked) : (sourced cmd).Checked := by
  have hsource : lengthBetween 64 ((writerOf cmd).sourceOf cmd) = true := by
    unfold writerOf
    split_ifs with hobservation
    · rw [Writer.sourceOf, if_pos hobservation]
      decide
    · exact hcmd.source
  exact { hcmd with source := hsource }

omit [LaxInt] in
/-- The two writers take every command that is not governance-bearing to the ledger. -/
theorem writerOf_refuses {cmd : CommandFields} (hgovernance : cmd.eventType.governance = false) :
    (writerOf cmd).refuses cmd = false := by
  unfold writerOf
  split_ifs with hobservation
  · exact hgovernance
  · simp [Writer.refuses, hgovernance, hobservation]

theorem writerOf_run {cmd : CommandFields} (hcmd : cmd.Checked)
    (hgovernance : cmd.eventType.governance = false) (draw : Draw) (dir : ProjectDir) :
    (writerOf cmd).run cmd.projectId draw dir cmd =
      appendUnchecked cmd.projectId draw none none dir (sourced cmd) := by
  unfold sourced writerOf
  split_ifs with hobservation
  · simp only [Writer.run, appendUntrusted, CommandFields.modelValidate_modelDump hcmd, hgovernance,
      Bool.false_eq_true, if_false, hobservation, if_true, Writer.sourceOf]
  · simp only [Writer.run, append, CommandFields.modelValidate_modelDump hcmd, hgovernance,
      hobservation, Bool.and_false, Bool.or_self, Bool.false_eq_true, if_false]
    rfl

end

/-! ## No orphan evidence -/

section
variable [LaxInt] [Redaction] {request : Request} {vault : Vault} {cmd : CommandFields}

/-- A call that raises leaves no evidence file that was not there. -/
def NoOrphan (request : Request) (vault : Vault) (cmd : CommandFields) : Prop :=
  ∀ vault' exn, appendProjectEvent request vault cmd = (vault', .error exn) →
    ∀ name, (vault'.evidence name).isSome = true → (vault.evidence name).isSome = true

/-- The call files content of the prepared command as a new file with these bytes. -/
structure Filed (request : Request) (vault : Vault) (cmd prepared : CommandFields)
    (bytes : List UInt8) : Prop where
  content : ∃ eventId content, prepare request cmd = .ok (prepared, eventId, some content) ∧
    canonicalJsonBytes (redactSecrets content) = .ok bytes ∧
    vault.evidence (evidenceFile eventId) = none

/-- The command that goes to the ledger with evidence of these bytes. -/
def filedCommand (prepared : CommandFields) (bytes : List UInt8) : CommandFields :=
  sourced (withEvidence ("sha256:" ++ Sha256.hexdigest bytes) prepared)

theorem prepare_ok {prepared : CommandFields} {eventId : String} {content : Option Value}
    (h : prepare request cmd = .ok (prepared, eventId, content)) :
    prepared.Checked ∧ prepared.eventType.governance = false := by
  obtain ⟨first, -, h⟩ := bind_eq_ok.mp h
  obtain ⟨⟨⟩, hgovernance, h⟩ := bind_eq_ok.mp h
  dsimp only at h
  obtain ⟨payload, -, h⟩ := bind_eq_ok.mp h
  obtain ⟨-, -, h⟩ := bind_eq_ok.mp h
  obtain ⟨last, hlast, h⟩ := bind_eq_ok.mp h
  cases h
  have hsame : prepared.eventType = first.eventType := by
    rw [CommandFields.eq_of_readFields hlast]
  refine ⟨(CommandFields.checked_of_readFields hlast).1, ?_⟩
  rw [hsame]
  simpa using raiseIf_eq_ok.mp hgovernance

omit [Redaction] in
theorem checked_withEvidence {ref : String} {prepared : CommandFields} (h : prepared.Checked) :
    (withEvidence ref prepared).Checked :=
  ⟨h.projectId, h.actor, h.source, h.sessionId, h.correlationId, h.causationId, h.idempotencyKey,
    h.eventId, h.timestamp, h.saga⟩

omit [Redaction] in
theorem submit_evidence {prepared : CommandFields} {vault' : Vault}
    {result : Except Exn ProjectEvent} (h : submit request vault prepared = (vault', result)) :
    vault'.evidence = vault.evidence := by
  have hkept : (submit request vault prepared).1.evidence = vault.evidence := by
    unfold submit
    split
    · rfl
    · split <;> rfl
  rwa [h] at hkept

omit [Redaction] in
/-- The steps behind the evidence return exactly when the lock is obtained and the ledger accepts
the command. -/
theorem submit_ok {prepared : CommandFields} (hchecked : prepared.Checked)
    (hgovernance : prepared.eventType.governance = false) :
    (∃ vault' event, submit request vault prepared = (vault', .ok event)) ↔
      request.lockTimeout = none ∧
        ∃ repaired events, Accepted request.draw vault.ledger (sourced prepared) repaired events := by
  have haccepted := @appendUnchecked_accepted _ request.draw vault.ledger _ (checked_sourced hchecked)
  rw [← haccepted, submit, CommandFields.modelValidate_modelDump hchecked]
  simp only [writerOf_refuses hgovernance]
  cases hlock : request.lockTimeout with
  | some message => simp
  | none =>
      simp only [writerOf_run hchecked hgovernance, true_and]
      constructor
      · rintro ⟨vault', event, h⟩
        have hresult : (appendUnchecked (sourced prepared).projectId request.draw none none
          vault.ledger (sourced prepared)).2 = .ok event := congrArg Prod.snd h
        exact ⟨_, event, Prod.ext rfl hresult⟩
      · rintro ⟨dir', event, h⟩
        have hresult : (appendUnchecked prepared.projectId request.draw none none
          vault.ledger (sourced prepared)).2 = .ok event := congrArg Prod.snd h
        exact ⟨_, event, Prod.ext rfl hresult⟩

omit [LaxInt] in
theorem storeRawEvidence_new {evidence : EvidenceDir} {eventId : String} {content : Value}
    {bytes : List UInt8} (hbytes : canonicalJsonBytes (redactSecrets content) = .ok bytes)
    (hnew : evidence (evidenceFile eventId) = none) :
    storeRawEvidence request evidence eventId content =
      (writeEvidence request (evidenceFile eventId) bytes evidence,
        .ok ("sha256:" ++ Sha256.hexdigest bytes)) := by
  simp only [storeRawEvidence, hbytes, hnew]

omit [LaxInt] in
/-- Evidence that gets no new file leaves the directory as it was. -/
theorem storeRawEvidence_kept {evidence : EvidenceDir} {eventId : String} {content : Value}
    (hold : ∀ bytes, canonicalJsonBytes (redactSecrets content) = .ok bytes →
      evidence (evidenceFile eventId) ≠ none) :
    (storeRawEvidence request evidence eventId content).1 = evidence := by
  unfold storeRawEvidence
  dsimp only
  cases hbytes : canonicalJsonBytes (redactSecrets content) with
  | error exn => rfl
  | ok bytes =>
      cases hfile : evidence (evidenceFile eventId) with
      | none => exact absurd hfile (hold bytes hbytes)
      | some existing =>
          dsimp only
          split_ifs <;> rfl

omit [LaxInt] [Redaction] in
/-- The file just written is not pruned. -/
theorem writeEvidence_self (file : String) (bytes : List UInt8) (evidence : EvidenceDir) :
    writeEvidence request file bytes evidence file = some bytes := by
  rw [writeEvidence, pruneRawEvidence, if_neg (by simp), Function.update_self]

theorem appendProjectEvent_filed {prepared : CommandFields} {bytes : List UInt8} {eventId : String}
    {content : Value} (hprepare : prepare request cmd = .ok (prepared, eventId, some content))
    (hbytes : canonicalJsonBytes (redactSecrets content) = .ok bytes)
    (hnew : vault.evidence (evidenceFile eventId) = none) :
    appendProjectEvent request vault cmd =
      submit request
        { vault with evidence := writeEvidence request (evidenceFile eventId) bytes vault.evidence }
        (withEvidence ("sha256:" ++ Sha256.hexdigest bytes) prepared) := by
  simp only [appendProjectEvent, hprepare, storeRawEvidence_new hbytes hnew]

/-- Evidence that a call files is there afterwards, whatever the call returns or raises. -/
theorem appendProjectEvent_files {prepared : CommandFields} {bytes : List UInt8} {eventId : String}
    {content : Value} (hprepare : prepare request cmd = .ok (prepared, eventId, some content))
    (hbytes : canonicalJsonBytes (redactSecrets content) = .ok bytes)
    (hnew : vault.evidence (evidenceFile eventId) = none) {vault' : Vault}
    {result : Except Exn ProjectEvent} (h : appendProjectEvent request vault cmd = (vault', result)) :
    vault'.evidence (evidenceFile eventId) = some bytes := by
  rw [appendProjectEvent_filed hprepare hbytes hnew] at h
  rw [submit_evidence h]
  change writeEvidence request (evidenceFile eventId) bytes vault.evidence _ = _
  exact writeEvidence_self ..

/-- A call that files new evidence returns exactly when the lock is obtained and the ledger accepts
the command. -/
theorem appendProjectEvent_filed_ok {prepared : CommandFields} {bytes : List UInt8}
    {eventId : String} {content : Value}
    (hprepare : prepare request cmd = .ok (prepared, eventId, some content))
    (hbytes : canonicalJsonBytes (redactSecrets content) = .ok bytes)
    (hnew : vault.evidence (evidenceFile eventId) = none) :
    (∃ vault' event, appendProjectEvent request vault cmd = (vault', .ok event)) ↔
      request.lockTimeout = none ∧ ∃ repaired events,
        Accepted request.draw vault.ledger (filedCommand prepared bytes) repaired events := by
  obtain ⟨hchecked, hgovernance⟩ := prepare_ok hprepare
  rw [appendProjectEvent_filed hprepare hbytes hnew]
  exact submit_ok (checked_withEvidence hchecked) hgovernance

/-- **No orphan evidence.**  A call that raises leaves no new evidence file exactly when the lock is
obtained for, and the ledger accepts, every command whose content gets a new file. -/
theorem appendProjectEvent_noOrphan :
    NoOrphan request vault cmd ↔ ∀ prepared bytes, Filed request vault cmd prepared bytes →
      request.lockTimeout = none ∧ ∃ repaired events,
        Accepted request.draw vault.ledger (filedCommand prepared bytes) repaired events := by
  constructor
  · rintro hclean prepared bytes ⟨eventId, content, hprepare, hbytes, hnew⟩
    rw [← appendProjectEvent_filed_ok hprepare hbytes hnew]
    cases hrun : appendProjectEvent request vault cmd with
    | mk vault' result =>
        cases result with
        | ok event => exact ⟨vault', event, rfl⟩
        | error exn =>
            -- the new file would be an orphan
            have hwritten := appendProjectEvent_files hprepare hbytes hnew hrun
            have hthere := hclean vault' exn hrun (evidenceFile eventId) (by rw [hwritten]; rfl)
            rw [hnew] at hthere
            cases hthere
  · intro haccepts vault' exn hrun name hname
    cases hprepare : prepare request cmd with
    | error exn' =>
        simp only [appendProjectEvent, hprepare, Prod.mk.injEq] at hrun
        rwa [hrun.1]
    | ok prepared =>
        obtain ⟨prepared, eventId, content⟩ := prepared
        cases content with
        | none =>
            simp only [appendProjectEvent, hprepare] at hrun
            rwa [submit_evidence hrun] at hname
        | some content =>
            by_cases hfiled : ∃ bytes, canonicalJsonBytes (redactSecrets content) = .ok bytes ∧
                vault.evidence (evidenceFile eventId) = none
            · obtain ⟨bytes, hbytes, hnew⟩ := hfiled
              obtain ⟨after, event, hok⟩ := (appendProjectEvent_filed_ok hprepare hbytes hnew).mpr
                (haccepts prepared bytes ⟨eventId, content, hprepare, hbytes, hnew⟩)
              rw [hrun] at hok
              cases hok
            · have hkept : (storeRawEvidence request vault.evidence eventId content).1 =
                  vault.evidence :=
                storeRawEvidence_kept fun bytes hbytes hnew => hfiled ⟨bytes, hbytes, hnew⟩
              simp only [appendProjectEvent, hprepare] at hrun
              cases hstore : storeRawEvidence request vault.evidence eventId content with
              | mk evidence result =>
                  rw [hstore] at hkept
                  simp only [hstore] at hrun
                  cases result with
                  | error exn' =>
                      cases hrun
                      exact hkept ▸ hname
                  | ok ref =>
                      rw [submit_evidence hrun] at hname
                      exact hkept ▸ hname

end

/-! ## Evidence for a broken ledger -/

attribute [local instance] LaxInt.intOnly

/-- Patterns that find nothing, as the ones of the source in the texts below. -/
abbrev plainRedaction : Redaction := ⟨id, fun _ => false⟩

attribute [local instance] plainRedaction

def fullRequest : Request where
  draw := sampleDraw
  privacyMode := .fullContent
  rawContent := some (.str "hello")
  lockTimeout := none
  ttlDays := 0
  expired := fun _ => false

/-- A ledger whose one record is no event. -/
def brokenVault : Vault where
  ledger := (∅ : ProjectDir).insert activeEventsFile [123, 125, 10]
  evidence := fun _ => none

/-- The note with the id it gets. -/
def namedNote : CommandFields := sessionNote (some "evt_prj_abc_0123456789ab") none

theorem prepare_fullRequest : prepare fullRequest plainNote.toCommandFields =
    .ok (namedNote, "evt_prj_abc_0123456789ab", some (.str "hello")) := by
  have hnamed : namedNote.Valid := sessionNote_valid
    (fun _ h => Option.some.inj h ▸ (by decide : isEventId "evt_prj_abc_0123456789ab" = true)) (by simp)
  have hplain := CommandFields.modelValidate_modelDump plainNote.valid.checked
  have hclean : stripRawDialogue (redactItems plainNote.payload) = ([], []) := by
    simp [plainNote, sessionNote, redactItems, stripRawDialogue, stripItems]
  refine bind_eq_ok.mpr ⟨_, hplain, bind_eq_ok.mpr ⟨⟨⟩, rfl, ?_⟩⟩
  rw [hclean]
  refine bind_eq_ok.mpr ⟨[], rfl, bind_eq_ok.mpr ⟨⟨⟩, rfl, ?_⟩⟩
  exact bind_eq_ok.mpr ⟨_, CommandFields.modelValidate_modelDump hnamed.checked, rfl⟩

theorem recoverDir_brokenVault (repaired : ProjectDir) :
    recoverDir brokenVault.ledger ≠ .ok repaired := by
  have htail : (recoverTornTail (readFile brokenVault.ledger activeEventsFile)).toOption = none := by
    decide +kernel
  have hactive : activeEventsFile ∈ brokenVault.ledger := by decide +kernel
  rw [recoverDir, if_pos hactive]
  intro h
  obtain ⟨parts, hparts, -⟩ := bind_eq_ok.mp h
  rw [hparts] at htail
  cases htail

/-- The ledger of one broken record refuses the note, and its evidence stays. -/
theorem appendProjectEvent_orphan :
    ¬ NoOrphan fullRequest brokenVault plainNote.toCommandFields := by
  intro hclean
  obtain ⟨bytes, hbytes⟩ : ∃ bytes, canonicalJsonBytes (redactSecrets (.str "hello")) = .ok bytes :=
    ⟨_, rfl⟩
  cases hrun : appendProjectEvent fullRequest brokenVault plainNote.toCommandFields with
  | mk vault' result =>
      cases result with
      | ok event =>
          obtain ⟨-, repaired, events, haccepted⟩ :=
            (appendProjectEvent_filed_ok prepare_fullRequest hbytes rfl).mp ⟨vault', event, hrun⟩
          exact absurd haccepted.repair (recoverDir_brokenVault repaired)
      | error exn =>
          have hwritten := appendProjectEvent_files prepare_fullRequest hbytes rfl hrun
          have hthere := hclean vault' exn hrun _ (by rw [hwritten]; rfl)
          cases hthere

end PowerFramework.Ingestion
