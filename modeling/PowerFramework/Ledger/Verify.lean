import PowerFramework.Ledger.Directory
/-!
# Ledger verification

`verify` collects the errors of every record.  It finds none exactly when replay returns
events that chain: each continues the sequence and the hash of the one before it, under an
event id of its own, with the digests of its payload and of its fields.
-/

namespace PowerFramework.Ledger

open Lib Lib.Failure Lib.Json Lib.Lines

structure VerifyState where
  errors : List String := []
  eventCount : Nat := 0
  expectedSequence : Nat := 1
  expectedPrevHash : String := ""
  seenEventIds : List String := []
  lastEventHash : String := ""
  lastSequence : Nat := 0

structure VerificationResult where
  valid : Bool
  eventCount : Nat
  lastSequence : Nat
  lastEventHash : String
  errors : List String

/-- `errors.append(...)`, when the check fails. -/
def VerifyState.expect (st : VerifyState) (p : Prop) [Decidable p] (error : String) : VerifyState :=
  if p then st else { st with errors := st.errors ++ [error] }

/-- The checks on a parsed event that come before its digests. -/
def verifyEnvelope (projectId place : String) (event : ProjectEvent) (st : VerifyState) :
    VerifyState :=
  let st := st.expect (event.projectId = projectId)
    (place ++ "Project ID mismatch: expected '" ++ projectId ++ "', got '" ++ event.projectId ++ "'")
  let st := st.expect (event.eventId ∉ st.seenEventIds)
    (place ++ "Duplicate event_id '" ++ event.eventId ++ "'")
  let st := { st with seenEventIds := event.eventId :: st.seenEventIds }
  let st := st.expect (event.sequence = st.expectedSequence)
    (place ++ "Broken sequence: expected " ++ toString st.expectedSequence ++ ", got " ++
      toString event.sequence)
  st.expect (event.prevEventHash = st.expectedPrevHash)
    (place ++ "Broken prev_event_hash: expected '" ++ st.expectedPrevHash ++ "', got '" ++
      event.prevEventHash ++ "'")

/-- The digest checks; an exception leaves the state of the checks before it. -/
def verifyDigests (place : String) (event : ProjectEvent) (st : VerifyState) :
    VerifyState × Option Exn :=
  match computePayloadDigest event.payload with
  | .error exn => (st, some exn)
  | .ok digest =>
      let st := st.expect (event.payloadDigest = digest)
        (place ++ "Payload digest mismatch for " ++ event.eventId ++ ": expected '" ++ digest ++
          "', got '" ++ event.payloadDigest ++ "'")
      match computeEventHash event.modelDump with
      | .error exn => (st, some exn)
      | .ok hash =>
          let st := st.expect (event.eventHash = hash)
            (place ++ "Event hash mismatch for " ++ event.eventId ++ ": expected '" ++ hash ++
              "', got '" ++ event.eventHash ++ "'")
          ({ st with
              expectedSequence := event.sequence + 1
              expectedPrevHash := event.eventHash
              lastSequence := event.sequence
              lastEventHash := event.eventHash }, none)

/-- The events that precede, as far as the next event is checked against them. -/
structure Head where
  sequence : Nat
  prevHash : String
  seen : List String

def Head.start : Head := ⟨1, "", []⟩

def Head.push (head : Head) (event : ProjectEvent) : Head :=
  ⟨event.sequence + 1, event.eventHash, event.eventId :: head.seen⟩

/-- The event carries the digests of its own content. -/
structure ProjectEvent.Sealed (event : ProjectEvent) : Prop where
  payload : computePayloadDigest event.payload = .ok event.payloadDigest
  envelope : computeEventHash event.modelDump = .ok event.eventHash

/-- The event may come next. -/
structure Fits (projectId : String) (head : Head) (event : ProjectEvent) : Prop where
  project : event.projectId = projectId
  fresh : event.eventId ∉ head.seen
  sequence : event.sequence = head.sequence
  link : event.prevEventHash = head.prevHash
  sealed : event.Sealed

def Chain (projectId : String) : Head → List ProjectEvent → Prop
  | _, [] => True
  | head, event :: events => Fits projectId head event ∧ Chain projectId (head.push event) events

def Head.after (head : Head) (events : List ProjectEvent) : Head := events.foldl Head.push head

def VerifyState.head (st : VerifyState) : Head :=
  ⟨st.expectedSequence, st.expectedPrevHash, st.seenEventIds⟩

variable [LaxInt]

/-- One record of a file; an exception of its digests ends the file. -/
def verifyRecord (projectId file : String) (st : VerifyState) (record : Nat × List Char) :
    VerifyState × Option Exn :=
  let place := file ++ ":" ++ toString record.1 ++ ": "
  let st := { st with eventCount := st.eventCount + 1 }
  match loads record.2 with
  | none =>
      ({ st with errors := st.errors ++ [place ++ "Malformed JSON: " ++ jsonDecodeError.message] },
        none)
  | some data =>
      match ProjectEvent.modelValidate data with
      | .error exn =>
          ({ st with errors := st.errors ++ [place ++ "Schema validation error: " ++ exn.message] },
            none)
      | .ok event => verifyDigests place event (verifyEnvelope projectId place event st)

def verifyRecords (projectId file : String) : VerifyState → List (Nat × List Char) → VerifyState
  | st, [] => st
  | st, record :: records =>
      match verifyRecord projectId file st record with
      | (st, none) => verifyRecords projectId file st records
      | (st, some exn) =>
          { st with errors := st.errors ++ [file ++ ": Unable to read event file: " ++ exn.message] }

/-- One event file; one that is not UTF-8 is refused as a whole. -/
def verifyFile (projectId : String) (dir : ProjectDir) (st : VerifyState) (file : String) :
    VerifyState :=
  match numberedRecords (readFile dir file) with
  | .error exn =>
      { st with errors := st.errors ++ [file ++ ": Unable to read event file: " ++ exn.message] }
  | .ok records => verifyRecords projectId file st records

def verifyState (projectId : String) (dir : ProjectDir) : VerifyState :=
  (listEventFiles dir).foldl (verifyFile projectId dir) {}

/-- `verify` -/
def verify (projectId : String) (dir : ProjectDir) : VerificationResult :=
  let st := verifyState projectId dir
  { valid := st.errors.isEmpty
    eventCount := st.eventCount
    lastSequence := st.lastSequence
    lastEventHash := st.lastEventHash
    errors := st.errors }

/-! ## Chains -/

section
omit [LaxInt]
variable {projectId : String}

theorem chain_append {head : Head} {a b : List ProjectEvent} :
    Chain projectId head (a ++ b) ↔
      Chain projectId head a ∧ Chain projectId (head.after a) b := by
  induction a generalizing head with
  | nil => simp [Chain, Head.after]
  | cons event a ih =>
      rw [List.cons_append, Chain, Chain, ih, and_assoc]
      rfl

theorem Head.after_append (head : Head) (a b : List ProjectEvent) :
    head.after (a ++ b) = (head.after a).after b := by
  rw [Head.after, Head.after, Head.after, List.foldl_append]

theorem Head.seen_after (head : Head) (events : List ProjectEvent) :
    (head.after events).seen = (events.map ProjectEvent.eventId).reverse ++ head.seen := by
  induction events generalizing head with
  | nil => rfl
  | cons event events ih =>
      change ((head.push event).after events).seen = _
      rw [ih, List.map_cons, List.reverse_cons, List.append_assoc]
      rfl

/-- A chain numbers its events without a gap. -/
theorem Chain.sequence_after {head : Head} {events : List ProjectEvent}
    (h : Chain projectId head events) :
    (head.after events).sequence = head.sequence + events.length := by
  induction events generalizing head with
  | nil => rfl
  | cons event events ih =>
      change ((head.push event).after events).sequence = _
      rw [ih h.2, List.length_cons]
      have hseq : event.sequence = head.sequence := h.1.sequence
      simp only [Head.push]
      omega

theorem Chain.numbered {head : Head} {events : List ProjectEvent}
    (h : Chain projectId head events) :
    ∀ event ∈ events, event.projectId = projectId ∧ head.sequence ≤ event.sequence := by
  induction events generalizing head with
  | nil => simp
  | cons first events ih =>
      obtain ⟨hfits, hrest⟩ := h
      rw [List.forall_mem_cons]
      refine ⟨⟨hfits.project, hfits.sequence.ge⟩, ?_⟩
      intro event hevent
      obtain ⟨hproject, hsequence⟩ := ih hrest event hevent
      have hnext : first.sequence + 1 ≤ event.sequence := hsequence
      have hfirst := hfits.sequence
      exact ⟨hproject, by omega⟩

theorem head_after_start {projectId : String} {events : List ProjectEvent}
    (h : Chain projectId .start events) :
    (Head.start.after events).sequence = events.length + 1 := by
  rw [h.sequence_after, Head.start, Nat.add_comm]

/-- The event ids of a chain from the start are pairwise distinct. -/
theorem Chain.nodup {head : Head} {events : List ProjectEvent} (h : Chain projectId head events) :
    (events.map ProjectEvent.eventId).Nodup ∧
      ∀ event ∈ events, event.eventId ∉ head.seen := by
  induction events generalizing head with
  | nil => simp
  | cons event events ih =>
      obtain ⟨hnodup, hfresh⟩ := ih h.2
      constructor
      · rw [List.map_cons, List.nodup_cons]
        refine ⟨fun hmem => ?_, hnodup⟩
        obtain ⟨other, hother, heq⟩ := List.mem_map.mp hmem
        exact hfresh other hother (by simp [Head.push, heq])
      · intro other hother
        rcases List.mem_cons.mp hother with rfl | hother
        · exact h.1.fresh
        · intro hmem
          exact hfresh other hother (by simp [Head.push, hmem])

end

/-! ## What a clean verification has seen -/

section
omit [LaxInt]
variable {st : VerifyState}

theorem VerifyState.expect_errors {p : Prop} [Decidable p] {error : String} :
    (st.expect p error).errors = [] ↔ st.errors = [] ∧ p := by
  unfold VerifyState.expect
  split_ifs with hp <;> simp [hp]

theorem VerifyState.expect_of (st : VerifyState) {p : Prop} [Decidable p] {error : String} (hp : p) :
    st.expect p error = st := if_pos hp

/-- The state behind an event that fits. -/
theorem verifyEnvelope_of (st : VerifyState) {projectId place : String} {event : ProjectEvent}
    (hproject : event.projectId = projectId) (hfresh : event.eventId ∉ st.seenEventIds)
    (hseq : event.sequence = st.expectedSequence)
    (hprev : event.prevEventHash = st.expectedPrevHash) :
    verifyEnvelope projectId place event st =
      { st with seenEventIds := event.eventId :: st.seenEventIds } := by
  simp only [verifyEnvelope, VerifyState.expect_of _ hproject, VerifyState.expect_of _ hfresh]
  rw [VerifyState.expect_of { st with seenEventIds := event.eventId :: st.seenEventIds }
    hseq, VerifyState.expect_of
    { st with seenEventIds := event.eventId :: st.seenEventIds } hprev]

theorem verifyEnvelope_errors {projectId place : String} {event : ProjectEvent} :
    (verifyEnvelope projectId place event st).errors = [] ↔
      st.errors = [] ∧ event.projectId = projectId ∧ event.eventId ∉ st.seenEventIds ∧
        event.sequence = st.expectedSequence ∧ event.prevEventHash = st.expectedPrevHash := by
  have hseen : ∀ (p : Prop) [Decidable p] (error : String),
      (st.expect p error).seenEventIds = st.seenEventIds := by
    intro p _ error
    unfold VerifyState.expect
    split_ifs <;> rfl
  constructor
  · intro h
    simp only [verifyEnvelope, VerifyState.expect_errors] at h
    obtain ⟨⟨⟨⟨herr, hproject⟩, hfresh⟩, hseq⟩, hprev⟩ := h
    rw [hseen] at hfresh
    refine ⟨herr, hproject, hfresh, ?_⟩
    simp only [VerifyState.expect_of _ hproject, VerifyState.expect_of _ hfresh] at hseq hprev
    rw [VerifyState.expect_of _ hseq] at hprev
    exact ⟨hseq, hprev⟩
  · rintro ⟨herr, hproject, hfresh, hseq, hprev⟩
    rw [verifyEnvelope_of _ hproject hfresh hseq hprev]
    exact herr

theorem verifyDigests_clean {place : String} {event : ProjectEvent} {st' : VerifyState} :
    verifyDigests place event st = (st', none) ∧ st'.errors = [] ↔
      st.errors = [] ∧ event.Sealed ∧ st' = { st with
        expectedSequence := event.sequence + 1
        expectedPrevHash := event.eventHash
        lastSequence := event.sequence
        lastEventHash := event.eventHash } := by
  constructor
  · rintro ⟨h, herr⟩
    unfold verifyDigests at h
    cases hpayload : computePayloadDigest event.payload with
    | error exn => simp [hpayload] at h
    | ok digest =>
        cases hhash : computeEventHash event.modelDump with
        | error exn => simp [hpayload, hhash] at h
        | ok hash =>
            simp only [hpayload, hhash, Prod.mk.injEq, and_true] at h
            subst h
            simp only [VerifyState.expect_errors] at herr
            obtain ⟨⟨herr, hdigest⟩, henvelope⟩ := herr
            refine ⟨herr, ⟨by rw [hpayload, hdigest], by rw [hhash, henvelope]⟩, ?_⟩
            rw [VerifyState.expect_of _ hdigest, VerifyState.expect_of _ henvelope]
  · rintro ⟨herr, hsealed, rfl⟩
    refine ⟨?_, herr⟩
    simp only [verifyDigests, hsealed.payload, hsealed.envelope, VerifyState.expect_of]

end

/-- The state after a record whose event fits. -/
def VerifyState.accept (st : VerifyState) (event : ProjectEvent) : VerifyState :=
  { st with
    eventCount := st.eventCount + 1
    expectedSequence := event.sequence + 1
    expectedPrevHash := event.eventHash
    seenEventIds := event.eventId :: st.seenEventIds
    lastSequence := event.sequence
    lastEventHash := event.eventHash }

/-- A record passes without an error exactly when it parses to an event that fits. -/
theorem verifyRecord_clean {projectId : String} (file : String) {st st' : VerifyState}
    {record : Nat × List Char} :
    verifyRecord projectId file st record = (st', none) ∧ st'.errors = [] ↔
      st.errors = [] ∧ ∃ event, parseRecord record.2 = .ok event ∧
        Fits projectId st.head event ∧ st' = st.accept event := by
  unfold verifyRecord parseRecord
  cases hloads : loads record.2 with
  | none =>
      simp only [Prod.mk.injEq, and_true, reduceCtorEq, false_and, exists_false, and_false,
        iff_false, not_and]
      rintro rfl
      simp
  | some data =>
      cases hparse : ProjectEvent.modelValidate data with
      | error exn =>
          simp only [hparse, Prod.mk.injEq, and_true, reduceCtorEq, false_and, exists_false,
            and_false, iff_false, not_and]
          rintro rfl
          simp
      | ok event =>
          simp only [hparse]
          rw [verifyDigests_clean, verifyEnvelope_errors]
          constructor
          · rintro ⟨⟨herr, hproject, hfresh, hseq, hprev⟩, hsealed, rfl⟩
            have hfits : Fits projectId st.head event := ⟨hproject, hfresh, hseq, hprev, hsealed⟩
            refine ⟨herr, event, rfl, hfits, ?_⟩
            rw [verifyEnvelope_of { st with eventCount := st.eventCount + 1 } hfits.project
              hfits.fresh hfits.sequence hfits.link]
            rfl
          · rintro ⟨herr, event', heq, hfits, rfl⟩
            cases heq
            refine ⟨⟨herr, hfits.project, hfits.fresh, hfits.sequence, hfits.link⟩,
              hfits.sealed, ?_⟩
            rw [verifyEnvelope_of { st with eventCount := st.eventCount + 1 } hfits.project
              hfits.fresh hfits.sequence hfits.link]
            rfl

omit [LaxInt] in
theorem head_foldl_accept (st : VerifyState) (events : List ProjectEvent) :
    (events.foldl VerifyState.accept st).head = st.head.after events := by
  induction events generalizing st with
  | nil => rfl
  | cons event events ih =>
      change (events.foldl VerifyState.accept (st.accept event)).head = _
      rw [ih]
      rfl

omit [LaxInt] in
theorem errors_foldl_accept (st : VerifyState) (events : List ProjectEvent) :
    (events.foldl VerifyState.accept st).errors = st.errors := by
  induction events generalizing st with
  | nil => rfl
  | cons event events ih => exact ih (st.accept event)

/-- The records of a file pass exactly when they parse to a chain from here. -/
theorem verifyRecords_clean {projectId file : String} {st st' : VerifyState}
    {records : List (Nat × List Char)} :
    verifyRecords projectId file st records = st' ∧ st'.errors = [] ↔
      st.errors = [] ∧ ∃ events, (records.map Prod.snd).mapM parseRecord = .ok events ∧
        Chain projectId st.head events ∧ st' = events.foldl VerifyState.accept st := by
  induction records generalizing st with
  | nil =>
      simp only [verifyRecords, List.map_nil, List.mapM_nil, pure, Except.pure, Except.ok.injEq]
      constructor
      · rintro ⟨rfl, herr⟩
        exact ⟨herr, [], rfl, trivial, rfl⟩
      · rintro ⟨herr, events, rfl, -, rfl⟩
        exact ⟨rfl, herr⟩
  | cons record records ih =>
      rw [verifyRecords, List.map_cons, List.mapM_cons]
      constructor
      · rintro ⟨h, herr⟩
        rcases hrecord : verifyRecord projectId file st record with ⟨st₁, _ | exn⟩
        · simp only [hrecord] at h
          obtain ⟨herr₁, events, hmap, hchain, hst'⟩ := ih.mp ⟨h, herr⟩
          obtain ⟨herr₀, event, hparse, hfits, rfl⟩ := (verifyRecord_clean _).mp ⟨hrecord, herr₁⟩
          refine ⟨herr₀, event :: events, ?_, ⟨hfits, hchain⟩, hst'⟩
          rw [hparse, hmap]
          rfl
        · simp only [hrecord] at h
          subst h
          simp at herr
      · rintro ⟨herr, events, hmap, hchain, rfl⟩
        obtain ⟨event, hparse, hrest⟩ := bind_eq_ok.mp hmap
        obtain ⟨events', hmap', heq⟩ := bind_eq_ok.mp hrest
        cases heq
        have hrecord := (verifyRecord_clean file).mpr ⟨herr, event, hparse, hchain.1, rfl⟩
        simp only [hrecord.1]
        exact ih.mpr ⟨herr, events', hmap', hchain.2, rfl⟩

theorem verifyFile_clean {projectId file : String} {dir : ProjectDir} {st st' : VerifyState} :
    verifyFile projectId dir st file = st' ∧ st'.errors = [] ↔
      st.errors = [] ∧ ∃ events, replayFile (readFile dir file) = .ok events ∧
        Chain projectId st.head events ∧ st' = events.foldl VerifyState.accept st := by
  unfold verifyFile replayFile
  cases hrecords : numberedRecords (readFile dir file) with
  | error exn =>
      simp only [bind, Except.bind, reduceCtorEq, false_and, exists_false, and_false, iff_false,
        not_and]
      rintro rfl
      simp
  | ok records =>
      simp only [bind, Except.bind, mapM_parseRecord]
      exact verifyRecords_clean

theorem verifyFiles_clean {projectId : String} {dir : ProjectDir} {files : List String}
    {st st' : VerifyState} :
    files.foldl (verifyFile projectId dir) st = st' ∧ st'.errors = [] ↔
      st.errors = [] ∧ ∃ parts, files.mapM (fun name => replayFile (readFile dir name)) = .ok parts ∧
        Chain projectId st.head parts.flatten ∧
        st' = parts.flatten.foldl VerifyState.accept st := by
  induction files generalizing st with
  | nil =>
      simp only [List.foldl_nil, List.mapM_nil, pure, Except.pure, Except.ok.injEq]
      constructor
      · rintro ⟨rfl, herr⟩
        exact ⟨herr, [], rfl, trivial, rfl⟩
      · rintro ⟨herr, parts, rfl, -, rfl⟩
        exact ⟨rfl, herr⟩
  | cons file files ih =>
      rw [List.foldl_cons, List.mapM_cons]
      constructor
      · rintro ⟨h, herr⟩
        obtain ⟨herr₁, parts, hmap, hchain, hst'⟩ := ih.mp ⟨h, herr⟩
        obtain ⟨herr₀, events, hread, hchain₀, heq⟩ := verifyFile_clean.mp ⟨rfl, herr₁⟩
        rw [heq, head_foldl_accept] at hchain
        refine ⟨herr₀, events :: parts, ?_, ?_, ?_⟩
        · rw [hread, hmap]
          rfl
        · rw [List.flatten_cons, chain_append]
          exact ⟨hchain₀, hchain⟩
        · rw [List.flatten_cons, List.foldl_append, ← heq]
          exact hst'
      · rintro ⟨herr, parts, hmap, hchain, rfl⟩
        obtain ⟨events, hread, hrest⟩ := bind_eq_ok.mp hmap
        obtain ⟨parts', hmap', heq⟩ := bind_eq_ok.mp hrest
        cases heq
        rw [List.flatten_cons, chain_append] at hchain
        have hfile := verifyFile_clean.mpr ⟨herr, events, hread, hchain.1, rfl⟩
        rw [hfile.1]
        refine ih.mpr ⟨hfile.2, parts', hmap', ?_, ?_⟩
        · rw [head_foldl_accept]
          exact hchain.2
        · rw [List.flatten_cons, List.foldl_append]

/-- The events of the files in order: `list(replay())` of a ledger whose sequence numbers are
positive, as validation makes them. -/
def eventsOf (dir : ProjectDir) : Except Exn (List ProjectEvent) :=
  ((listEventFiles dir).mapM fun name => replayFile (readFile dir name)).map List.flatten

theorem sequence_pos_of_parseRecord {raw : List Char} {event : ProjectEvent}
    (h : parseRecord raw = .ok event) : 1 ≤ event.sequence := by
  unfold parseRecord at h
  split at h
  · cases h
  · rename_i data _
    cases data with
    | dict d => exact (ProjectEvent.valid_of_readFields h).sequence
    | _ => cases h

theorem replay_eq_eventsOf (dir : ProjectDir) : replay dir 1 = eventsOf dir := by
  unfold replay eventsOf
  cases hparts : (listEventFiles dir).mapM fun name => replayFile (readFile dir name) with
  | error exn => rfl
  | ok parts =>
      change Except.ok _ = Except.ok _
      rw [List.filter_eq_self.mpr]
      intro event hevent
      obtain ⟨part, hpart, hmem⟩ := List.mem_flatten.mp hevent
      obtain ⟨name, -, hread⟩ := mem_of_mapM hparts hpart
      obtain ⟨text, -, hparse⟩ := replayFile_ok hread
      obtain ⟨raw, -, hraw⟩ := mem_of_mapM hparse hmem
      simpa using sequence_pos_of_parseRecord hraw

/-- A ledger whose records parse to a chain from the first event. -/
def Verified (projectId : String) (dir : ProjectDir) (events : List ProjectEvent) : Prop :=
  replay dir 1 = .ok events ∧ Chain projectId .start events

theorem verifyState_clean {projectId : String} {dir : ProjectDir} {st : VerifyState} :
    verifyState projectId dir = st ∧ st.errors = [] ↔
      ∃ events, Verified projectId dir events ∧ st = events.foldl VerifyState.accept {} := by
  have hfiles := @verifyFiles_clean _ projectId dir (listEventFiles dir) {} st
  rw [verifyState, hfiles]
  constructor
  · rintro ⟨-, parts, hparts, hchain, hst⟩
    refine ⟨parts.flatten, ⟨?_, hchain⟩, hst⟩
    rw [replay_eq_eventsOf, eventsOf, hparts]
    rfl
  · rintro ⟨events, ⟨hreplay, hchain⟩, hst⟩
    rw [replay_eq_eventsOf] at hreplay
    obtain ⟨parts, hparts, rfl⟩ := map_eq_ok.mp hreplay
    exact ⟨rfl, parts, hparts, hchain, hst⟩

/-- Verification accepts exactly the ledgers that replay to a chain. -/
theorem verify_valid {projectId : String} {dir : ProjectDir} :
    (verify projectId dir).valid = true ↔ ∃ events, Verified projectId dir events := by
  rw [verify, List.isEmpty_iff]
  constructor
  · intro h
    obtain ⟨events, hevents, -⟩ := verifyState_clean.mp ⟨rfl, h⟩
    exact ⟨events, hevents⟩
  · rintro ⟨events, hevents⟩
    have h := verifyState_clean.mpr ⟨events, hevents, rfl⟩
    rw [h.1]
    exact h.2

omit [LaxInt] in
theorem fold_accept_last (st : VerifyState) (events : List ProjectEvent)
    (hseq : st.lastSequence + 1 = st.expectedSequence) (hhash : st.lastEventHash = st.expectedPrevHash) :
    (events.foldl VerifyState.accept st).lastSequence + 1 = (st.head.after events).sequence ∧
      (events.foldl VerifyState.accept st).lastEventHash = (st.head.after events).prevHash := by
  induction events generalizing st with
  | nil => exact ⟨hseq, hhash⟩
  | cons event events ih => exact ih (st.accept event) rfl rfl

/-- The head that verification reports. -/
theorem verify_head {projectId : String} {dir : ProjectDir} {events : List ProjectEvent}
    (h : Verified projectId dir events) :
    (verify projectId dir).lastSequence + 1 = (Head.start.after events).sequence ∧
      (verify projectId dir).lastEventHash = (Head.start.after events).prevHash := by
  have hstate := (verifyState_clean.mpr ⟨events, h, rfl⟩).1
  rw [verify, hstate]
  exact fold_accept_last {} events rfl rfl

theorem Verified.unique {projectId : String} {dir : ProjectDir} {a b : List ProjectEvent}
    (ha : Verified projectId dir a) (hb : Verified projectId dir b) : a = b :=
  Except.ok.inj (ha.1.symm.trans hb.1)

end PowerFramework.Ledger
