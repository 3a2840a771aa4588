import PowerFramework.Ledger.Append
/-!
# When an append is accepted

Canonical JSON is defined on a dict exactly when it is on its values, so the envelope of an
event adds no more than its sequence number to what the payload needs.  A command that meets
`Appendable` is accepted by a ledger that verifies.
-/

namespace PowerFramework.Ledger

open Lib Lib.Failure Lib.Json Lib.Lines

/-- The value has canonical JSON. -/
def Canonical (v : Value) : Prop := ∃ text, canonicalJsonDumps v = .ok text

theorem canonical_iff {v : Value} :
    Canonical v ↔ finiteFloats v = true ∧ ∃ text, dumps v = .ok text := by
  simp only [Canonical, canonicalJsonDumps_ok, exists_and_left]

theorem canonical_str (s : String) : Canonical (.str s) :=
  canonical_iff.mpr ⟨rfl, _, rfl⟩

theorem canonical_optValue (o : Option String) : Canonical (optValue o) := by
  cases o
  · exact canonical_iff.mpr ⟨rfl, _, rfl⟩
  · exact canonical_str _

theorem canonical_list {values : List Value} (h : ∀ v ∈ values, Canonical v) :
    Canonical (.list values) := by
  have hfinite : ∀ p : Value → Bool, (∀ v ∈ values, v.everywhere p = true) →
      everywhereList p values = true := by
    intro p hp
    clear h
    induction values with
    | nil => rfl
    | cons v values ih =>
        rw [List.forall_mem_cons] at hp
        rw [everywhereList, hp.1, ih hp.2]
        rfl
  have hdumps : ∃ texts, dumpsList values = .ok texts := by
    clear hfinite
    induction values with
    | nil => exact ⟨_, rfl⟩
    | cons v values ih =>
        rw [List.forall_mem_cons] at h
        obtain ⟨-, text, htext⟩ := canonical_iff.mp h.1
        obtain ⟨texts, htexts⟩ := ih h.2
        exact ⟨text :: texts, by rw [dumpsList, htext, htexts]; rfl⟩
  obtain ⟨texts, htexts⟩ := hdumps
  refine canonical_iff.mpr ⟨?_, _, by rw [dumps, htexts]; rfl⟩
  rw [finiteFloats, Value.everywhere, hfinite _ fun v hv => (canonical_iff.mp (h v hv)).1]
  rfl

theorem canonical_strList (texts : List String) : Canonical (strList texts) := by
  apply canonical_list
  intro v hv
  obtain ⟨s, -, rfl⟩ := List.mem_map.mp hv
  exact canonical_str s

theorem dumpsDict_iff {d : Dict} :
    (∃ texts, dumpsDict d = .ok texts) ↔ ∀ item ∈ d, ∃ text, dumps item.2 = .ok text := by
  induction d with
  | nil => simp [dumpsDict]
  | cons item d ih =>
      obtain ⟨key, v⟩ := item
      rw [List.forall_mem_cons, ← ih]
      constructor
      · rintro ⟨texts, h⟩
        obtain ⟨text, htext, h⟩ := bind_eq_ok.mp h
        obtain ⟨rest, hrest, -⟩ := bind_eq_ok.mp h
        exact ⟨⟨text, htext⟩, rest, hrest⟩
      · rintro ⟨⟨text, htext⟩, rest, hrest⟩
        exact ⟨_, by rw [dumpsDict, htext, hrest]; rfl⟩

/-- A dict has canonical JSON exactly when its values have. -/
theorem canonical_dict {d : Dict} : Canonical (.dict d) ↔ ∀ item ∈ d, Canonical item.2 := by
  have hdumps : (∃ text, dumps (.dict d) = .ok text) ↔ ∃ texts, dumpsDict d = .ok texts := by
    constructor
    · rintro ⟨text, h⟩
      obtain ⟨texts, htexts, -⟩ := bind_eq_ok.mp h
      exact ⟨texts, htexts⟩
    · rintro ⟨texts, htexts⟩
      exact ⟨_, by rw [dumps, htexts]; rfl⟩
  rw [canonical_iff, hdumps, dumpsDict_iff, finiteFloats, Value.everywhere, Bool.true_and,
    everywhereDict_iff]
  constructor
  · rintro ⟨hfinite, htexts⟩ item hitem
    exact canonical_iff.mpr ⟨hfinite item hitem, htexts item hitem⟩
  · intro h
    exact ⟨fun item hitem => (canonical_iff.mp (h item hitem)).1,
      fun item hitem => (canonical_iff.mp (h item hitem)).2⟩

/-- The number has a decimal text within Python's limit. -/
def Printable (n : Nat) : Prop := (Nat.toDigits 10 n).length ≤ maxStrDigits

theorem canonical_int {n : Nat} : Canonical (.int n) ↔ Printable n := by
  rw [canonical_iff, Printable]
  constructor
  · rintro ⟨-, text, h⟩
    obtain ⟨⟨⟩, hdigits, -⟩ := bind_eq_ok.mp h
    simpa using raiseIf_eq_ok.mp hdigits
  · intro h
    refine ⟨rfl, JsonNumber.intText n, bind_eq_ok.mpr ⟨⟨⟩, ?_, rfl⟩⟩
    simpa using h

theorem sha256Canonical_ok {v : Value} (h : Canonical v) :
    ∃ digest, sha256Canonical v = .ok digest := by
  obtain ⟨text, htext⟩ := h
  exact ⟨_, by rw [sha256Canonical, canonicalJsonBytes, htext]; rfl⟩

theorem canonical_of_sha256 {v : Value} {digest : String} (h : sha256Canonical v = .ok digest) :
    Canonical v := by
  rw [sha256Canonical, map_eq_ok] at h
  obtain ⟨data, hdata, -⟩ := h
  rw [canonicalJsonBytes, map_eq_ok] at hdata
  obtain ⟨text, htext, -⟩ := hdata
  exact ⟨text, htext⟩

/-- The envelope of an event adds its sequence number to what the payload needs. -/
theorem ProjectEvent.canonical_modelDump {e : ProjectEvent} :
    Canonical (.dict e.modelDump) ↔ Canonical (.dict e.payload) ∧ Printable e.sequence := by
  rw [canonical_dict]
  constructor
  · intro h
    exact ⟨h ("payload", .dict e.payload) (by simp [ProjectEvent.modelDump]),
      canonical_int.mp (h ("sequence", .int e.sequence) (by simp [ProjectEvent.modelDump]))⟩
  · rintro ⟨hpayload, hsequence⟩ item hitem
    simp only [ProjectEvent.modelDump, List.mem_cons, List.not_mem_nil, or_false] at hitem
    rcases hitem with rfl | rfl | rfl | rfl | rfl | rfl | rfl | rfl | rfl | rfl | rfl | rfl |
      rfl | rfl | rfl | rfl | rfl | rfl
    all_goals first
      | exact canonical_str _
      | exact canonical_optValue _
      | exact canonical_strList _
      | exact hpayload
      | exact canonical_int.mpr hsequence

theorem computeEventHash_ok {e : ProjectEvent} (h : Canonical (.dict e.modelDump)) :
    ∃ hash, computeEventHash e.modelDump = .ok hash := by
  apply sha256Canonical_ok
  rw [canonical_dict] at h ⊢
  exact fun item hitem => h item (List.mem_filter.mp hitem).1

theorem computeCommandFingerprint_ok {c : Fingerprinted} (h : Canonical (.dict c.payload)) :
    ∃ fingerprint, computeCommandFingerprint c = .ok fingerprint := by
  apply sha256Canonical_ok
  rw [canonical_dict]
  intro item hitem
  simp only [List.mem_cons, List.not_mem_nil, or_false] at hitem
  rcases hitem with rfl | rfl | rfl | rfl | rfl | rfl | rfl | rfl | rfl
  all_goals first
    | exact canonical_str _
    | exact canonical_strList _
    | exact h

/-! ## Acceptance -/

/-- The id derived from an idempotency key is well formed. -/
theorem isEventId_deterministic (projectId key : String) :
    isEventId (generateDeterministicEventId projectId key) = true := by
  rw [generateDeterministicEventId]
  generalize Utf8.encode (projectId ++ ":" ++ key).toList = data
  have hhex : ∀ c ∈ (Sha256.hexdigest data).toList.take 24, Text.isAlnum c = true := by
    intro c hc
    have hdigit : Text.isHex c = true :=
      Sha256.isHexDigit_of_mem_hexdigest (List.mem_of_mem_take hc)
    simp only [Text.isHex, Text.isAlnum, Text.isDigit, Text.isUpper, Text.isLower, Bool.or_eq_true,
      Bool.and_eq_true, decide_eq_true_eq] at hdigit ⊢
    omega
  have hlength : ((Sha256.hexdigest data).toList.take 24).length = 24 := by
    rw [List.length_take, Sha256.length_hexdigest]
    rfl
  generalize (Sha256.hexdigest data).toList.take 24 = digits at hhex hlength
  cases digits with
  | nil => simp at hlength
  | cons c cs =>
      rw [List.forall_mem_cons] at hhex
      rw [List.length_cons] at hlength
      have htokens : cs.all Text.isTokenChar = true :=
        List.all_eq_true.mpr fun d hd => Text.isTokenChar_of_isAlnum (hhex.2 d hd)
      have hlong : cs.length ≤ 127 := by omega
      have hlist : ("evt_" ++ String.ofList (c :: cs)).toList =
          'e' :: 'v' :: 't' :: '_' :: c :: cs := by
        rw [String.toList_append, String.toList_ofList, String.toList_ofList]
        rfl
      rw [isEventId, hlist]
      simp [hhex.1, htokens, hlong]

/-- What a command, the clock and the id generator must give for a ledger with these events to
accept a new event. -/
structure Appendable (draw : Draw) (cmd : CommandFields) (events : List ProjectEvent) : Prop where
  payload : Canonical (.dict cmd.payload)
  sequence : Printable (events.length + 1)
  timestamp : isTimestamp ((truthy cmd.timestamp).getD draw.now) = true
  eventId : isEventId (newEventId cmd cmd.projectId (events.length + 1) draw) = true
  unknown : ∀ event ∈ events, sameEvent cmd event = false

theorem resolveIdempotent_none {cmd : CommandFields} (fingerprint : String)
    {events : List ProjectEvent} (h : ∀ event ∈ events, sameEvent cmd event = false) :
    resolveIdempotent cmd fingerprint events = .ok none := by
  have hfind : events.find? (sameEvent cmd) = none := List.find?_eq_none.mpr (by simpa using h)
  rw [resolveIdempotent_eq, hfind]

variable [LaxInt]

theorem valid_of_parseRecord {raw : List Char} {event : ProjectEvent}
    (h : parseRecord raw = .ok event) : event.Valid := by
  unfold parseRecord at h
  split at h
  · cases h
  · rename_i data _
    cases data with
    | dict d => exact ProjectEvent.valid_of_readFields h
    | _ => cases h

theorem exists_record_of_replay {dir : ProjectDir} {events : List ProjectEvent}
    (h : replay dir 1 = .ok events) {event : ProjectEvent} (hevent : event ∈ events) :
    ∃ raw, parseRecord raw = .ok event := by
  rw [replay_eq_eventsOf] at h
  obtain ⟨parts, hparts, rfl⟩ := map_eq_ok.mp h
  obtain ⟨part, hpart, hmem⟩ := List.mem_flatten.mp hevent
  obtain ⟨name, -, hread⟩ := mem_of_mapM hparts hpart
  obtain ⟨text, -, hparse⟩ := replayFile_ok hread
  obtain ⟨raw, -, hraw⟩ := mem_of_mapM hparse hmem
  exact ⟨raw, hraw⟩

omit [LaxInt] in
theorem isPrevHash_head {head : Head} {events : List ProjectEvent}
    (hhead : isPrevHash head.prevHash = true) (h : ∀ event ∈ events, isHash event.eventHash = true) :
    isPrevHash (head.after events).prevHash = true := by
  induction events generalizing head with
  | nil => exact hhead
  | cons event events ih =>
      rw [List.forall_mem_cons] at h
      apply ih _ h.2
      simp [Head.push, isPrevHash, h.1]

theorem buildEvent_succeeds {draw : Draw} {dir : ProjectDir} {cmd : CommandFields}
    (hcmd : cmd.Checked) {events : List ProjectEvent} (hverified : Verified cmd.projectId dir events)
    (h : Appendable draw cmd events) :
    ∃ event, buildEvent cmd.projectId draw cmd (verify cmd.projectId dir).lastSequence
        (verify cmd.projectId dir).lastEventHash = .ok event ∧ Canonical (.dict event.modelDump) := by
  obtain ⟨hseq, hhash⟩ := verify_head hverified
  rw [head_after_start hverified.2] at hseq
  have hlast : (verify cmd.projectId dir).lastSequence = events.length := by omega
  have hprev : isPrevHash (if events.length + 1 = 1 then ""
      else (verify cmd.projectId dir).lastEventHash) = true := by
    split_ifs
    · rfl
    · rw [hhash]
      refine isPrevHash_head rfl fun event hevent => ?_
      obtain ⟨raw, hraw⟩ := exists_record_of_replay hverified.1 hevent
      exact (valid_of_parseRecord hraw).eventHash
  obtain ⟨payloadDigest, hdigest⟩ := sha256Canonical_ok h.payload
  let built (eventHash : String) : ProjectEvent := eventOf cmd cmd.projectId
    (newEventId cmd cmd.projectId (events.length + 1) draw)
    ((truthy cmd.timestamp).getD draw.now) payloadDigest
    (if events.length + 1 = 1 then "" else (verify cmd.projectId dir).lastEventHash)
    (events.length + 1) eventHash
  have hcanonical : ∀ eventHash, Canonical (.dict (built eventHash).modelDump) := fun _ =>
    ProjectEvent.canonical_modelDump.mpr ⟨h.payload, h.sequence⟩
  obtain ⟨eventHash, heventHash⟩ := computeEventHash_ok (hcanonical "")
  refine ⟨built eventHash, ?_, hcanonical eventHash⟩
  rw [buildEvent, hlast]
  simp only [computePayloadDigest, hdigest, bind, Except.bind]
  rw [computeEventHash_rawEnvelope "", heventHash]
  simp only [setItem_rawEnvelope]
  exact ProjectEvent.readFields_modelDump {
    eventId := h.eventId
    projectId := hcmd.projectId
    sequence := Nat.le_add_left 1 _
    timestamp := h.timestamp
    actor := hcmd.actor
    source := hcmd.source
    sessionId := hcmd.sessionId
    payloadDigest := isHash_of_sha256Canonical hdigest
    prevEventHash := hprev
    eventHash := isHash_of_sha256Canonical heventHash
    correlationId := hcmd.correlationId
    causationId := hcmd.causationId
    idempotencyKey := hcmd.idempotencyKey
    saga := hcmd.saga }

/-- A ledger that verifies behind its repair accepts an appendable command. -/
theorem appendUnchecked_succeeds (draw : Draw) {dir repaired : ProjectDir} {cmd : CommandFields}
    (hcmd : cmd.Checked) {events : List ProjectEvent} (hrecover : recoverDir dir = .ok repaired)
    (hverified : Verified cmd.projectId repaired events) (h : Appendable draw cmd events) :
    ∃ event line, buildEvent cmd.projectId draw cmd (verify cmd.projectId repaired).lastSequence
        (verify cmd.projectId repaired).lastEventHash = .ok event ∧
      eventLine event = .ok line ∧
      appendUnchecked cmd.projectId draw none none dir cmd =
        (writeActive repaired line, .ok event) := by
  obtain ⟨event, hbuild, text, htext⟩ := buildEvent_succeeds hcmd hverified h
  obtain ⟨fingerprint, hfingerprint⟩ := computeCommandFingerprint_ok (c := cmd.toFingerprinted)
    h.payload
  have hline : eventLine event = .ok (text ++ ['\n']) := by
    rw [eventLine, htext]
    rfl
  have hvalid : (verify cmd.projectId repaired).valid = true := verify_valid.mpr ⟨events, hverified⟩
  refine ⟨event, text ++ ['\n'], hbuild, hline, ?_⟩
  have happend : appendRecovered cmd.projectId draw none none repaired cmd =
      .ok (writeActive repaired (text ++ ['\n']), event) := by
    simp only [appendRecovered, hvalid, raiseIf, Bool.true_eq_false, if_false, Option.any_none,
      Bool.false_eq_true, bind, Except.bind, hfingerprint, hverified.1,
      resolveIdempotent_none fingerprint h.unknown, hbuild, hline, pure, Except.pure]
  rw [appendUnchecked, if_neg (by simp), hrecover]
  simp only [happend]

/-! ## The repair of what appends have written -/

/-- The lines of a newline-terminated file as the repair reads them. -/
structure Readable (content : List UInt8) (events : List ProjectEvent) : Prop where
  terminated : tornBytes content = []
  records : (recordLines content).mapM (fun line => parseRecord (strip (Utf8.decodeReplace line))) =
    .ok events

theorem readable_nil : Readable [] [] := ⟨rfl, rfl⟩

omit [LaxInt] in
theorem recordLines_append {content : List UInt8} (h : tornBytes content = []) (more : List UInt8) :
    recordLines (content ++ more) = recordLines content ++ recordLines more := by
  rw [recordLines, universalLines_append (by decide) (terminated_iff.mpr h), List.filter_append]
  rfl

theorem Readable.append {content : List UInt8} {events : List ProjectEvent} {event : ProjectEvent}
    {line : List Char} (h : Readable content events) (hvalid : event.Valid)
    (hplain : Plain (.dict event.payload)) (hline : eventLine event = .ok line) :
    Readable (content ++ Utf8.encode line) (events ++ [event]) := by
  obtain ⟨raw, rfl, hdumps, -⟩ := eventLine_ok hline
  obtain ⟨inner, hbraces⟩ := dumps_dict_braces hdumps
  have hone := oneLine_dumps _ hdumps
  have hfree : ∀ b : UInt8, b.toNat < 32 → b ∉ Utf8.encode raw := by
    intro b hb hmem
    obtain ⟨c, hc, heq⟩ := (Utf8.mem_encode_ascii (by omega)).mp hmem
    have hcontrol := hone c hc
    omega
  have hrecord : (Utf8.encode raw).any (!isByteSpace ·) = true := by
    rw [hbraces]
    rfl
  have hlines : recordLines (Utf8.encode (raw ++ ['\n'])) = [Utf8.encode raw] := by
    have hsplit : Utf8.encode (raw ++ ['\n']) = Utf8.encode raw ++ [newline] :=
      Utf8.encode_append raw ['\n']
    rw [recordLines, hsplit, universalLines_line (by decide) (hfree newline (by decide))
      (hfree carriageReturn (by decide)), List.filter_singleton, hrecord]
    rfl
  refine ⟨tail_eq_nil ((terminated_iff.mpr h.terminated).append
    (Or.inr ⟨Utf8.encode raw, Utf8.encode_append _ _⟩)), ?_⟩
  rw [recordLines_append h.terminated, hlines, mapM_concat_eq_ok]
  refine ⟨events, event, h.records, ?_, rfl⟩
  rw [Utf8.decodeReplace_encode, hbraces, strip_braces, ← hbraces]
  exact (parseRecord_dumps hvalid hdumps).mpr hplain

theorem parseLine_ok {line : List UInt8} {context : String} {event : ProjectEvent}
    (h : parseRecord (strip (Utf8.decodeReplace line)) = .ok event) :
    parseLine line context = .ok event := by
  rw [parseLine, h]

/-- The repair accepts a readable file whose records continue a chain. -/
theorem Readable.check {content : List UInt8} {events : List ProjectEvent} {projectId : String}
    {head : Head} (h : Readable content events) (hchain : Chain projectId head events) :
    checkLastRecords content = .ok ⟨⟩ := by
  have hrecords := h.records
  unfold checkLastRecords
  cases hlines : (recordLines content).reverse with
  | nil => rfl
  | cons last earlier =>
      rw [List.reverse_eq_cons_iff] at hlines
      rw [hlines, mapM_concat_eq_ok] at hrecords
      obtain ⟨front, event, hfront, hevent, rfl⟩ := hrecords
      rw [chain_append] at hchain
      obtain ⟨hpayload, henvelope⟩ := hchain.2.1.sealed
      simp only [parseLine_ok hevent, hpayload, henvelope, bind, Except.bind, raiseIf, ne_eq,
        not_true_eq_false, if_false]
      cases earlier with
      | nil => rfl
      | cons prev earlier =>
          rw [List.reverse_cons, mapM_concat_eq_ok] at hfront
          obtain ⟨start, prevEvent, -, hprev, rfl⟩ := hfront
          have hsequence := hchain.2.1.sequence
          have hlink := hchain.2.1.link
          rw [Head.after_append] at hsequence hlink
          have hnext : event.sequence = prevEvent.sequence + 1 := hsequence
          have hprevHash : event.prevEventHash = prevEvent.eventHash := hlink
          simp only [parseLine_ok hprev, hnext, hprevHash, not_true_eq_false, if_false]

theorem recoverDir_readable {dir : ProjectDir} {events : List ProjectEvent} {projectId : String}
    {head : Head} (h : Readable (readFile dir activeEventsFile) events)
    (hchain : Chain projectId head events) : recoverDir dir = .ok dir := by
  unfold recoverDir recoverTornTail recoverSteps
  rw [if_pos h.terminated]
  split_ifs with hactive
  · simp only [h.check hchain, bind, Except.bind, pure, Except.pure,
      h.terminated, List.length_nil, if_true]
  · rfl

end PowerFramework.Ledger
