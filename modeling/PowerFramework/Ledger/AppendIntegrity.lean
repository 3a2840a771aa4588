import PowerFramework.Ledger.Acceptance
/-!
# What an accepted append does to the ledger

The events of a ledger are those of its archived files and those of the active file, and the
active file splits into its newline-terminated part and a tail.  A writer keeps the first part
and drops the tail; then it either returns an event it has, or adds one line.
-/

namespace PowerFramework.Ledger

open Lib Lib.Failure Lib.Json Lib.Lines

section
variable [LaxInt]

/-- The events of the archived files. -/
def archivedEvents (dir : ProjectDir) : Except Exn (List ProjectEvent) :=
  ((rotatedFiles dir).mapM fun name => replayFile (readFile dir name)).map List.flatten

omit [LaxInt] in
theorem isRotation_active : isRotation activeEventsFile = false := by decide

omit [LaxInt] in
theorem ne_active_of_mem_rotated {dir : ProjectDir} {name : String} (h : name ∈ rotatedFiles dir) :
    name ≠ activeEventsFile := by
  rintro rfl
  rw [rotatedFiles, List.mem_mergeSort, List.mem_filter, isRotation_active] at h
  exact Bool.false_ne_true h.2

omit [LaxInt] in
theorem rotatedFiles_insert (dir : ProjectDir) (content : List UInt8) :
    rotatedFiles (dir.insert activeEventsFile content) = rotatedFiles dir := by
  have hkeys : (dir.insert activeEventsFile content).keys.filter isRotation =
      dir.keys.filter isRotation := by
    rw [AList.keys_insert, List.filter_cons_of_neg (by rw [isRotation_active]; decide)]
    generalize dir.keys = keys
    induction keys with
    | nil => rfl
    | cons key keys ih =>
        by_cases hkey : key = activeEventsFile
        · rw [hkey, List.erase_cons_head, List.filter_cons_of_neg (by rw [isRotation_active]; decide)]
        · rw [List.erase_cons_tail (by simpa using hkey), List.filter_cons, List.filter_cons, ih]
  rw [rotatedFiles, rotatedFiles, hkeys]

omit [LaxInt] in
@[simp] theorem readFile_insert (dir : ProjectDir) (content : List UInt8) :
    readFile (dir.insert activeEventsFile content) activeEventsFile = content := by
  rw [readFile, AList.lookup_insert]
  rfl

omit [LaxInt] in
theorem readFile_insert_ne (dir : ProjectDir) (content : List UInt8) {name : String}
    (h : name ≠ activeEventsFile) :
    readFile (dir.insert activeEventsFile content) name = readFile dir name := by
  rw [readFile, readFile, AList.lookup_insert_ne h]

theorem archivedEvents_insert (dir : ProjectDir) (content : List UInt8) :
    archivedEvents (dir.insert activeEventsFile content) = archivedEvents dir := by
  rw [archivedEvents, archivedEvents, rotatedFiles_insert]
  congr 1
  apply mapM_congr
  intro name hname
  rw [readFile_insert_ne dir content (ne_active_of_mem_rotated hname)]

theorem replayFile_nil : replayFile [] = .ok [] := rfl

/-- A ledger is its archived files and then its active file. -/
theorem eventsOf_eq (dir : ProjectDir) :
    eventsOf dir = do
      let old ← archivedEvents dir
      let current ← replayFile (readFile dir activeEventsFile)
      return old ++ current := by
  unfold eventsOf archivedEvents listEventFiles
  rw [List.mapM_append]
  cases (rotatedFiles dir).mapM fun name => replayFile (readFile dir name) with
  | error exn => rfl
  | ok parts =>
      by_cases hactive : activeEventsFile ∈ dir
      · rw [if_pos hactive]
        cases hread : replayFile (readFile dir activeEventsFile) with
        | error exn =>
            simp only [List.mapM_cons, hread]
            rfl
        | ok current =>
            simp only [List.mapM_cons, hread]
            change Except.ok _ = Except.ok _
            simp
      · have hread : readFile dir activeEventsFile = [] := by
          rw [readFile, AList.lookup_eq_none.mpr hactive]
          rfl
        rw [if_neg hactive, hread]
        change Except.ok _ = Except.ok _
        simp

theorem eventsOf_ok {dir : ProjectDir} {events : List ProjectEvent} :
    eventsOf dir = .ok events ↔ ∃ old current, archivedEvents dir = .ok old ∧
      replayFile (readFile dir activeEventsFile) = .ok current ∧ events = old ++ current := by
  rw [eventsOf_eq, bind_eq_ok]
  constructor
  · rintro ⟨old, hold, h⟩
    obtain ⟨current, hcurrent, h⟩ := bind_eq_ok.mp h
    cases h
    exact ⟨old, current, hold, hcurrent, rfl⟩
  · rintro ⟨old, current, hold, hcurrent, rfl⟩
    exact ⟨old, hold, bind_eq_ok.mpr ⟨current, hcurrent, rfl⟩⟩

/-- The records of a file are those of its newline-terminated part and those of its tail. -/
theorem replayFile_split {content : List UInt8} {events : List ProjectEvent} :
    replayFile content = .ok events ↔ ∃ kept torn, replayFile (keptBytes content) = .ok kept ∧
      replayFile (tornBytes content) = .ok torn ∧ events = kept ++ torn := by
  have hsplit : ∀ text : List Char, replayFile (Utf8.encode text) =
      do let kept ← replayFile (Utf8.encode (kept '\n' text))
         let torn ← replayFile (Utf8.encode (tail '\n' text))
         return kept ++ torn := by
    intro text
    rw [replayFile_encode, replayFile_encode, replayFile_encode, ← List.mapM_append,
      ← recordsOf_append (terminated_kept text), kept_append_tail]
  constructor
  · intro h
    obtain ⟨text, rfl, -⟩ := replayFile_ok h
    obtain ⟨hkept, htorn⟩ := keptBytes_encode text
    rw [hsplit] at h
    obtain ⟨kept, hk, h⟩ := bind_eq_ok.mp h
    obtain ⟨torn, ht, h⟩ := bind_eq_ok.mp h
    cases h
    exact ⟨kept, torn, by rw [hkept, hk], by rw [htorn, ht], rfl⟩
  · rintro ⟨kept, torn, hkept, htorn, rfl⟩
    obtain ⟨text, htext, -⟩ := replayFile_ok hkept
    obtain ⟨text', htext', -⟩ := replayFile_ok htorn
    have hwhole : content = Utf8.encode (text ++ text') := by
      rw [Utf8.encode_append, ← htext, ← htext', kept_append_torn]
    rw [hwhole] at hkept htorn ⊢
    obtain ⟨hk, ht⟩ := keptBytes_encode (text ++ text')
    rw [hsplit, ← hk, ← ht, hkept, htorn]
    rfl

omit [LaxInt] in
theorem readFile_empty (name : String) : readFile ∅ name = [] := by
  rw [readFile, AList.lookup_empty]
  rfl

theorem eventsOf_empty : eventsOf ∅ = .ok [] := by
  have hrotated : rotatedFiles ∅ = [] := by
    rw [rotatedFiles, AList.keys_empty, List.filter_nil, List.mergeSort_nil]
  refine eventsOf_ok.mpr ⟨[], [], ?_, rfl, rfl⟩
  rw [archivedEvents, hrotated]
  rfl

theorem verified_empty (projectId : String) : Verified projectId ∅ [] :=
  ⟨(replay_eq_eventsOf ∅).trans eventsOf_empty, trivial⟩

/-! ## The repair -/

/-- The records behind the last newline of the active file. -/
def tornEvents (dir : ProjectDir) : Except Exn (List ProjectEvent) :=
  replayFile (tornBytes (readFile dir activeEventsFile))

theorem recoverDir_ok {dir dir' : ProjectDir} (h : recoverDir dir = .ok dir') :
    archivedEvents dir' = archivedEvents dir ∧
      readFile dir' activeEventsFile = keptBytes (readFile dir activeEventsFile) ∧
      (dir' = dir ↔ tornBytes (readFile dir activeEventsFile) = []) := by
  unfold recoverDir at h
  by_cases hactive : activeEventsFile ∈ dir
  · rw [if_pos hactive] at h
    obtain ⟨⟨cut, content⟩, hrecover, h⟩ := bind_eq_ok.mp h
    have hcontent := recoverTornTail_ok hrecover
    obtain ⟨steps, -, hcut⟩ := bind_eq_ok.mp hrecover
    have hcut : cut = (tornBytes (readFile dir activeEventsFile)).length := by
      cases hcut
      rfl
    simp only [pure, Except.pure, Except.ok.injEq] at h
    by_cases hzero : cut = 0
    · have htorn : tornBytes (readFile dir activeEventsFile) = [] :=
        List.eq_nil_of_length_eq_zero (hcut.symm.trans hzero)
      rw [if_pos hzero] at h
      subst h
      exact ⟨rfl, (kept_of_torn htorn).symm, iff_of_true rfl htorn⟩
    · have htorn : tornBytes (readFile dir activeEventsFile) ≠ [] := by
        intro hnil
        rw [hnil] at hcut
        exact hzero hcut
      rw [if_neg hzero] at h
      subst h
      refine ⟨archivedEvents_insert _ _, by rw [readFile_insert, hcontent], ?_⟩
      refine iff_of_false (fun heq => htorn ?_) htorn
      have hread := congrArg (readFile · activeEventsFile) heq
      simp only [readFile_insert, hcontent] at hread
      rw [← hread]
      exact tornBytes_kept _
  · rw [if_neg hactive] at h
    cases h
    have hread : readFile dir activeEventsFile = [] := by
      rw [readFile, AList.lookup_eq_none.mpr hactive]
      rfl
    rw [hread]
    exact ⟨rfl, rfl, iff_of_true rfl rfl⟩

/-- The repair drops the records of the tail, and only these. -/
theorem eventsOf_recovered {dir dir' : ProjectDir} (hrecover : recoverDir dir = .ok dir')
    {events : List ProjectEvent} (h : eventsOf dir = .ok events) :
    ∃ kept torn, eventsOf dir' = .ok kept ∧ tornEvents dir = .ok torn ∧ events = kept ++ torn := by
  obtain ⟨harchived, hread, -⟩ := recoverDir_ok hrecover
  obtain ⟨old, current, hold, hcurrent, rfl⟩ := eventsOf_ok.mp h
  obtain ⟨kept, torn, hkept, htorn, rfl⟩ := replayFile_split.mp hcurrent
  refine ⟨old ++ kept, torn, ?_, htorn, by rw [List.append_assoc]⟩
  exact eventsOf_ok.mpr ⟨old, kept, by rw [harchived, hold], by rw [hread, hkept], rfl⟩

/-! ## The write -/

/-- A text written behind a newline-terminated file adds what its records parse to. -/
theorem eventsOf_written {dir : ProjectDir} {kept : List ProjectEvent}
    (hterm : tornBytes (readFile dir activeEventsFile) = []) (h : eventsOf dir = .ok kept)
    (added : List Char) :
    eventsOf (writeActive dir added) = ((recordsOf added).mapM parseRecord).map (kept ++ ·) := by
  obtain ⟨old, current, hold, hcurrent, rfl⟩ := eventsOf_ok.mp h
  obtain ⟨text, htext, hparse⟩ := replayFile_ok hcurrent
  have htail : Terminated '\n' text := by
    rw [htext, (keptBytes_encode text).2] at hterm
    exact terminated_iff.mpr (Utf8.encode_injective hterm)
  have hread : replayFile (readFile (writeActive dir added) activeEventsFile) =
      do let events ← (recordsOf added).mapM parseRecord
         return current ++ events := by
    rw [writeActive, readFile_insert, htext, ← Utf8.encode_append, replayFile_encode,
      recordsOf_append htail, List.mapM_append, hparse]
    rfl
  rw [eventsOf_eq, hread, writeActive, archivedEvents_insert, hold]
  cases (recordsOf added).mapM parseRecord with
  | error exn => rfl
  | ok parsed =>
      change Except.ok (old ++ (current ++ parsed)) = Except.ok (old ++ current ++ parsed)
      rw [List.append_assoc]

/-- A line written behind a newline-terminated file adds what it parses to. -/
theorem eventsOf_writeActive {dir : ProjectDir} {kept : List ProjectEvent}
    (hterm : tornBytes (readFile dir activeEventsFile) = []) (h : eventsOf dir = .ok kept)
    {line raw : List Char} (hline : recordsOf line = [raw]) :
    eventsOf (writeActive dir line) = (parseRecord raw).map fun event => kept ++ [event] := by
  rw [eventsOf_written hterm h, hline, List.mapM_cons]
  cases parseRecord raw <;> rfl

omit [LaxInt] in
theorem torn_writeActive {dir : ProjectDir} {line : List Char}
    (hterm : tornBytes (readFile dir activeEventsFile) = []) (hline : Terminated '\n' line) :
    tornBytes (readFile (writeActive dir line) activeEventsFile) = [] := by
  have hend : Terminated newline (Utf8.encode line) := by
    rcases hline with rfl | ⟨front, rfl⟩
    · exact Or.inl rfl
    · exact Or.inr ⟨Utf8.encode front, by rw [Utf8.encode_append]; rfl⟩
  rw [writeActive, readFile_insert]
  exact tail_eq_nil ((terminated_iff.mpr hterm).append hend)

/-- A chain of valid events with plain canonical payloads is the content of some ledger. -/
theorem exists_verified {projectId : String} {events : List ProjectEvent}
    (hchain : Chain projectId .start events)
    (hvalid : ∀ event ∈ events, event.Valid ∧ Plain (.dict event.payload) ∧
      Canonical (.dict event.modelDump)) :
    ∃ dir, Verified projectId dir events ∧ tornBytes (readFile dir activeEventsFile) = [] := by
  induction events using List.reverseRecOn with
  | nil => exact ⟨∅, verified_empty projectId, by rw [readFile_empty]; rfl⟩
  | append_singleton events event ih =>
      have hfront := (chain_append.mp hchain).1
      obtain ⟨dir, ⟨hread, -⟩, hterm⟩ :=
        ih hfront fun e he => hvalid e (List.mem_append_left [event] he)
      obtain ⟨hevent, hplain, text, htext⟩ := hvalid event (by simp)
      have hline : eventLine event = .ok (text ++ ['\n']) := bind_eq_ok.mpr ⟨text, htext, rfl⟩
      obtain ⟨raw, hraw, hdumps, hrecords⟩ := eventLine_ok hline
      rw [replay_eq_eventsOf] at hread
      have hafter := eventsOf_writeActive hterm hread hrecords
      rw [(parseRecord_dumps hevent hdumps).mpr hplain] at hafter
      refine ⟨writeActive dir (text ++ ['\n']), ⟨?_, hchain⟩, ?_⟩
      · rw [replay_eq_eventsOf, hafter]
        rfl
      · exact torn_writeActive hterm (terminated_eventLine hline)

/-! ## What a call returns -/

omit [LaxInt] in
theorem sameCommand_ok {fingerprint label : String} {event event' : ProjectEvent}
    (h : sameCommand fingerprint label event = .ok event') : event' = event := by
  obtain ⟨stored, -, h⟩ := bind_eq_ok.mp h
  obtain ⟨-, -, h⟩ := bind_eq_ok.mp h
  cases h
  rfl

omit [LaxInt] in
/-- The scan answers with the first event that has the command's key or its id. -/
theorem resolveIdempotent_ok {cmd : CommandFields} {fingerprint : String}
    {events : List ProjectEvent} {found : Option ProjectEvent}
    (h : resolveIdempotent cmd fingerprint events = .ok found) :
    events.find? (sameEvent cmd) = found := by
  rw [resolveIdempotent_eq] at h
  cases hfind : events.find? (sameEvent cmd) with
  | none =>
      rw [hfind] at h
      exact Except.ok.inj h
  | some event =>
      rw [hfind] at h
      obtain ⟨stored, hstored, rfl⟩ := map_eq_ok.mp h
      rw [sameCommand_ok hstored]

section
variable {projectId : String} {draw : Draw} {expectedLastSequence : Option Nat}
  {expectedLastEventHash : Option String} {dir dir' : ProjectDir} {cmd : CommandFields}
  {event : ProjectEvent}

theorem appendUnchecked_ok
    (h : appendUnchecked projectId draw expectedLastSequence expectedLastEventHash dir cmd =
      (dir', .ok event)) :
    cmd.projectId = projectId ∧ ∃ repaired, recoverDir dir = .ok repaired ∧
      appendRecovered projectId draw expectedLastSequence expectedLastEventHash repaired cmd =
        .ok (dir', event) := by
  unfold appendUnchecked at h
  split_ifs at h with hproject
  · simp at h
  · refine ⟨not_not.mp hproject, ?_⟩
    cases hrecover : recoverDir dir with
    | error exn => simp [hrecover] at h
    | ok repaired =>
        simp only [hrecover] at h
        cases happend : appendRecovered projectId draw expectedLastSequence expectedLastEventHash
            repaired cmd with
        | error exn => simp [happend] at h
        | ok result =>
            simp only [happend, Prod.mk.injEq, Except.ok.injEq] at h
            exact ⟨repaired, rfl, by rw [happend, ← h.1, ← h.2]⟩

/-- An append that returns has either found an event of the command and written nothing, or
built a new one behind the verified head and written its line. -/
theorem appendRecovered_ok
    (h : appendRecovered projectId draw expectedLastSequence expectedLastEventHash dir cmd =
      .ok (dir', event)) :
    ∃ events, Verified projectId dir events ∧
      ((dir' = dir ∧ events.find? (sameEvent cmd) = some event) ∨
        ((∀ other ∈ events, sameEvent cmd other = false) ∧
          buildEvent projectId draw cmd (verify projectId dir).lastSequence
            (verify projectId dir).lastEventHash = .ok event ∧
          ∃ line, eventLine event = .ok line ∧ dir' = writeActive dir line)) := by
  obtain ⟨⟨⟩, hvalid, h⟩ := bind_eq_ok.mp h
  obtain ⟨events, hverified⟩ := verify_valid.mp (by simpa using raiseIf_eq_ok.mp hvalid)
  refine ⟨events, hverified, ?_⟩
  obtain ⟨-, -, h⟩ := bind_eq_ok.mp h
  obtain ⟨-, -, h⟩ := bind_eq_ok.mp h
  obtain ⟨fingerprint, -, h⟩ := bind_eq_ok.mp h
  obtain ⟨_, hreplay, h⟩ := bind_eq_ok.mp h
  obtain rfl := Except.ok.inj (hverified.1.symm.trans hreplay)
  obtain ⟨found, hfound, h⟩ := bind_eq_ok.mp h
  have hfind := resolveIdempotent_ok hfound
  cases found with
  | some stored =>
      cases h
      exact Or.inl ⟨rfl, hfind⟩
  | none =>
      obtain ⟨built, hbuilt, h⟩ := bind_eq_ok.mp h
      obtain ⟨line, hline, h⟩ := bind_eq_ok.mp h
      cases h
      have hnone : ∀ other ∈ events, sameEvent cmd other = false := by
        simpa using List.find?_eq_none.mp hfind
      exact Or.inr ⟨hnone, hbuilt, line, hline, rfl⟩

end

/-- What the new event's own content must satisfy for the ledger to keep verifying: an id that no
earlier event has, and a payload of JSON's own types. -/
def NewEventSafe (projectId : String) (draw : Draw) (cmd : CommandFields)
    (events : List ProjectEvent) : Prop :=
  newEventId cmd projectId (events.length + 1) draw ∉ events.map ProjectEvent.eventId ∧
    Plain (.dict cmd.payload)

/-- The bytes behind the last newline hold no record, and there are none at all where the call
only finds an earlier event. -/
def AppendSafe (projectId : String) (draw : Draw) (dir : ProjectDir) (cmd : CommandFields)
    (events : List ProjectEvent) : Prop :=
  tornEvents dir = .ok [] ∧
    if events.any (sameEvent cmd) then tornBytes (readFile dir activeEventsFile) = []
    else NewEventSafe projectId draw cmd events

/-- A built event continues a verified ledger when its id is new. -/
theorem fits_of_buildEvent {draw : Draw} {dir : ProjectDir} {cmd : CommandFields}
    (hnormal : cmd.Normal) {events : List ProjectEvent} {event : ProjectEvent}
    (hverified : Verified cmd.projectId dir events)
    (h : buildEvent cmd.projectId draw cmd (verify cmd.projectId dir).lastSequence
      (verify cmd.projectId dir).lastEventHash = .ok event) :
    event.Valid ∧ event.payload = cmd.payload ∧
      event.eventId = newEventId cmd cmd.projectId (events.length + 1) draw ∧
      (Fits cmd.projectId (Head.start.after events) event ↔
        event.eventId ∉ events.map ProjectEvent.eventId) := by
  obtain ⟨hseq, hhash⟩ := verify_head hverified
  rw [head_after_start hverified.2] at hseq
  have hlast : (verify cmd.projectId dir).lastSequence = events.length := by omega
  obtain ⟨hvalid, hsealed, timestamp, payloadDigest, eventHash, hevent⟩ := buildEvent_ok hnormal h
  rw [hlast] at hevent
  have hseen : ∀ id, id ∉ (Head.start.after events).seen ↔ id ∉ events.map ProjectEvent.eventId := by
    intro id
    rw [Head.seen_after, Head.start, List.append_nil, List.mem_reverse]
  refine ⟨hvalid, by rw [hevent]; rfl, by rw [hevent]; rfl, fun hfits => ?_, fun hfresh => ?_⟩
  · exact (hseen _).mp hfits.fresh
  · refine ⟨by rw [hevent]; rfl, (hseen _).mpr hfresh, ?_, ?_, hsealed⟩
    · rw [head_after_start hverified.2, hevent]
      rfl
    · rw [← hhash, hevent]
      change (if events.length + 1 = 1 then "" else (verify cmd.projectId dir).lastEventHash) = _
      split_ifs with hzero
      · obtain rfl := List.eq_nil_of_length_eq_zero (by omega : events.length = 0)
        rw [hhash]
        rfl
      · rfl

/-- What a new line adds to a verified, newline-terminated ledger is verified exactly when its
event is new and reads back. -/
theorem verified_writeActive {draw : Draw} {dir : ProjectDir} {cmd : CommandFields}
    (hnormal : cmd.Normal) {kept : List ProjectEvent} {event : ProjectEvent}
    (hterm : tornBytes (readFile dir activeEventsFile) = [])
    (hverified : Verified cmd.projectId dir kept)
    (hbuild : buildEvent cmd.projectId draw cmd (verify cmd.projectId dir).lastSequence
      (verify cmd.projectId dir).lastEventHash = .ok event)
    {line : List Char} (hline : eventLine event = .ok line) (events : List ProjectEvent) :
    Verified cmd.projectId (writeActive dir line) (events ++ [event]) ↔
      events = kept ∧ NewEventSafe cmd.projectId draw cmd kept := by
  obtain ⟨hvalid, hpayload, hid, hfits⟩ := fits_of_buildEvent hnormal hverified hbuild
  obtain ⟨raw, rfl, hdumps, hrecords⟩ := eventLine_ok hline
  have hkept := hverified.1
  rw [replay_eq_eventsOf] at hkept
  have hafter := eventsOf_writeActive hterm hkept hrecords
  have hparse := parseRecord_dumps hvalid hdumps
  rw [hpayload] at hparse
  rw [Verified, replay_eq_eventsOf, hafter, NewEventSafe, ← hid, ← hfits, ← hparse]
  constructor
  · rintro ⟨hread, hchain⟩
    obtain ⟨parsed, hparsed, heq⟩ := map_eq_ok.mp hread
    obtain ⟨rfl, hlast⟩ := List.append_inj' heq rfl
    obtain rfl := List.singleton_inj.mp hlast
    rw [chain_append] at hchain
    exact ⟨rfl, hchain.2.1, hparsed⟩
  · rintro ⟨rfl, hfit, hparsed⟩
    refine ⟨by rw [hparsed]; rfl, ?_⟩
    rw [chain_append]
    exact ⟨hverified.2, hfit, trivial⟩

/-- An accepted append keeps the ledger as it was, or verified and longer by its event, exactly
when it is safe. -/
theorem appendUnchecked_integrity {draw : Draw} {expectedLastSequence : Option Nat}
    {expectedLastEventHash : Option String} {dir dir' : ProjectDir} {cmd : CommandFields}
    (hnormal : cmd.Normal) {events : List ProjectEvent} {event : ProjectEvent}
    (hverified : Verified cmd.projectId dir events)
    (h : appendUnchecked cmd.projectId draw expectedLastSequence expectedLastEventHash dir cmd =
      (dir', .ok event)) :
    ((dir' = dir ∧ event ∈ events) ∨ Verified cmd.projectId dir' (events ++ [event])) ↔
      AppendSafe cmd.projectId draw dir cmd events := by
  obtain ⟨-, repaired, hrecover, happend⟩ := appendUnchecked_ok h
  have hevents := hverified.1
  rw [replay_eq_eventsOf] at hevents
  obtain ⟨kept, torn, hkept, htorn, rfl⟩ := eventsOf_recovered hrecover hevents
  obtain ⟨-, hread, hsame⟩ := recoverDir_ok hrecover
  have hterm : tornBytes (readFile repaired activeEventsFile) = [] := by
    rw [hread]
    exact tornBytes_kept _
  obtain ⟨events', hverified', hcases⟩ := appendRecovered_ok happend
  obtain rfl : events' = kept := by
    have hreplay := hverified'.1
    rw [replay_eq_eventsOf, hkept] at hreplay
    exact (Except.ok.inj hreplay).symm
  have hnil : tornEvents dir = .ok [] ↔ torn = [] := by
    rw [htorn, Except.ok.injEq]
  rw [AppendSafe, hnil]
  rcases hcases with ⟨rfl, hfind⟩ | ⟨hnone, hbuild, line, hline, rfl⟩
  · have hmem := List.mem_of_find?_eq_some hfind
    have hfound := List.find?_some hfind
    have hany : (events' ++ torn).any (sameEvent cmd) = true := by
      rw [List.any_eq_true]
      exact ⟨event, by simp [hmem], hfound⟩
    rw [if_pos hany, ← hsame]
    constructor
    · rintro (⟨heq, -⟩ | hlong)
      · refine ⟨?_, heq⟩
        have hbytes := hsame.mp heq
        rw [tornEvents, hbytes] at htorn
        exact (Except.ok.inj htorn).symm
      · have hlength := congrArg List.length (hverified'.unique hlong)
        simp at hlength
    · rintro ⟨-, heq⟩
      exact Or.inl ⟨heq, by simp [hmem]⟩
  · have hne : writeActive repaired line ≠ dir := by
      intro heq
      obtain ⟨raw, rfl, -⟩ := eventLine_ok hline
      have hcontent := congrArg (readFile · activeEventsFile) heq
      simp only [writeActive, readFile_insert, hread] at hcontent
      have htail := List.append_cancel_left (hcontent.trans (kept_append_torn _).symm)
      have hmem : newline ∈ tornBytes (readFile dir activeEventsFile) := by
        rw [← htail, Utf8.encode_append]
        exact List.mem_append_right _ (by decide)
      exact notMem_tail _ hmem
    rw [verified_writeActive hnormal hterm hverified' hbuild hline _, List.append_right_eq_self,
      or_iff_right (fun hstored => hne hstored.1)]
    refine and_congr_right fun hempty => ?_
    subst hempty
    have hany : ¬ (events' ++ []).any (sameEvent cmd) = true := by
      rw [List.append_nil, List.any_eq_true]
      rintro ⟨other, hother, heq⟩
      rw [hnone other hother] at heq
      exact Bool.false_ne_true heq
    rw [if_neg hany, List.append_nil]

/-! ## The three writers -/

/-- The writers of the store, with the head that the trusted one may be told to expect. -/
inductive Writer where
  | append
  | appendUntrusted
  | appendGoverned (expectedLastSequence : Option Nat) (expectedLastEventHash : Option String)

def Writer.run (writer : Writer) (projectId : String) (draw : Draw) (dir : ProjectDir)
    (cmd : CommandFields) : ProjectDir × Except Exn ProjectEvent :=
  match writer with
  | .append => Ledger.append projectId draw dir cmd
  | .appendUntrusted => Ledger.appendUntrusted projectId draw dir cmd
  | .appendGoverned expectedLastSequence expectedLastEventHash =>
      Ledger.appendGoverned projectId draw expectedLastSequence expectedLastEventHash dir cmd

/-- Which commands a writer refuses before it opens the ledger. -/
def Writer.refuses : Writer → CommandFields → Bool
  | .append, cmd =>
      cmd.eventType.governance || (cmd.source == pseGovernance && cmd.eventType.observation)
  | .appendUntrusted, cmd => cmd.eventType.governance
  | .appendGoverned .., cmd =>
      cmd.source != pseGovernance || !(cmd.eventType.governance || cmd.eventType.observation)

def Writer.refusal : Writer → Exn
  | .appendGoverned .. => permissionError "Trusted PSE writer requires governed provenance"
  | _ => permissionError "Public writer rejects governance-bearing event"

/-- The source a writer stores the event under. -/
def Writer.sourceOf : Writer → CommandFields → String
  | .appendUntrusted, cmd =>
      if cmd.eventType.observation then "untrusted_ingest" else cmd.source
  | _, cmd => cmd.source

def Writer.expected : Writer → Option Nat × Option String
  | .appendGoverned expectedLastSequence expectedLastEventHash =>
      (expectedLastSequence, expectedLastEventHash)
  | _ => (none, none)

/-- A writer appends the commands it does not refuse, under its source. -/
theorem Writer.run_eq (writer : Writer) (projectId : String) (draw : Draw) (dir : ProjectDir)
    (cmd : AppendCommand) :
    writer.run projectId draw dir cmd.toCommandFields =
      if writer.refuses cmd.toCommandFields then (dir, .error writer.refusal)
      else appendUnchecked projectId draw writer.expected.1 writer.expected.2 dir
        (cmd.withSource (writer.sourceOf cmd.toCommandFields)) := by
  cases writer with
  | append =>
      simp only [Writer.run, Ledger.append, CommandFields.modelValidate_modelDump cmd.valid.checked]
      rfl
  | appendUntrusted =>
      have hrefuses : Writer.appendUntrusted.refuses cmd.toCommandFields =
          cmd.eventType.governance := rfl
      simp only [Writer.run, Ledger.appendUntrusted, CommandFields.modelValidate_modelDump cmd.valid.checked,
        Writer.sourceOf, hrefuses]
      split_ifs <;> rfl
  | appendGoverned expectedLastSequence expectedLastEventHash => rfl

/-- A writer that returns has appended the command under its source. -/
theorem Writer.run_ok {writer : Writer} {projectId : String} {draw : Draw} {dir dir' : ProjectDir}
    {cmd : AppendCommand} {event : ProjectEvent}
    (h : writer.run projectId draw dir cmd.toCommandFields = (dir', .ok event)) :
    writer.refuses cmd.toCommandFields = false ∧
      appendUnchecked projectId draw writer.expected.1 writer.expected.2 dir
          (cmd.withSource (writer.sourceOf cmd.toCommandFields)) = (dir', .ok event) := by
  rw [Writer.run_eq] at h
  split_ifs at h with hrefused
  · simp at h
  · exact ⟨by simpa using hrefused, h⟩

theorem Writer.sourceOf_valid (writer : Writer) (cmd : AppendCommand) :
    (cmd.withSource (writer.sourceOf cmd.toCommandFields)).Valid := by
  have hsource : lengthBetween 64 (writer.sourceOf cmd.toCommandFields) = true := by
    cases writer with
    | appendUntrusted =>
        rw [Writer.sourceOf]
        split_ifs
        · decide
        · exact cmd.valid.source
    | append => exact cmd.valid.source
    | appendGoverned expectedLastSequence expectedLastEventHash => exact cmd.valid.source
  exact { cmd.valid with source := hsource }

/-- A ledger that verifies behind its repair accepts an appendable command; the longer ledger
verifies when the event is safe. -/
theorem Writer.run_accepts (writer : Writer) (draw : Draw) {dir repaired : ProjectDir}
    (cmd : AppendCommand) {events : List ProjectEvent}
    (hadmits : writer.refuses cmd.toCommandFields = false) (hexpected : writer.expected = (none, none))
    (hrecover : recoverDir dir = .ok repaired)
    (hverified : Verified cmd.projectId repaired events)
    (happendable : Appendable draw cmd.toCommandFields events) :
    ∃ dir' event, writer.run cmd.projectId draw dir cmd.toCommandFields = (dir', .ok event) ∧
      (Verified cmd.projectId dir' (events ++ [event]) ↔
        NewEventSafe cmd.projectId draw cmd.toCommandFields events) ∧
      (Plain (.dict cmd.payload) → ∀ {current}, Readable (readFile repaired activeEventsFile) current →
        Readable (readFile dir' activeEventsFile) (current ++ [event])) ∧
      event.toFingerprinted =
        { cmd.toFingerprinted with source := writer.sourceOf cmd.toCommandFields } ∧
      event.idempotencyKey = cmd.idempotencyKey ∧
      event.eventId = newEventId cmd.toCommandFields cmd.projectId (events.length + 1) draw := by
  have hvalid := writer.sourceOf_valid cmd
  obtain ⟨event, line, hbuild, hline, hrun⟩ := appendUnchecked_succeeds draw hvalid.checked
    hrecover hverified ⟨happendable.payload, happendable.sequence, happendable.timestamp,
      happendable.eventId, happendable.unknown⟩
  have hterm : tornBytes (readFile repaired activeEventsFile) = [] := by
    rw [(recoverDir_ok hrecover).2.1]
    exact tornBytes_kept _
  obtain ⟨hfields, -, timestamp, payloadDigest, eventHash, hevent⟩ :=
    buildEvent_ok hvalid.saga hbuild
  have hpayload : event.payload = cmd.payload := by
    rw [hevent]
    rfl
  have hsafe := verified_writeActive hvalid.saga hterm hverified hbuild hline events
  rw [eq_self, true_and] at hsafe
  refine ⟨_, event, ?_, hsafe, fun hplain _ hread => ?_, ?_, ?_, ?_⟩
  · rw [Writer.run_eq, hadmits, hexpected]
    exact hrun
  · rw [writeActive, readFile_insert]
    exact hread.append hfields (hpayload ▸ hplain) hline
  · rw [hevent]
    rfl
  · rw [hevent]
    rfl
  · exact (fits_of_buildEvent hvalid.saga hverified hbuild).2.2.1

theorem verified_iff {projectId : String} {dir : ProjectDir} {events : List ProjectEvent} :
    Verified projectId dir events ↔
      (verify projectId dir).valid = true ∧ replay dir 1 = .ok events := by
  rw [verify_valid]
  constructor
  · exact fun hfound => ⟨⟨_, hfound⟩, hfound.1⟩
  · rintro ⟨⟨found, hfound⟩, hread⟩
    obtain rfl := Except.ok.inj (hfound.1.symm.trans hread)
    exact hfound

/-- An accepted command leaves a verified ledger unchanged, or verified and longer by the event
that is returned, exactly when it is safe. -/
theorem append_integrity (writer : Writer) (draw : Draw) {projectId : String}
    {dir dir' : ProjectDir} (cmd : AppendCommand) {events : List ProjectEvent} {event : ProjectEvent}
    (hvalid : (verify projectId dir).valid = true) (hreplay : replay dir 1 = .ok events)
    (h : writer.run projectId draw dir cmd.toCommandFields = (dir', .ok event)) :
    ((dir' = dir ∧ event ∈ events) ∨
      ((verify projectId dir').valid = true ∧ replay dir' 1 = .ok (events ++ [event]))) ↔
    AppendSafe projectId draw dir cmd.toCommandFields events := by
  obtain ⟨-, hrun⟩ := Writer.run_ok h
  obtain rfl : cmd.projectId = projectId := (appendUnchecked_ok hrun).1
  obtain ⟨events', hverified⟩ := verify_valid.mp hvalid
  obtain rfl := Except.ok.inj (hverified.1.symm.trans hreplay)
  rw [← verified_iff]
  have hnormal : (cmd.withSource (writer.sourceOf cmd.toCommandFields)).Normal := cmd.valid.saga
  exact appendUnchecked_integrity hnormal hverified hrun

end

attribute [local instance] LaxInt.intOnly

/-- A session note of project `prj_abc`, with the id and the key its caller chooses. -/
def sessionNote (eventId idempotencyKey : Option String) : CommandFields where
  projectId := "prj_abc"
  eventType := .sessionStarted
  payload := []
  actor := "owner"
  source := "agent"
  sessionId := none
  artifactRefs := []
  evidenceRefs := []
  correlationId := none
  causationId := none
  idempotencyKey := idempotencyKey
  eventId := eventId
  timestamp := none

def sampleDraw : Draw := ⟨"2026-01-01T00:00:00Z", "0123456789ab"⟩

theorem sessionNote_valid {eventId idempotencyKey : Option String}
    (heventId : ∀ s, eventId = some s → isEventId s = true)
    (hkey : ∀ s, idempotencyKey = some s → lengthAtMost 128 s = true) :
    (sessionNote eventId idempotencyKey).Valid where
  projectId := (by decide : isProjectId "prj_abc" = true)
  actor := (by decide : lengthBetween 128 "owner" = true)
  source := (by decide : lengthBetween 64 "agent" = true)
  sessionId _ h := nomatch h
  correlationId _ h := nomatch h
  causationId _ h := nomatch h
  idempotencyKey := hkey
  eventId := heventId
  timestamp _ h := nomatch h
  saga := rfl
  ordered := rfl

theorem appendable_sessionNote {eventId idempotencyKey : Option String}
    {events : List ProjectEvent} (hlength : events.length < 9)
    (hid : isEventId (newEventId (sessionNote eventId idempotencyKey) "prj_abc" (events.length + 1)
      sampleDraw) = true)
    (hunknown : ∀ event ∈ events, sameEvent (sessionNote eventId idempotencyKey) event = false) :
    Appendable sampleDraw (sessionNote eventId idempotencyKey) events where
  payload := canonical_dict.mpr (by simp [sessionNote])
  sequence := by
    rw [Printable, Nat.toDigits_of_lt_base (by omega)]
    simp [maxStrDigits]
  timestamp := (by decide : isTimestamp "2026-01-01T00:00:00Z" = true)
  eventId := hid
  unknown := hunknown

def plainNote : AppendCommand := ⟨sessionNote none none, sessionNote_valid (by simp) (by simp)⟩

/-- The note without id and key is appended to the empty ledger. -/
theorem append_integrity_sample : ∃ dir event,
    append "prj_abc" sampleDraw ∅ plainNote.toCommandFields = (dir, .ok event) ∧
      ((dir = ∅ ∧ event ∈ []) ∨
        ((verify "prj_abc" dir).valid = true ∧ replay dir 1 = .ok ([] ++ [event]))) := by
  have hempty := verified_empty "prj_abc"
  obtain ⟨dir, event, hrun, -⟩ := Writer.run_accepts .append sampleDraw
    plainNote rfl rfl (rfl : recoverDir ∅ = .ok ∅) hempty
    (appendable_sessionNote (by decide) (by decide +kernel) (by simp))
  have hsafe : AppendSafe "prj_abc" sampleDraw ∅ plainNote.toCommandFields [] :=
    ⟨rfl, by simp, rfl, rfl⟩
  exact ⟨dir, event, hrun, (append_integrity .append sampleDraw plainNote
    (verify_valid.mpr ⟨[], hempty⟩) hempty.1 hrun).mpr hsafe⟩

/-- A note whose explicit id is the one derived for key `k`. -/
def idNote : AppendCommand :=
  ⟨sessionNote (some (generateDeterministicEventId "prj_abc" "k")) none, sessionNote_valid
    (fun _ h => Option.some.inj h ▸ isEventId_deterministic _ _) (by simp)⟩

def keyNote : AppendCommand :=
  ⟨sessionNote none (some "k"), sessionNote_valid (by simp)
    fun _ h => Option.some.inj h ▸ (by decide : lengthAtMost 128 "k" = true)⟩

theorem newEventId_keyNote (sequence : Nat) :
    newEventId keyNote.toCommandFields "prj_abc" sequence sampleDraw =
      generateDeterministicEventId "prj_abc" "k" := rfl

theorem newEventId_idNote (sequence : Nat) :
    newEventId idNote.toCommandFields "prj_abc" sequence sampleDraw =
      generateDeterministicEventId "prj_abc" "k" := by
  have hne : generateDeterministicEventId "prj_abc" "k" ≠ "" := by
    intro heq
    have hid := isEventId_deterministic "prj_abc" "k"
    rw [heq] at hid
    exact absurd hid (by decide)
  have htruthy : truthy idNote.eventId = some (generateDeterministicEventId "prj_abc" "k") := by
    change (some _).filter _ = _
    rw [Option.filter_some, if_pos (by simpa using hne)]
  rw [newEventId, htruthy]

/-- An explicit event id and an idempotency key that derives it: both notes are accepted, and the
ledger no longer verifies. -/
theorem append_breaks_ledger : ∃ dir first dir' second,
    append "prj_abc" sampleDraw ∅ idNote.toCommandFields = (dir, .ok first) ∧
      (verify "prj_abc" dir).valid = true ∧ replay dir 1 = .ok [first] ∧
      append "prj_abc" sampleDraw dir keyNote.toCommandFields = (dir', .ok second) ∧
      ¬ ((dir' = dir ∧ second ∈ [first]) ∨
        ((verify "prj_abc" dir').valid = true ∧ replay dir' 1 = .ok ([first] ++ [second]))) := by
  obtain ⟨dir, first, hfirst, hsafe, hread, -, hkey, hid⟩ := Writer.run_accepts
    .append sampleDraw idNote rfl rfl (rfl : recoverDir ∅ = .ok ∅)
    (verified_empty "prj_abc") (appendable_sessionNote (by decide)
      (newEventId_idNote 1 ▸ isEventId_deterministic _ _) (by simp))
  have hverified : Verified "prj_abc" dir [first] := hsafe.mpr ⟨by simp, rfl, rfl⟩
  have hunknown : ∀ event ∈ [first], sameEvent keyNote.toCommandFields event = false := by
    intro event hevent
    obtain rfl := List.mem_singleton.mp hevent
    rw [sameEvent, sameKey, hkey]
    rfl
  have hrecover : recoverDir dir = .ok dir :=
    recoverDir_readable (hread ⟨rfl, rfl⟩ readable_nil) hverified.2
  obtain ⟨dir', second, hsecond, -⟩ := Writer.run_accepts .append sampleDraw
    keyNote rfl rfl hrecover hverified
    (appendable_sessionNote (by simp) (isEventId_deterministic _ _) hunknown)
  refine ⟨dir, first, dir', second, hfirst, (verified_iff.mp hverified).1, hverified.1, hsecond, ?_⟩
  rw [← verified_iff]
  intro hkept
  have happend := (appendUnchecked_integrity keyNote.valid.saga hverified
    (@Writer.run_ok _ Writer.append _ _ _ _ _ _ hsecond).2).mp hkept
  have hfresh := happend.2
  rw [if_neg (by simp [hunknown])] at hfresh
  apply hfresh.1
  rw [List.map_singleton, List.mem_singleton, hid]
  exact (newEventId_idNote 1).symm

end PowerFramework.Ledger
