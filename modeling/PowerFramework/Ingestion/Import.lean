import PowerFramework.Ingestion.Payload
import PowerFramework.Ledger.AppendIntegrity
/-!
# Importing a batch of events

`import_project_events`: every event is validated on its own, the batch is sorted, checked
against the ledger as one chain, and only then written.  The import is all or nothing exactly
when no payload of an accepted batch reads back as another one (`import_allOrNothing`).
-/

namespace PowerFramework.Ingestion

open Lib Lib.Failure Lib.Json Lib.Lines Ledger

/-! ## The batch -/

/-- An element of the batch: an event, or its dict. -/
abbrev Imported := ProjectEvent ⊕ Dict

/-- `raw.model_dump() if isinstance(raw, ProjectEvent) else raw` -/
def Imported.rawDict : Imported → Dict
  | .inl event => event.modelDump
  | .inr d => d

section
variable [LaxInt]

/-- One event of the batch, before the store is opened. -/
def parseImported (raw : Imported) : Except Exn ProjectEvent := do
  let event ← ProjectEvent.modelValidate (.dict raw.rawDict)
  raiseIf (event.eventType.governance = true) (permissionError
    ("Generic import rejects governance-bearing event '" ++ event.eventType.text ++ "'"))
  raiseIf (containsRawDialogue (.dict raw.rawDict) = true) (valueError
    "Import rejected: event payload contains prohibited raw dialogue / LLM transcript data")
  match sagaPayloadModels event.eventType with
  | none => return event
  | some model => do
      let _ ← model.modelValidate event.payload
      return event

omit [LaxInt] in
/-- `parsed_events.sort(key=lambda e: e.sequence)` -/
def sortBySequence (events : List ProjectEvent) : List ProjectEvent :=
  events.mergeSort fun a b => a.sequence ≤ b.sequence

omit [LaxInt] in
/-- The lines of the batch behind a ledger with these event ids and this last event. -/
def linesToWrite (projectId : String) :
    List String → Nat → String → List ProjectEvent → Except Exn (List (List Char))
  | _, _, _, [] => .ok []
  | seen, currSeq, currHash, event :: events => do
      raiseIf (event.projectId ≠ projectId) (valueError ("Import project_id mismatch: expected '" ++
        projectId ++ "', got '" ++ event.projectId ++ "'"))
      raiseIf (event.eventId ∈ seen)
        (valueError ("Duplicate event_id in import: '" ++ event.eventId ++ "'"))
      raiseIf (event.sequence ≠ currSeq + 1) (valueError ("Import sequence gap: expected " ++
        toString (currSeq + 1) ++ ", got " ++ toString event.sequence))
      raiseIf (currSeq = 0 ∧ event.prevEventHash ≠ "")
        (valueError "Genesis event must have empty prev_event_hash")
      raiseIf (0 < currSeq ∧ event.prevEventHash ≠ currHash) (valueError
        ("Import hash gap: expected '" ++ currHash ++ "', got '" ++ event.prevEventHash ++ "'"))
      let payloadDigest ← computePayloadDigest event.payload
      raiseIf (event.payloadDigest ≠ payloadDigest)
        (valueError ("Payload digest mismatch in imported event " ++ event.eventId))
      let eventHash ← computeEventHash event.modelDump
      raiseIf (event.eventHash ≠ eventHash)
        (valueError ("Event hash mismatch in imported event " ++ event.eventId))
      let line ← eventLine event
      let lines ← linesToWrite projectId (event.eventId :: seen) event.sequence event.eventHash events
      return line :: lines

/-- The import behind the repair: the lines it appends. -/
def importRecovered (projectId : String) (dir : ProjectDir) (parsed : List ProjectEvent) :
    Except Exn (List (List Char)) := do
  let verified := verify projectId dir
  raiseIf (verified.valid = false) (integrityError
    ("Ledger integrity verification failed before import for project '" ++ projectId ++ "': " ++
      "; ".intercalate verified.errors))
  let existing ← replay dir 1
  linesToWrite projectId (existing.map ProjectEvent.eventId)
    ((existing.getLast?.map ProjectEvent.sequence).getD 0)
    ((existing.getLast?.map ProjectEvent.eventHash).getD "") (sortBySequence parsed)

/-- `import_project_events`: the directory it leaves, and what it returns or raises. -/
def importProjectEvents (projectId : String) (dir : ProjectDir) (events : List Imported) :
    ProjectDir × Except Exn Nat :=
  match validateProjectId projectId with
  | .error exn => (dir, .error exn)
  | .ok _ =>
      if events.isEmpty then (dir, .ok 0)
      else
        match events.mapM parseImported with
        | .error exn => (dir, .error exn)
        | .ok parsed =>
            match recoverDir dir with
            | .error exn => (dir, .error exn)
            | .ok dir =>
                match importRecovered projectId dir parsed with
                | .error exn => (dir, .error exn)
                | .ok lines => (writeActive dir lines.flatten, .ok lines.length)

/-! ## The checks of the batch -/

section
variable {projectId : String}

omit [LaxInt] in
/-- An event that carries the digests of its content has a line. -/
theorem exists_eventLine {event : ProjectEvent} (h : event.Sealed) :
    ∃ line, eventLine event = .ok line := by
  have hitem : ∀ item ∈ event.modelDump, item.1 ≠ "event_hash" → Canonical item.2 := by
    intro item hitem hne
    exact canonical_dict.mp (canonical_of_sha256 h.envelope) item
      (List.mem_filter.mpr ⟨hitem, by simpa using hne⟩)
  have hwhole : Canonical (.dict event.modelDump) := ProjectEvent.canonical_modelDump.mpr
    ⟨hitem ("payload", .dict event.payload) (by simp [ProjectEvent.modelDump]) (by simp),
      canonical_int.mp (hitem ("sequence", .int event.sequence) (by simp [ProjectEvent.modelDump])
        (by simp))⟩
  obtain ⟨text, htext⟩ := hwhole
  exact ⟨text ++ ['\n'], bind_eq_ok.mpr ⟨text, htext, rfl⟩⟩

omit [LaxInt] in
theorem exists_lines {head : Head} {events : List ProjectEvent} (h : Chain projectId head events) :
    ∃ lines, events.mapM eventLine = .ok lines := by
  apply exists_mapM
  induction events generalizing head with
  | nil => simp
  | cons event events ih =>
      exact List.forall_mem_cons.mpr ⟨exists_eventLine h.1.sealed, ih h.2⟩

omit [LaxInt] in
/-- The lines of a batch exist exactly when it goes on with the chain of the ledger. -/
theorem linesToWrite_ok {head : Head} {seen : List String} {currSeq : Nat} {currHash : String}
    (hseen : ∀ id, id ∈ seen ↔ id ∈ head.seen) (hsequence : head.sequence = currSeq + 1)
    (hhash : head.prevHash = currHash) (hgenesis : currSeq = 0 → currHash = "")
    {events : List ProjectEvent} {lines : List (List Char)} :
    linesToWrite projectId seen currSeq currHash events = .ok lines ↔
      Chain projectId head events ∧ events.mapM eventLine = .ok lines := by
  induction events generalizing head seen currSeq currHash lines with
  | nil => simp [linesToWrite, Chain, pure, Except.pure]
  | cons event events ih =>
      have hnext : ∀ {rest}, linesToWrite projectId (event.eventId :: seen) event.sequence
            event.eventHash events = .ok rest ∧ event.sequence = currSeq + 1 ↔
          (Chain projectId (head.push event) events ∧ events.mapM eventLine = .ok rest) ∧
            event.sequence = currSeq + 1 := by
        intro rest
        have hseen' : ∀ id, id ∈ event.eventId :: seen ↔ id ∈ (head.push event).seen := by
          intro id
          rw [Head.push, List.mem_cons, List.mem_cons, hseen]
        have hsequence' : (head.push event).sequence = event.sequence + 1 := rfl
        have hhash' : (head.push event).prevHash = event.eventHash := rfl
        refine and_congr_left fun hseq => ih hseen' hsequence' hhash' fun hzero => ?_
        rw [hzero] at hseq
        exact absurd hseq (Nat.succ_ne_zero currSeq).symm
      rw [List.mapM_cons]
      simp only [linesToWrite, Chain, bind_eq_ok, raiseIf_eq_ok, not_not, pure, Except.pure,
        Except.ok.injEq]
      constructor
      · rintro ⟨-, hproject, -, hfresh, -, hseq, -, hfirst, -, hlink, payloadDigest, hpayload, -,
          hdigest, eventHash, henvelope, -, hsealed, line, hline, rest, hrest, rfl⟩
        obtain ⟨⟨hchain, hlines⟩, -⟩ := hnext.mp ⟨hrest, hseq⟩
        have hprev : event.prevEventHash = currHash := by
          by_cases hzero : currSeq = 0
          · rw [hgenesis hzero]
            by_contra hne
            exact hfirst ⟨hzero, hne⟩
          · by_contra hne
            exact hlink ⟨Nat.pos_of_ne_zero hzero, hne⟩
        have hfits : Fits projectId head event :=
          { project := hproject
            fresh := fun hmem => hfresh ((hseen _).mpr hmem)
            sequence := hseq.trans hsequence.symm
            link := hprev.trans hhash.symm
            sealed := ⟨hdigest ▸ hpayload, hsealed ▸ henvelope⟩ }
        exact ⟨⟨hfits, hchain⟩, line, hline, rest, hlines, rfl⟩
      · rintro ⟨⟨hfits, hchain⟩, line, hline, rest, hlines, rfl⟩
        have hseq : event.sequence = currSeq + 1 := hfits.sequence.trans hsequence
        have hprev : event.prevEventHash = currHash := hfits.link.trans hhash
        obtain ⟨hrest, -⟩ := hnext.mpr ⟨⟨hchain, hlines⟩, hseq⟩
        refine ⟨⟨⟩, hfits.project, ⟨⟩, fun hmem => hfits.fresh ((hseen _).mp hmem), ⟨⟩, hseq, ⟨⟩, ?_,
          ⟨⟩, fun hne => hne.2 hprev, _, hfits.sealed.payload, ⟨⟩, rfl, _, hfits.sealed.envelope,
          ⟨⟩, rfl, line, hline, rest, hrest, rfl⟩
        rintro ⟨hzero, hne⟩
        exact hne (hprev.trans (hgenesis hzero))

omit [LaxInt] in
/-- What the batch is checked against is the head of the chain that the ledger holds. -/
theorem head_of_chain {events : List ProjectEvent} (h : Chain projectId .start events) :
    (Head.start.after events).sequence =
        (events.getLast?.map ProjectEvent.sequence).getD 0 + 1 ∧
      (Head.start.after events).prevHash =
        (events.getLast?.map ProjectEvent.eventHash).getD "" ∧
      ((events.getLast?.map ProjectEvent.sequence).getD 0 = 0 →
        (events.getLast?.map ProjectEvent.eventHash).getD "" = "") := by
  induction events using List.reverseRecOn with
  | nil => exact ⟨rfl, rfl, fun _ => rfl⟩
  | append_singleton front event _ =>
      have hafter : Head.start.after (front ++ [event]) = (Head.start.after front).push event := by
        rw [Head.after_append]
        rfl
      rw [List.getLast?_concat, hafter]
      refine ⟨rfl, rfl, fun hzero => ?_⟩
      have hfits := (chain_append.mp h).2.1
      have hpos : event.sequence = 0 := hzero
      have hsequence := hfits.sequence
      rw [head_after_start (chain_append.mp h).1] at hsequence
      omega

/-- The lines that an import behind the repair appends. -/
theorem importRecovered_ok {dir : ProjectDir} {existing parsed : List ProjectEvent}
    (hverified : Verified projectId dir existing) {lines : List (List Char)} :
    importRecovered projectId dir parsed = .ok lines ↔
      Chain projectId (Head.start.after existing) (sortBySequence parsed) ∧
        (sortBySequence parsed).mapM eventLine = .ok lines := by
  obtain ⟨hsequence, hhash, hgenesis⟩ := head_of_chain hverified.2
  have hseen : ∀ id, id ∈ existing.map ProjectEvent.eventId ↔
      id ∈ (Head.start.after existing).seen := by
    intro id
    rw [Head.seen_after, Head.start, List.append_nil, List.mem_reverse]
  rw [← linesToWrite_ok hseen hsequence hhash hgenesis]
  have hvalid : (verify projectId dir).valid = true := verify_valid.mpr ⟨existing, hverified⟩
  constructor
  · intro h
    obtain ⟨-, -, h⟩ := bind_eq_ok.mp h
    obtain ⟨replayed, hreplay, h⟩ := bind_eq_ok.mp h
    rw [hverified.1, Except.ok.injEq] at hreplay
    rwa [hreplay]
  · intro h
    exact bind_eq_ok.mpr ⟨⟨⟩, raiseIf_eq_ok.mpr (by simp [hvalid]),
      bind_eq_ok.mpr ⟨existing, hverified.1, h⟩⟩

/-! ## The lines of the batch -/

/-- The lines of valid events are read back as the events exactly when their payloads are
plain. -/
theorem records_of_lines {events : List ProjectEvent} {lines : List (List Char)}
    (hvalid : ∀ event ∈ events, event.Valid) (h : events.mapM eventLine = .ok lines) :
    (recordsOf lines.flatten).mapM parseRecord = .ok events ↔
      ∀ event ∈ events, Plain (.dict event.payload) := by
  induction events generalizing lines with
  | nil =>
      cases h
      exact iff_of_true rfl (by simp)
  | cons event events ih =>
      rw [List.mapM_cons] at h
      obtain ⟨line, hline, h⟩ := bind_eq_ok.mp h
      obtain ⟨rest, hrest, h⟩ := bind_eq_ok.mp h
      cases h
      obtain ⟨hevent, hevents⟩ := List.forall_mem_cons.mp hvalid
      obtain ⟨raw, -, hdumps, hrecords⟩ := eventLine_ok hline
      rw [List.flatten_cons, recordsOf_append (terminated_eventLine hline), hrecords,
        List.singleton_append, List.mapM_cons, List.forall_mem_cons, ← parseRecord_dumps hevent hdumps,
        ← ih hevents hrest]
      constructor
      · intro h
        obtain ⟨first, hfirst, h⟩ := bind_eq_ok.mp h
        obtain ⟨others, hothers, h⟩ := bind_eq_ok.mp h
        cases h
        exact ⟨hfirst, hothers⟩
      · rintro ⟨hfirst, hothers⟩
        exact bind_eq_ok.mpr ⟨event, hfirst, bind_eq_ok.mpr ⟨events, hothers, rfl⟩⟩

/-- A ledger with the lines of a chain behind it is verified, with the events of the chain behind
its own, exactly when their payloads are plain. -/
theorem verified_lines {dir : ProjectDir} {existing events : List ProjectEvent}
    {lines : List (List Char)} (hverified : Verified projectId dir existing)
    (hterm : tornBytes (readFile dir activeEventsFile) = [])
    (hchain : Chain projectId (Head.start.after existing) events)
    (hvalid : ∀ event ∈ events, event.Valid) (hlines : events.mapM eventLine = .ok lines) :
    Verified projectId (writeActive dir lines.flatten) (existing ++ events) ↔
      ∀ event ∈ events, Plain (.dict event.payload) := by
  have hread := hverified.1
  rw [replay_eq_eventsOf] at hread
  rw [Verified, replay_eq_eventsOf, eventsOf_written hterm hread, ← records_of_lines hvalid hlines]
  constructor
  · rintro ⟨hall, -⟩
    obtain ⟨added, hadded, heq⟩ := map_eq_ok.mp hall
    rw [hadded, List.append_cancel_left heq]
  · intro hadded
    rw [hadded]
    exact ⟨rfl, chain_append.mpr ⟨hverified.2, hchain⟩⟩

end

/-! ## The whole import -/

section
variable {projectId : String} {dir : ProjectDir} {existing : List ProjectEvent}
  {events : List Imported}

/-- What an import is to do: raise and leave every byte, or return the size of the batch and leave
a ledger that verifies and replays the events it had and then the batch in order. -/
def AllOrNothing (projectId : String) (dir : ProjectDir) (existing : List ProjectEvent)
    (events : List Imported) : Prop :=
  match importProjectEvents projectId dir events with
  | (dir', .error _) => dir' = dir
  | (dir', .ok count) => count = events.length ∧ (verify projectId dir').valid = true ∧
      ∃ parsed, events.mapM (fun raw => ProjectEvent.modelValidate (.dict raw.rawDict)) = .ok parsed ∧
        replay dir' 1 = .ok (existing ++ sortBySequence parsed)

/-- The batch passes every check: each event on its own, the repair of the active file, and the
sorted batch as a chain behind the ledger. -/
structure Importable (projectId : String) (dir : ProjectDir) (existing : List ProjectEvent)
    (events : List Imported) (parsed : List ProjectEvent) : Prop where
  named : ∃ id, validateProjectId projectId = .ok id
  passed : events.mapM parseImported = .ok parsed
  repair : ∃ repaired, recoverDir dir = .ok repaired
  chain : Chain projectId (Head.start.after existing) (sortBySequence parsed)

theorem parseImported_ok {raw : Imported} {event : ProjectEvent}
    (h : parseImported raw = .ok event) :
    ProjectEvent.modelValidate (.dict raw.rawDict) = .ok event := by
  obtain ⟨event', hevent, h⟩ := bind_eq_ok.mp h
  obtain ⟨-, -, h⟩ := bind_eq_ok.mp h
  obtain ⟨-, -, h⟩ := bind_eq_ok.mp h
  cases hsaga : sagaPayloadModels event'.eventType with
  | none =>
      rw [hsaga] at h
      cases h
      exact hevent
  | some model =>
      rw [hsaga] at h
      obtain ⟨-, -, h⟩ := bind_eq_ok.mp h
      cases h
      exact hevent

theorem mapM_modelValidate {parsed : List ProjectEvent} (h : events.mapM parseImported = .ok parsed) :
    events.mapM (fun raw => ProjectEvent.modelValidate (.dict raw.rawDict)) = .ok parsed := by
  induction events generalizing parsed with
  | nil => exact h
  | cons raw events ih =>
      rw [List.mapM_cons] at h ⊢
      obtain ⟨event, hevent, h⟩ := bind_eq_ok.mp h
      obtain ⟨rest, hrest, h⟩ := bind_eq_ok.mp h
      cases h
      exact bind_eq_ok.mpr ⟨event, parseImported_ok hevent, bind_eq_ok.mpr ⟨rest, ih hrest, rfl⟩⟩

theorem valid_of_parsed {parsed : List ProjectEvent} (h : events.mapM parseImported = .ok parsed) :
    ∀ event ∈ sortBySequence parsed, event.Valid := by
  intro event hevent
  obtain ⟨raw, -, hraw⟩ := mem_of_mapM h ((List.mergeSort_perm parsed _).mem_iff.mp hevent)
  exact ProjectEvent.valid_of_readFields (parseImported_ok hraw)

/-- A repair of a file that ends in a newline leaves the directory as it is. -/
theorem recoverDir_terminated (hterm : tornBytes (readFile dir activeEventsFile) = [])
    {repaired : ProjectDir} (h : recoverDir dir = .ok repaired) : repaired = dir :=
  (recoverDir_ok h).2.2.mpr hterm

/-- An import of a batch that is not empty returns exactly for a batch that passes, with its lines
behind the ledger. -/
theorem importProjectEvents_ok (hverified : Verified projectId dir existing)
    (hterm : tornBytes (readFile dir activeEventsFile) = []) (hne : events ≠ [])
    {dir' : ProjectDir} {count : Nat} :
    importProjectEvents projectId dir events = (dir', .ok count) ↔
      ∃ parsed lines, Importable projectId dir existing events parsed ∧
        (sortBySequence parsed).mapM eventLine = .ok lines ∧
        dir' = writeActive dir lines.flatten ∧ count = lines.length := by
  have hempty : events.isEmpty = false := by simpa using hne
  rw [importProjectEvents, hempty]
  constructor
  · intro h
    cases hid : validateProjectId projectId with
    | error exn => simp [hid] at h
    | ok id =>
        simp only [hid, Bool.false_eq_true, if_false] at h
        cases hparsed : events.mapM parseImported with
        | error exn => simp [hparsed] at h
        | ok parsed =>
            simp only [hparsed] at h
            cases hrecover : recoverDir dir with
            | error exn => simp [hrecover] at h
            | ok repaired =>
                obtain rfl := recoverDir_terminated hterm hrecover
                simp only [hrecover] at h
                cases himport : importRecovered projectId repaired parsed with
                | error exn => simp [himport] at h
                | ok lines =>
                    simp only [himport, Prod.mk.injEq, Except.ok.injEq] at h
                    obtain ⟨hchain, hlines⟩ := (importRecovered_ok hverified).mp himport
                    exact ⟨parsed, lines, ⟨⟨id, hid⟩, hparsed, ⟨repaired, hrecover⟩, hchain⟩,
                      hlines, h.1.symm, h.2.symm⟩
  · rintro ⟨parsed, lines, ⟨⟨id, hid⟩, hparsed, ⟨repaired, hrecover⟩, hchain⟩, hlines, rfl, rfl⟩
    obtain rfl := recoverDir_terminated hterm hrecover
    have himport := (importRecovered_ok hverified).mpr ⟨hchain, hlines⟩
    simp only [hid, hparsed, hrecover, himport, Bool.false_eq_true, if_false]

/-- An import that raises leaves a directory whose active file ends in a newline as it was. -/
theorem importProjectEvents_error (hterm : tornBytes (readFile dir activeEventsFile) = [])
    {dir' : ProjectDir} {exn : Exn}
    (h : importProjectEvents projectId dir events = (dir', .error exn)) : dir' = dir := by
  unfold importProjectEvents at h
  split at h
  · exact (congrArg Prod.fst h).symm
  · split at h
    · cases h
    · split at h
      · exact (congrArg Prod.fst h).symm
      · split at h
        · exact (congrArg Prod.fst h).symm
        · rename_i repaired hrecover
          obtain rfl := recoverDir_terminated hterm hrecover
          split at h
          · exact (congrArg Prod.fst h).symm
          · cases h

theorem length_of_lines {parsed : List ProjectEvent} {lines : List (List Char)}
    (hparsed : events.mapM parseImported = .ok parsed)
    (hlines : (sortBySequence parsed).mapM eventLine = .ok lines) : lines.length = events.length := by
  rw [length_of_mapM hlines, sortBySequence, List.length_mergeSort, length_of_mapM hparsed]

/-- **All or nothing.**  An import into a ledger that verifies, and whose active file ends in a
newline, does what it is to do exactly when a batch that passes its checks has payloads of JSON's
own types only. -/
theorem import_allOrNothing (hvalid : (verify projectId dir).valid = true)
    (hterm : tornBytes (readFile dir activeEventsFile) = [])
    (hreplay : replay dir 1 = .ok existing) :
    AllOrNothing projectId dir existing events ↔
      ∀ parsed, Importable projectId dir existing events parsed →
        ∀ event ∈ parsed, Plain (.dict event.payload) := by
  have hverified := verified_iff.mpr ⟨hvalid, hreplay⟩
  have hsorted : ∀ parsed : List ProjectEvent,
      (∀ event ∈ sortBySequence parsed, Plain (.dict event.payload)) ↔
        ∀ event ∈ parsed, Plain (.dict event.payload) := by
    intro parsed
    exact forall_congr' fun event => imp_congr_left (List.mergeSort_perm parsed _).mem_iff
  by_cases hne : events = []
  · subst hne
    constructor
    · rintro - parsed himportable event hevent
      have hnil := himportable.passed
      cases hnil
      cases hevent
    · intro
      unfold AllOrNothing importProjectEvents
      cases validateProjectId projectId with
      | error exn => rfl
      | ok id => exact ⟨rfl, hvalid, [], rfl, by rw [hreplay, sortBySequence]; simp⟩
  cases hrun : importProjectEvents projectId dir events with
  | mk dir' result =>
      unfold AllOrNothing
      rw [hrun]
      cases result with
      | error exn =>
          refine iff_of_true (importProjectEvents_error hterm hrun) ?_
          intro parsed himportable
          -- a batch that passes is not refused
          obtain ⟨lines, hlines⟩ := exists_lines himportable.chain
          have hok := (importProjectEvents_ok hverified hterm hne).mpr
            ⟨parsed, lines, himportable, hlines, rfl, rfl⟩
          rw [hrun] at hok
          cases hok
      | ok count =>
          obtain ⟨parsed, lines, himportable, hlines, rfl, rfl⟩ :=
            (importProjectEvents_ok hverified hterm hne).mp hrun
          have hlong := verified_lines hverified hterm himportable.chain
            (valid_of_parsed himportable.passed) hlines
          rw [hsorted] at hlong
          constructor
          · rintro ⟨-, hvalid', parsed', hparsed', hreplay'⟩ parsed'' himportable'' event hevent
            have hsame := Except.ok.inj (himportable.passed.symm.trans himportable''.passed)
            have hsame' := Except.ok.inj ((mapM_modelValidate himportable.passed).symm.trans hparsed')
            subst hsame hsame'
            exact hlong.mp (verified_iff.mpr ⟨hvalid', hreplay'⟩) event hevent
          · intro hplain
            obtain ⟨hvalid', hreplay'⟩ :=
              verified_iff.mp (hlong.mpr (hplain parsed himportable))
            exact ⟨length_of_lines himportable.passed hlines, hvalid', parsed,
              mapM_modelValidate himportable.passed, hreplay'⟩

end

end

/-! ## A batch of one event -/

attribute [local instance] LaxInt.intOnly

/-- The dialogue of an event is that of its payload. -/
theorem containsRawDialogue_modelDump (event : ProjectEvent) :
    containsRawDialogue (.dict event.modelDump) = containsRawDialogue (.dict event.payload) := by
  have hopt : ∀ o, (optValue o).everywhere withoutDialogueKey = true := by
    intro o
    cases o <;> rfl
  have hlist : ∀ texts, (strList texts).everywhere withoutDialogueKey = true := by
    intro texts
    have hall : everywhereList withoutDialogueKey (texts.map .str) = true := by
      rw [everywhereList_iff]
      intro v hv
      obtain ⟨s, -, rfl⟩ := List.mem_map.mp hv
      rfl
    rw [strList, Value.everywhere, hall]
    rfl
  have hstr : ∀ s, (Value.str s).everywhere withoutDialogueKey = true := fun s => rfl
  have hint : ∀ n, (Value.int n).everywhere withoutDialogueKey = true := fun n => rfl
  have hkeys : withoutDialogueKey (.dict event.modelDump) = true := by
    simp [withoutDialogueKey, ProjectEvent.modelDump, rawDialogueKeys]
  have hall : (Value.dict event.modelDump).everywhere withoutDialogueKey =
      (Value.dict event.payload).everywhere withoutDialogueKey := by
    rw [Value.everywhere, hkeys, Bool.true_and]
    simp only [ProjectEvent.modelDump, everywhereDict, hopt, hlist, hstr, hint, Bool.true_and,
      Bool.and_true]
  exact congrArg not hall

/-- A session note of project `prj_abc` with this payload. -/
def noteWith (payload : Dict) : CommandFields :=
  { sessionNote (some "evt_a") none with payload }

/-- The event of such a note, the first of its ledger, is imported into the empty one. -/
theorem imports_note (payload : Dict) (hordered : (Value.dict payload).ordered = true)
    (hpayload : Canonical (.dict payload))
    (hdialogue : containsRawDialogue (.dict payload) = false) :
    ∃ event, event.payload = payload ∧ event.Valid ∧
      Importable "prj_abc" ∅ [] [.inl event] [event] := by
  have hnote : (sessionNote (some "evt_a") none).Valid := sessionNote_valid
    (fun _ h => Option.some.inj h ▸ (by decide : isEventId "evt_a" = true)) (by simp)
  have hvalid : (noteWith payload).Valid := { hnote with
    saga := rfl
    ordered := hordered }
  have hempty : Verified (noteWith payload).projectId ∅ [] := verified_empty "prj_abc"
  have happendable : Appendable sampleDraw (noteWith payload) [] :=
    { payload := hpayload
      sequence := by
        rw [Printable, Nat.toDigits_of_lt_base (by decide)]
        decide
      timestamp := (by decide : isTimestamp "2026-01-01T00:00:00Z" = true)
      eventId := (by decide : isEventId "evt_a" = true)
      unknown := by simp }
  obtain ⟨event, hbuild, -⟩ := buildEvent_succeeds hvalid.checked hempty happendable
  obtain ⟨hevent, hpay, hid, hfits⟩ := fits_of_buildEvent hvalid.saga hempty hbuild
  obtain ⟨-, -, timestamp, payloadDigest, eventHash, heq⟩ := buildEvent_ok hvalid.saga hbuild
  refine ⟨event, hpay, hevent, ?_⟩
  have hclean : containsRawDialogue (.dict event.modelDump) = false := by
    rw [containsRawDialogue_modelDump, hpay]
    exact hdialogue
  have htype : event.eventType = .sessionStarted := by
    rw [heq]
    rfl
  have hparsed : parseImported (.inl event) = .ok event := by
    refine bind_eq_ok.mpr ⟨event, ProjectEvent.readFields_modelDump hevent, ?_⟩
    refine bind_eq_ok.mpr ⟨⟨⟩, raiseIf_eq_ok.mpr (by rw [htype]; decide), ?_⟩
    refine bind_eq_ok.mpr ⟨⟨⟩, raiseIf_eq_ok.mpr (by rw [Imported.rawDict, hclean]; decide), ?_⟩
    rw [htype]
    rfl
  exact
    { named := ⟨"prj_abc", by decide⟩
      passed := by rw [List.mapM_cons, hparsed]; rfl
      repair := ⟨∅, rfl⟩
      chain := by
        rw [sortBySequence, List.mergeSort_singleton]
        exact ⟨hfits.mpr (by simp), trivial⟩ }

/-- A note without a payload is imported into the empty ledger, which then replays it. -/
theorem import_note : ∃ event, ∃ dir, importProjectEvents "prj_abc" ∅ [.inl event] = (dir, .ok 1) ∧
    AllOrNothing "prj_abc" ∅ [] [.inl event] := by
  obtain ⟨event, hpayload, -, himportable⟩ := imports_note [] rfl (canonical_dict.mpr (by simp)) rfl
  have hempty := verified_empty "prj_abc"
  have hterm : tornBytes (readFile ∅ activeEventsFile) = [] := by
    rw [readFile_empty]
    rfl
  obtain ⟨lines, hlines⟩ := exists_lines himportable.chain
  have hcount := length_of_lines himportable.passed hlines
  have hrun := (importProjectEvents_ok hempty hterm (by simp)).mpr
    ⟨[event], lines, himportable, hlines, rfl, hcount.symm⟩
  refine ⟨event, _, hrun, ?_⟩
  obtain ⟨hvalid, hreplay⟩ := verified_iff.mp hempty
  refine (import_allOrNothing hvalid hterm hreplay).mpr fun parsed hparsed => ?_
  obtain rfl := Except.ok.inj (himportable.passed.symm.trans hparsed.passed)
  simp only [List.mem_singleton, forall_eq, hpayload]
  exact ⟨rfl, rfl⟩

/-- A note with a tuple in its payload is imported, and replayed with a list. -/
theorem import_tuple : ∃ event, (verify "prj_abc" ∅).valid = true ∧ replay ∅ 1 = .ok [] ∧
    tornBytes (readFile ∅ activeEventsFile) = [] ∧ event.Valid ∧
    ¬ AllOrNothing "prj_abc" ∅ [] [.inl event] := by
  have hcanonical : Canonical (.dict [("pair", .tuple [])]) := by
    rw [canonical_dict]
    intro item hitem
    rw [List.mem_singleton.mp hitem]
    exact ⟨['[', ']'], rfl⟩
  obtain ⟨event, hpayload, hevent, himportable⟩ :=
    imports_note [("pair", .tuple [])] rfl hcanonical rfl
  have hempty := verified_empty "prj_abc"
  obtain ⟨hvalid, hreplay⟩ := verified_iff.mp hempty
  have hterm : tornBytes (readFile ∅ activeEventsFile) = [] := by
    rw [readFile_empty]
    rfl
  refine ⟨event, hvalid, hreplay, hterm, hevent, fun hall => ?_⟩
  obtain ⟨lines, hlines⟩ := exists_lines himportable.chain
  have hrun := (importProjectEvents_ok hempty hterm (by simp)).mpr
    ⟨[event], lines, himportable, hlines, rfl, rfl⟩
  rw [AllOrNothing, hrun] at hall
  obtain ⟨-, hvalid', parsed, hparsed, hreplay'⟩ := hall
  obtain rfl := Except.ok.inj ((mapM_modelValidate himportable.passed).symm.trans hparsed)
  have hplain := (verified_lines hempty hterm himportable.chain
    (valid_of_parsed himportable.passed) hlines).mp (verified_iff.mpr ⟨hvalid', hreplay'⟩)
  have htuple := (hplain event (by simp [sortBySequence])).1
  rw [hpayload] at htuple
  exact absurd htuple (by decide)

end PowerFramework.Ingestion
