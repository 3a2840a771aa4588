import PowerFramework.Task.JournalFile
/-!
# What the writer lets into a journal

`append_event` and `save_task` ask of an event that its sequence is above those of its journal.
What they write is read afterwards exactly when it also goes on with the journal
(`getTaskEvents_journaled`).
-/

namespace PowerFramework.Task

open Lib Lib.Failure Lib.Json Lib.Splitlines Ledger TaskStore

/-! ## The event as its line is read -/

section
variable [LaxInt] {now taskId : String} {event : TaskEvent}

omit [LaxInt] in
theorem getItem_jsonItems (d : Dict) (name : String) :
    getItem (jsonItems d) name = (getItem d name).asJson := by
  rw [getItem, getItem, lookup_jsonItems]
  cases d.lookup name <;> rfl

omit [LaxInt] in
/-- Strings have no other JSON form, and no other value becomes one. -/
theorem textOf_jsonItems (d : Dict) (name : String) : textOf (jsonItems d) name = textOf d name := by
  rw [textOf, textOf, getItem_jsonItems]
  cases getItem d name with
  | dict items =>
      rw [Value.asJson, dictValue]
      cases dictOf (asJsonDict items) <;> rfl
  | keyed key value rest =>
      rw [Value.asJson, dictValue]
      cases dictOf ((some key.text, value.asJson) :: asJsonKeyed rest) <;> rfl
  | _ => rfl

omit [LaxInt] in
theorem intOf_jsonItems (d : Dict) (name : String) : intOf (jsonItems d) name = intOf d name := by
  rw [intOf, intOf, getItem_jsonItems]
  cases getItem d name with
  | dict items =>
      rw [Value.asJson, dictValue]
      cases dictOf (asJsonDict items) <;> rfl
  | keyed key value rest =>
      rw [Value.asJson, dictValue]
      cases dictOf ((some key.text, value.asJson) :: asJsonKeyed rest) <;> rfl
  | _ => rfl

theorem payload_jsonItems (hevent : Instance (eventFields now) event) :
    TaskEvent.payload (jsonItems event) = jsonItems event.payload := by
  have hfield : Field.dict "payload" (some []) ∈ eventFields now := by simp [eventFields]
  obtain ⟨items, hitems, hsorted⟩ := readDict_ok (hevent.read_getItem hfield)
  change getItem event "payload" = .dict items at hitems
  rw [TaskEvent.payload, TaskEvent.payload, itemsOf, itemsOf, getItem_jsonItems, hitems,
    asJson_dict hsorted]

/-- The line of an event is read as the event with the payload in its JSON form. -/
theorem event_read (hevent : Instance (eventFields now) event) :
    validate (eventFields now) (Value.dict event).asJson = .ok (jsonItems event) := by
  have hkeys : sortedKeys event = true := by
    rw [sortedKeys_eq, hevent.1]
    exact sorted_eventFields now
  have hnames : (jsonItems event).map Prod.fst = (eventFields now).map Field.name := by
    rw [names_jsonItems, hevent.1]
  have hnodup := nodup_of_sorted (sorted_eventFields now)
  rw [asJson_dict hkeys, validate_ok]
  refine ⟨jsonItems event, rfl, fun item hitem => ?_, readFields_of hnames hnodup ?_⟩
  · rw [← hnames]
    exact List.mem_map_of_mem hitem
  · intro field hfield value hvalue
    have hread : field.read value = some value := by
      rw [lookup_jsonItems, Option.map_eq_some_iff] at hvalue
      obtain ⟨own, hown, rfl⟩ := hvalue
      have hself := hevent.2 field hfield own hown
      rcases stable_eventFields now field hfield with hstable | rfl
      · rw [hstable own own hself, hself]
      · obtain ⟨items, rfl, hsorted⟩ := readDict_ok hself
        rw [asJson_dict hsorted]
        apply readDict_sorted
        rwa [sortedKeys_eq, names_jsonItems, ← sortedKeys_eq]
    rw [Field.take, hvalue]
    simp only [hread]

/-- What the next event of a journal is like, as its line is read: nothing but JSON blanks behind
the last line boundary, no string that breaks the line, the next sequence, and the two digests
that the reader demands. -/
structure Continues (text : List Char) (events : List TaskEvent) (event : TaskEvent) : Prop where
  whole : (openPart text).all isSpace = true
  unbroken : ∀ c ∈ (Value.dict event).chars, breaksLine c = false
  sequence : event.sequence = 1 + events.length
  previous : event.prevEventDigest = lastDigest "" events
  digest : canonicalPayloadDigest (jsonItems event.payload) = .ok event.payloadDigest

theorem chained_jsonItems {sequence : Int} {previous : String}
    (hevent : Instance (eventFields now) event) :
    Chained taskId sequence previous (jsonItems event) ↔
      event.taskId = taskId ∧ event.sequence = sequence ∧ event.prevEventDigest = previous ∧
        canonicalPayloadDigest (jsonItems event.payload) = .ok event.payloadDigest := by
  have htask : TaskEvent.taskId (jsonItems event) = event.taskId := textOf_jsonItems event _
  have hsequence : TaskEvent.sequence (jsonItems event) = event.sequence := intOf_jsonItems event _
  have hprevious : TaskEvent.prevEventDigest (jsonItems event) = event.prevEventDigest :=
    textOf_jsonItems event _
  have hdigest : TaskEvent.payloadDigest (jsonItems event) = event.payloadDigest :=
    textOf_jsonItems event _
  constructor
  · intro h
    have hpayload := h.digest
    rw [payload_jsonItems hevent, hdigest] at hpayload
    exact ⟨htask ▸ h.taskId, hsequence ▸ h.sequence, hprevious ▸ h.previous, hpayload⟩
  · rintro ⟨htaskId, hseq, hprev, hpayload⟩
    exact
      { taskId := htask.trans htaskId
        sequence := hsequence.trans hseq
        previous := hprevious.trans hprev
        digest := by rw [payload_jsonItems hevent, hdigest, hpayload] }

/-- A journal with the line of an event behind it is read exactly when the event goes on with
it. -/
theorem readJournal_continues {text t : List Char} {events : List TaskEvent}
    (ht : (Layout.spaced false).write 0 (.dict event) = .ok t)
    (hread : readJournal now event.taskId text = .ok events)
    (hevent : Instance (eventFields now) event) :
    (∃ after, readJournal now event.taskId (text ++ (t ++ ['\n'])) = .ok after) ↔
      Continues text events event := by
  constructor
  · rintro ⟨after, hafter⟩
    obtain ⟨hspace, hunbroken⟩ := whole_of_readable ht hread hafter
    obtain ⟨event', hvalid, hchained, -⟩ :=
      (readJournal_line ht hread hspace hunbroken).mp hafter
    rw [event_read hevent, Except.ok.injEq] at hvalid
    rw [← hvalid, chained_jsonItems hevent] at hchained
    obtain ⟨-, hsequence, hprevious, hdigest⟩ := hchained
    exact ⟨hspace, hunbroken, hsequence, hprevious, hdigest⟩
  · intro h
    have hchained := (chained_jsonItems hevent).mpr
      ⟨rfl, h.sequence, h.previous, h.digest⟩
    exact ⟨_, (readJournal_line ht hread h.whole h.unbroken).mpr
      ⟨jsonItems event, event_read hevent, hchained, rfl⟩⟩

end

/-! ## The two writers -/

section
variable [LaxInt] {now : String} {files files' : Files} {event : TaskEvent}

/-- `append_event` or `save_task` has written the event. -/
def Journaled (now : String) (files files' : Files) (event : TaskEvent) : Prop :=
  appendEvent now files event = .ok files' ∨
    ∃ task receipt, saveTask now files task (some event) receipt = .ok files'

theorem appendEvent_ok (h : appendEvent now files event = .ok files') :
    Appended now files files' event ∧
      ∀ data, files' (eventsPath event.taskId) = some data → data.length ≤ maxTaskStateBytes := by
  obtain ⟨path, hpath, h⟩ := bind_eq_ok.mp h
  obtain ⟨-, rfl⟩ := taskFile_ok.mp hpath
  dsimp only at h
  have h : transact "task_event_append" ([(eventsPath event.taskId, "event")] ++
      (if event.sequence % 5 = 0 then
        [(checkpointPath event.taskId event.sequence, "checkpoint")] else []))
      (fun files => appendEventUnlocked now files event) files = .ok files' := by
    split_ifs at h ⊢
    all_goals first
      | exact h
      | obtain ⟨_, -, h⟩ := bind_eq_ok.mp h
        exact h
  obtain ⟨hbody, hsizes⟩ := transact_ok h
  exact ⟨appendEventUnlocked_ok hbody, hsizes (eventsPath event.taskId, "event") (by simp)⟩

/-- Both leave the text of the journal with the line of the event behind it, within the bound. -/
theorem Journaled.journal (h : Journaled now files files' event) :
    isTaskId event.taskId = true ∧ ∃ line, eventLine event = .ok line ∧
      files' (eventsPath event.taskId) =
        some (Utf8.encode (journalOf files event.taskId ++ line)) ∧
      (Utf8.encode (journalOf files event.taskId ++ line)).length ≤ maxTaskStateBytes := by
  rcases h with h | ⟨task, receipt, h⟩
  · obtain ⟨happended, hsize⟩ := appendEvent_ok h
    obtain ⟨line, hline, hjournal⟩ := happended.journal
    exact ⟨happended.token, line, hline, hjournal, hsize _ hjournal⟩
  · have hsaved := saveTask_saved h
    rw [hsaved.taskId]
    exact ⟨hsaved.token, hsaved.journal⟩

/-- **The writer and the reader of a journal.**  The journal of an event that was written is read
afterwards exactly when the event goes on with the journal as it was read before. -/
theorem getTaskEvents_journaled {now' : String} {events : List TaskEvent}
    (hread : getTaskEvents now' files event.taskId 0 false = .ok events)
    (hevent : Instance (eventFields now') event) (h : Journaled now files files' event) :
    (∃ after, getTaskEvents now' files' event.taskId 0 false = .ok after) ↔
      Continues (journalOf files event.taskId) events event := by
  obtain ⟨htoken, line, hline, hjournal, hsize⟩ := h.journal
  obtain ⟨t, ht, rfl⟩ := map_eq_ok.mp hline
  obtain ⟨-, -, hread, -⟩ := getTaskEvents_ok.mp hread
  have hjournalOf : journalOf files' event.taskId =
      journalOf files event.taskId ++ (t ++ ['\n']) := by
    rw [journalOf, hjournal, Option.bind_some, Utf8.decode_encode, Option.getD_some]
  rw [← readJournal_continues ht hread hevent]
  constructor
  · rintro ⟨after, hafter⟩
    obtain ⟨-, -, hafter, -⟩ := getTaskEvents_ok.mp hafter
    rw [hjournalOf] at hafter
    exact ⟨after, hafter⟩
  · rintro ⟨after, hafter⟩
    refine ⟨after, getTaskEvents_ok.mpr ⟨htoken, fun data hdata => ?_, ?_, fun _ _ hnil => ?_⟩⟩
    · rw [hjournal] at hdata
      cases hdata
      rw [hjournalOf]
      exact ⟨hsize, rfl⟩
    · rw [hjournalOf, hafter]
    · -- the line of the event is read, so the journal is not empty
      obtain ⟨hspace, hunbroken⟩ := whole_of_readable ht hread hafter
      obtain ⟨event', -, -, heq⟩ := (readJournal_line ht hread hspace hunbroken).mp hafter
      rw [hnil] at heq
      cases List.append_eq_nil_iff.mp heq.symm |>.2

end

/-! ## A first event -/

section
attribute [local instance] LaxInt.intOnly

/-- The first event of a task is read after it was saved. -/
theorem getTaskEvents_first : ∃ event files',
    getTaskEvents "" (fun _ => none) "t" 0 false = .ok [] ∧ Journaled "" (fun _ => none) files' event ∧
      ∃ after, getTaskEvents "" files' "t" 0 false = .ok after := by
  obtain ⟨digest, hdigest, hlength, hhex⟩ := digest_note "n"
  obtain ⟨files', hsaved⟩ := saved_sampleEvent (by decide : "n".toList.length = 1) hlength
    (by decide : "".toList.length = 0 ∨ "".toList.length = 64)
  have hcontinues : Continues (journalOf (fun _ => none) "t") []
      (sampleEvent 1 "alice" "n" digest "") :=
    { whole := rfl
      unbroken := unbroken_sampleEvent (Or.inl rfl) (by decide) (by decide) hhex (by decide)
      sequence := rfl
      previous := rfl
      digest := hdigest }
  have hid : TaskEvent.taskId (sampleEvent 1 "alice" "n" digest "") = "t" := rfl
  have hread : getTaskEvents "" (fun _ => none)
      (TaskEvent.taskId (sampleEvent 1 "alice" "n" digest "")) 0 false = .ok [] := by
    rw [hid]
    rfl
  have hjournaled : Journaled "" (fun _ => none) files' (sampleEvent 1 "alice" "n" digest "") :=
    Or.inr ⟨sampleTask, none, hsaved⟩
  exact ⟨_, files', rfl, hjournaled, (getTaskEvents_journaled hread
    (instance_sampleEvent (Or.inl rfl) ..) hjournaled).mpr hcontinues⟩

/-- A first event that names a digest before it is saved, and its journal is not read. -/
theorem getTaskEvents_wrong_previous : ∃ event files', Instance (eventFields "") event ∧
    getTaskEvents "" (fun _ => none) "t" 0 false = .ok [] ∧
    saveTask "" (fun _ => none) sampleTask (some event) none = .ok files' ∧
    ∀ events, getTaskEvents "" files' "t" 0 false ≠ .ok events := by
  obtain ⟨digest, hdigest, hlength, -⟩ := digest_note "n"
  have hprevious : digest.toList.length = 0 ∨ digest.toList.length = 64 := Or.inr hlength
  obtain ⟨files', hsaved⟩ := saved_sampleEvent (by decide : "n".toList.length = 1) hlength hprevious
  have hevent := instance_sampleEvent (Or.inl rfl) "alice" "n" digest digest
  refine ⟨_, files', hevent, rfl, hsaved, fun events hafter => ?_⟩
  have hjournaled : Journaled "" (fun _ => none) files' (sampleEvent 1 "alice" "n" digest digest) :=
    Or.inr ⟨sampleTask, none, hsaved⟩
  obtain ⟨-, line, hline, hjournal, -⟩ := hjournaled.journal
  obtain ⟨t, ht, rfl⟩ := map_eq_ok.mp hline
  obtain ⟨-, -, hafter, -⟩ := getTaskEvents_ok.mp hafter
  have hjournalOf : journalOf files' "t" = [] ++ (t ++ ['\n']) := by
    change files' (eventsPath "t") = some (Utf8.encode ([] ++ (t ++ ['\n']))) at hjournal
    rw [journalOf, hjournal, Option.bind_some, Utf8.decode_encode, Option.getD_some]
  rw [hjournalOf] at hafter
  have hempty : readJournal "" "t" [] = .ok [] := rfl
  have hcontinues := (readJournal_continues ht hempty hevent).mp ⟨events, hafter⟩
  have hdigest' : digest = "" := hcontinues.previous
  rw [hdigest'] at hlength
  exact absurd hlength (by decide)

end

end PowerFramework.Task
