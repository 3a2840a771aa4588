import PowerFramework.Task.Store
/-!
# What a save leaves behind

Reading a journal file is reading its text (`getTaskEvents_ok`).  A save that returns has written
the snapshot, the receipt and the line of the event, and nothing but the files of its task and
its receipt (`saveTask_saved`).
-/

namespace PowerFramework.Task

open Lib Lib.Failure Lib.Json Lib.Splitlines Ledger TaskStore

/-! ## Paths -/

theorem taskPath_ne_eventsPath (a b : String) : taskPath a ≠ eventsPath b := by
  simp [taskPath, eventsPath]

theorem taskPath_ne_checkpointPath (a b : String) (n : Int) : taskPath a ≠ checkpointPath b n := by
  simp [taskPath, checkpointPath]

theorem taskPath_ne_receiptPath (a b : String) : taskPath a ≠ receiptPath b := by
  simp [taskPath, receiptPath]

theorem eventsPath_ne_checkpointPath (a b : String) (n : Int) :
    eventsPath a ≠ checkpointPath b n := by
  simp [eventsPath, checkpointPath]

theorem eventsPath_ne_receiptPath (a b : String) : eventsPath a ≠ receiptPath b := by
  simp [eventsPath, receiptPath]

theorem checkpointPath_ne_receiptPath (a b : String) (n : Int) :
    checkpointPath a n ≠ receiptPath b := by
  simp [checkpointPath, receiptPath]

theorem taskPath_inj {a b : String} : taskPath a = taskPath b ↔ a = b := by
  constructor
  · intro h
    have hname : a ++ ".json" = b ++ ".json" := by simpa [taskPath] using h
    exact String.append_left_inj ".json" |>.mp hname
  · rintro rfl
    rfl

theorem eventsPath_inj {a b : String} : eventsPath a = eventsPath b ↔ a = b := by
  constructor
  · intro h
    have hname : a ++ ".jsonl" = b ++ ".jsonl" := by simpa [eventsPath] using h
    exact String.append_left_inj ".jsonl" |>.mp hname
  · rintro rfl
    rfl

theorem receiptPath_inj {a b : String} : receiptPath a = receiptPath b ↔ a = b := by
  constructor
  · intro h
    have hname : a ++ ".json" = b ++ ".json" := by simpa [receiptPath] using h
    exact String.append_left_inj ".json" |>.mp hname
  · rintro rfl
    rfl

/-! ## Reading a journal -/

/-- The text of a journal file, empty when there is none. -/
def journalOf (files : Files) (taskId : String) : List Char :=
  ((files (eventsPath taskId)).bind Utf8.decode).getD []

theorem secureText_ok {data : Bytes} {text : List Char} :
    secureText data = .ok text ↔ data.length ≤ maxTaskStateBytes ∧ data = Utf8.encode text := by
  rw [secureText, bind_eq_ok, ← Utf8.decode_eq_some]
  constructor
  · rintro ⟨⟨⟩, hsize, h⟩
    refine ⟨Nat.not_lt.mp (raiseIf_eq_ok.mp hsize), ?_⟩
    cases hdecode : Utf8.decode data with
    | none =>
        rw [hdecode] at h
        cases h
    | some text' =>
        rw [hdecode] at h
        cases h
        rfl
  · rintro ⟨hsize, hdecode⟩
    refine ⟨⟨⟩, raiseIf_eq_ok.mpr (Nat.not_lt.mpr hsize), ?_⟩
    rw [hdecode]
    rfl

section
variable [LaxInt] {now taskId : String} {files : Files}

/-- The events of a journal are numbered in order. -/
theorem le_sequence {number : Nat} {sequence : Int} {previous : String} {lines : List (List Char)}
    {events : List TaskEvent}
    (h : readRecords now taskId number sequence previous lines = .ok events) :
    ∀ event ∈ events, sequence ≤ TaskEvent.sequence event := by
  induction lines generalizing number sequence previous events with
  | nil =>
      cases h
      simp
  | cons line lines ih =>
      by_cases hline : isBlank line = true
      · rw [readRecords_blank hline] at h
        exact ih h
      · have hline : isBlank line = false := by simpa using hline
        obtain ⟨event, rest, -, hchained, hrest, rfl⟩ := (readRecords_cons hline).mp h
        rw [List.forall_mem_cons]
        refine ⟨hchained.sequence.ge, fun event' hmem => ?_⟩
        have := ih hrest event' hmem
        omega

theorem filter_since {text : List Char} {events : List TaskEvent}
    (h : readJournal now taskId text = .ok events) :
    events.filter (fun event => 0 < TaskEvent.sequence event) = events := by
  rw [List.filter_eq_self]
  intro event hmem
  have := le_sequence h event hmem
  exact decide_eq_true (by omega)

theorem readRecords_blanks {number : Nat} {sequence : Int} {previous : String}
    {lines : List (List Char)} (h : ∀ line ∈ lines, isBlank line = true) :
    readRecords now taskId number sequence previous lines = .ok [] := by
  induction lines generalizing number with
  | nil => rfl
  | cons line lines ih =>
      rw [List.forall_mem_cons] at h
      rw [readRecords_blank h.1, ih h.2]

/-- A blank text holds no record. -/
theorem readJournal_blank {text : List Char} (h : isBlank text = true) :
    readJournal now taskId text = .ok [] := by
  apply readRecords_blanks
  intro line hline
  rw [isBlank, List.all_eq_true] at h ⊢
  exact fun c hc => h c (mem_of_mem_splitlines hline hc)

/-- The journal that `get_task_events` reads: its text is within the bound, its records are
chained, and it has some when its task is stored. -/
theorem getTaskEvents_ok {allowMissing : Bool} {events : List TaskEvent} :
    getTaskEvents now files taskId 0 allowMissing = .ok events ↔
      isTaskId taskId = true ∧
      (∀ data, files (eventsPath taskId) = some data →
        data.length ≤ maxTaskStateBytes ∧ data = Utf8.encode (journalOf files taskId)) ∧
      readJournal now taskId (journalOf files taskId) = .ok events ∧
      ((files (taskPath taskId)).isSome = true → allowMissing = false → events ≠ []) := by
  rw [getTaskEvents, bind_eq_ok]
  have htoken : ∀ path, eventsFile taskId = .ok path ↔
      isTaskId taskId = true ∧ path = eventsPath taskId := by
    intro path
    simp only [eventsFile, ensureValidTaskId, bind_eq_ok, raiseIf_eq_ok, pure, Except.pure,
      Except.ok.injEq]
    constructor
    · rintro ⟨-, htoken, rfl⟩
      exact ⟨by simpa using htoken, rfl⟩
    · rintro ⟨htoken, rfl⟩
      exact ⟨⟨⟩, by simp [htoken], rfl⟩
  simp only [htoken]
  cases hfile : files (eventsPath taskId) with
  | none =>
      have hempty : journalOf files taskId = [] := by rw [journalOf, hfile]; rfl
      have hread : readJournal now taskId ([] : List Char) = .ok [] := rfl
      simp only [hempty, hread, Except.ok.injEq]
      constructor
      · rintro ⟨path, ⟨hid, rfl⟩, h⟩
        rw [hfile] at h
        obtain ⟨⟨⟩, hneeded, h⟩ := bind_eq_ok.mp h
        cases h
        refine ⟨hid, by simp, rfl, fun hsome hallow => ?_⟩
        simp [hsome, hallow] at hneeded
      · rintro ⟨hid, -, rfl, hneeded⟩
        refine ⟨_, ⟨hid, rfl⟩, ?_⟩
        rw [hfile]
        refine bind_eq_ok.mpr ⟨⟨⟩, raiseIf_eq_ok.mpr fun h => ?_, rfl⟩
        rw [Bool.and_eq_true, Bool.not_eq_true'] at h
        exact hneeded h.1 h.2 rfl
  | some data =>
      constructor
      · rintro ⟨path, ⟨hid, rfl⟩, h⟩
        rw [hfile] at h
        obtain ⟨text, htext, h⟩ := bind_eq_ok.mp h
        obtain ⟨⟨⟩, -, h⟩ := bind_eq_ok.mp h
        obtain ⟨read, hread, h⟩ := bind_eq_ok.mp h
        obtain ⟨⟨⟩, hneeded, h⟩ := bind_eq_ok.mp h
        cases h
        obtain ⟨hsize, rfl⟩ := secureText_ok.mp htext
        have hjournal : journalOf files taskId = text := by
          rw [journalOf, hfile, Option.bind_some, Utf8.decode_encode, Option.getD_some]
        rw [hjournal, filter_since hread]
        refine ⟨hid, ?_, hread, fun hsome hallow hnil => ?_⟩
        · rintro data ⟨⟩
          exact ⟨hsize, rfl⟩
        · simp [hsome, hallow, hnil] at hneeded
      · rintro ⟨hid, hdata, hread, hneeded⟩
        refine ⟨_, ⟨hid, rfl⟩, ?_⟩
        rw [hfile]
        obtain ⟨hsize, hencode⟩ := hdata data rfl
        refine bind_eq_ok.mpr ⟨_, secureText_ok.mpr ⟨hsize, hencode⟩, ?_⟩
        refine bind_eq_ok.mpr ⟨⟨⟩, raiseIf_eq_ok.mpr fun h => ?_, ?_⟩
        · rw [Bool.and_eq_true, Bool.and_eq_true, Bool.not_eq_true'] at h
          rw [readJournal_blank h.1] at hread
          cases hread
          exact hneeded h.2.1 h.2.2 rfl
        refine bind_eq_ok.mpr ⟨events, hread, ?_⟩
        refine bind_eq_ok.mpr ⟨⟨⟩, raiseIf_eq_ok.mpr fun h => ?_, ?_⟩
        · rw [Bool.and_eq_true, Bool.and_eq_true, Bool.not_eq_true', List.isEmpty_iff] at h
          exact hneeded h.2.1 h.2.2 h.1
        · rw [filter_since hread]
          rfl

end

/-! ## Writing -/

theorem taskFile_ok {taskId : String} {path : RelPath} :
    taskFile taskId = .ok path ↔ isTaskId taskId = true ∧ path = taskPath taskId := by
  simp only [taskFile, ensureValidTaskId, bind_eq_ok, raiseIf_eq_ok, pure, Except.pure,
    Except.ok.injEq]
  constructor
  · rintro ⟨-, htoken, rfl⟩
    exact ⟨by simpa using htoken, rfl⟩
  · rintro ⟨htoken, rfl⟩
    exact ⟨⟨⟩, by simp [htoken], rfl⟩

theorem completionReceiptFile_ok {receiptId : String} {path : RelPath} :
    completionReceiptFile receiptId = .ok path ↔
      isReceiptId receiptId = true ∧ path = receiptPath receiptId := by
  simp only [completionReceiptFile, bind_eq_ok, raiseIf_eq_ok, pure, Except.pure,
    Except.ok.injEq]
  constructor
  · rintro ⟨-, htoken, rfl⟩
    exact ⟨by simpa using htoken, rfl⟩
  · rintro ⟨htoken, rfl⟩
    exact ⟨⟨⟩, by simp [htoken], rfl⟩

theorem readText_journal {files : Files} {taskId : String} {previous : Option (List Char)}
    (h : readText files (eventsPath taskId) = .ok previous) :
    previous.getD [] = journalOf files taskId := by
  unfold readText at h
  rw [journalOf]
  split at h
  · rename_i hfile
    cases h
    rw [hfile]
    rfl
  · rename_i data hfile
    obtain ⟨text, htext, rfl⟩ := map_eq_ok.mp h
    obtain ⟨-, rfl⟩ := secureText_ok.mp htext
    rw [hfile, Option.bind_some, Utf8.decode_encode]

@[simp] theorem atomicWrite_self (path : RelPath) (text : List Char) (files : Files) :
    atomicWrite path text files path = some (Utf8.encode text) := Function.update_self ..

theorem atomicWrite_of_ne {path path' : RelPath} (h : path' ≠ path) (text : List Char)
    (files : Files) : atomicWrite path text files path' = files path' :=
  Function.update_of_ne h ..

theorem journalOf_congr {files files' : Files} {taskId : String}
    (h : files' (eventsPath taskId) = files (eventsPath taskId)) :
    journalOf files' taskId = journalOf files taskId := by
  rw [journalOf, journalOf, h]

section
variable [LaxInt] {now : String} {files files' : Files}

/-- What an appended event leaves behind. -/
structure Appended (now : String) (files files' : Files) (event : TaskEvent) : Prop where
  token : isTaskId event.taskId = true
  existing : ∃ events, readJournal now event.taskId (journalOf files event.taskId) = .ok events ∧
    ∀ last, events.getLast? = some last → TaskEvent.sequence last < event.sequence
  journal : ∃ line, eventLine event = .ok line ∧ files' (eventsPath event.taskId) =
    some (Utf8.encode (journalOf files event.taskId ++ line))
  checkpoint : event.sequence % 5 = 0 → ∃ task, getTask now files event.taskId = .ok task
  frame : ∀ path, path ≠ eventsPath event.taskId →
    path ≠ checkpointPath event.taskId event.sequence → files' path = files path

theorem getTask_congr {taskId : String}
    (h : files' (taskPath taskId) = files (taskPath taskId)) :
    getTask now files' taskId = getTask now files taskId := by
  unfold getTask
  cases hpath : taskFile taskId with
  | error e => rfl
  | ok path =>
      obtain ⟨-, rfl⟩ := taskFile_ok.mp hpath
      simp only [bind, Except.bind, h]

theorem appendEventUnlocked_ok {event : TaskEvent}
    (h : appendEventUnlocked now files event = .ok files') : Appended now files files' event := by
  obtain ⟨events', hevents', h⟩ := bind_eq_ok.mp h
  obtain ⟨previous, hprevious, h⟩ := bind_eq_ok.mp h
  obtain ⟨checkpoint, hcheckpoint, h⟩ := bind_eq_ok.mp h
  obtain ⟨u, -, h⟩ := bind_eq_ok.mp h
  obtain ⟨existing, hexisting, h⟩ := bind_eq_ok.mp h
  obtain ⟨⟨⟩, hlast, h⟩ := bind_eq_ok.mp h
  obtain ⟨line, hline, h⟩ := bind_eq_ok.mp h
  obtain ⟨htoken, -, hread, -⟩ := getTaskEvents_ok.mp hexisting
  obtain rfl : events' = eventsPath event.taskId := by
    obtain ⟨⟨⟩, -, hpath⟩ := bind_eq_ok.mp hevents'
    cases hpath
    rfl
  obtain rfl : checkpoint = checkpointPath event.taskId event.sequence := by
    obtain ⟨⟨⟩, -, hpath⟩ := bind_eq_ok.mp hcheckpoint
    cases hpath
    rfl
  rw [readText_journal hprevious] at h
  have hsequence : ∀ last, existing.getLast? = some last →
      TaskEvent.sequence last < event.sequence := by
    intro last hmem
    rw [raiseIf_eq_ok, hmem] at hlast
    simpa using hlast
  dsimp only at h
  split_ifs at h with hmod
  · obtain ⟨stored, hstored, h⟩ := bind_eq_ok.mp h
    rw [getTask_congr (atomicWrite_of_ne (taskPath_ne_eventsPath _ _) _ _)] at hstored
    cases stored with
    | none =>
        cases h
        exact ⟨htoken, ⟨existing, hread, hsequence⟩, ⟨line, hline, atomicWrite_self ..⟩,
          fun _ => ⟨_, hstored⟩, fun path hne _ => atomicWrite_of_ne hne ..⟩
    | some task =>
        obtain ⟨text, -, h⟩ := bind_eq_ok.mp h
        cases h
        refine ⟨htoken, ⟨existing, hread, hsequence⟩, ⟨line, hline, ?_⟩, fun _ => ⟨_, hstored⟩,
          fun path hne hne' => ?_⟩
        · rw [atomicWrite_of_ne (eventsPath_ne_checkpointPath _ _ _), atomicWrite_self]
        · rw [atomicWrite_of_ne hne', atomicWrite_of_ne hne]
  · cases h
    exact ⟨htoken, ⟨existing, hread, hsequence⟩, ⟨line, hline, atomicWrite_self ..⟩,
      fun h => absurd h hmod, fun path hne _ => atomicWrite_of_ne hne ..⟩

/-- What a saved task leaves behind. -/
structure Saved (now : String) (files files' : Files) (task : PowerTask) (event : TaskEvent)
    (receipt : Option TaskCompletionReceipt) : Prop where
  token : isTaskId task.taskId = true
  taskId : event.taskId = task.taskId
  snapshot : ∃ text, taskText task = .ok text ∧
    files' (taskPath task.taskId) = some (Utf8.encode text) ∧
    (Utf8.encode text).length ≤ maxTaskStateBytes
  existing : ∃ events, readJournal now task.taskId (journalOf files task.taskId) = .ok events ∧
    ∀ last, events.getLast? = some last → TaskEvent.sequence last < event.sequence
  journal : ∃ line, eventLine event = .ok line ∧ files' (eventsPath task.taskId) =
      some (Utf8.encode (journalOf files task.taskId ++ line)) ∧
    (Utf8.encode (journalOf files task.taskId ++ line)).length ≤ maxTaskStateBytes
  checkpoint : event.sequence % 5 = 0 → ∃ stored, getTask now files' task.taskId = .ok stored
  bound : ∀ r, receipt = some r → TaskCompletionReceipt.taskId r = task.taskId ∧
    TaskCompletionReceipt.taskRevision r = task.revision
  certificate : ∀ r, receipt = some r → isReceiptId (TaskCompletionReceipt.receiptId r) = true ∧
    ∃ text, receiptText r = .ok text ∧
      files' (receiptPath (TaskCompletionReceipt.receiptId r)) = some (Utf8.encode text) ∧
      (Utf8.encode text).length ≤ maxTaskStateBytes
  frame : ∀ path, path ≠ taskPath task.taskId → path ≠ eventsPath task.taskId →
    path ≠ checkpointPath task.taskId event.sequence →
    (∀ r, receipt = some r → path ≠ receiptPath (TaskCompletionReceipt.receiptId r)) →
    files' path = files path

omit [LaxInt] in
theorem checkArtifact_ok {op : String} {artifact : RelPath × String}
    (h : checkArtifact op files artifact = .ok ⟨⟩) {data : Bytes}
    (hdata : files artifact.1 = some data) : data.length ≤ maxTaskStateBytes := by
  obtain ⟨label, -, h⟩ := bind_eq_ok.mp h
  obtain ⟨path, -, h⟩ := bind_eq_ok.mp h
  rw [raiseIf_eq_ok, hdata] at h
  simpa using h

omit [LaxInt] in
theorem transact_ok {op : String} {touched : List (RelPath × String)}
    {body : Files → Except Exn Files} (h : transact op touched body files = .ok files') :
    body files = .ok files' ∧ ∀ artifact ∈ touched, ∀ data, files' artifact.1 = some data →
      data.length ≤ maxTaskStateBytes := by
  obtain ⟨⟨⟩, -, h⟩ := bind_eq_ok.mp h
  obtain ⟨written, hbody, h⟩ := bind_eq_ok.mp h
  obtain ⟨⟨⟩, hchecks, h⟩ := bind_eq_ok.mp h
  cases h
  exact ⟨hbody, fun artifact hmem data hdata =>
    checkArtifact_ok (forM_eq_ok.mp hchecks artifact hmem) hdata⟩

/-- The body of a save: the snapshot, the receipt, and the event behind them. -/
theorem writeSaved_ok {task : PowerTask} {event : TaskEvent}
    {receipt : Option TaskCompletionReceipt}
    (h : writeSaved now task (some event) receipt files = .ok files') :
    ∃ text written, taskText task = .ok text ∧
      written (taskPath task.taskId) = some (Utf8.encode text) ∧
      (∀ r, receipt = some r → ∃ text, receiptText r = .ok text ∧
        written (receiptPath (TaskCompletionReceipt.receiptId r)) = some (Utf8.encode text)) ∧
      (∀ path, path ≠ taskPath task.taskId →
        (∀ r, receipt = some r → path ≠ receiptPath (TaskCompletionReceipt.receiptId r)) →
        written path = files path) ∧
      Appended now written files' event := by
  obtain ⟨text, htext, h⟩ := bind_eq_ok.mp h
  dsimp only at h
  cases receipt with
  | none =>
      refine ⟨text, atomicWrite (taskPath task.taskId) text files, htext, atomicWrite_self .., ?_,
        fun path htask _ => atomicWrite_of_ne htask .., appendEventUnlocked_ok h⟩
      rintro r ⟨⟩
  | some receipt =>
      obtain ⟨rtext, hrtext, h⟩ := bind_eq_ok.mp h
      refine ⟨text, _, htext, ?_, ?_, ?_, appendEventUnlocked_ok h⟩
      · rw [atomicWrite_of_ne (taskPath_ne_receiptPath _ _), atomicWrite_self]
      · rintro r ⟨⟩
        exact ⟨rtext, hrtext, atomicWrite_self ..⟩
      · intro path htask hreceipt
        rw [atomicWrite_of_ne (hreceipt receipt rfl), atomicWrite_of_ne htask]

/-- The checks of a save in front of its transaction. -/
theorem saveTask_ok {task : PowerTask} {event : TaskEvent}
    {receipt : Option TaskCompletionReceipt}
    (h : saveTask now files task (some event) receipt = .ok files') :
    isTaskId task.taskId = true ∧ event.taskId = task.taskId ∧
      (∀ r, receipt = some r → isReceiptId (TaskCompletionReceipt.receiptId r) = true ∧
        TaskCompletionReceipt.taskId r = task.taskId ∧
        TaskCompletionReceipt.taskRevision r = task.revision) ∧
      transact event.eventType (touchedBySave task (some event) receipt)
        (writeSaved now task (some event) receipt) files = .ok files' := by
  obtain ⟨path, hpath, h⟩ := bind_eq_ok.mp h
  obtain ⟨htoken, rfl⟩ := taskFile_ok.mp hpath
  obtain ⟨⟨⟩, hids, h⟩ := bind_eq_ok.mp h
  have hid : event.taskId = task.taskId := by simpa using raiseIf_eq_ok.mp hids
  dsimp only at h
  have h : (match receipt with
      | some receipt => do
          let _ ← completionReceiptFile receipt.receiptId
          raiseIf (receipt.taskId ≠ task.taskId)
            (valueError "Completion receipt task ID does not match snapshot")
          raiseIf (receipt.taskRevision ≠ task.revision)
            (valueError "Completion receipt revision does not match snapshot")
          transact event.eventType (touchedBySave task (some event) (some receipt))
            (writeSaved now task (some event) (some receipt)) files
      | none => transact event.eventType (touchedBySave task (some event) none)
          (writeSaved now task (some event) none) files) = Except.ok files' := by
    split_ifs at h
    · obtain ⟨_, -, h⟩ := bind_eq_ok.mp h
      cases receipt <;> exact h
    · cases receipt <;> exact h
  cases receipt with
  | none => exact ⟨htoken, hid, by simp, h⟩
  | some receipt =>
      obtain ⟨rpath, hrpath, h⟩ := bind_eq_ok.mp h
      obtain ⟨⟨⟩, htask, h⟩ := bind_eq_ok.mp h
      obtain ⟨⟨⟩, hrevision, h⟩ := bind_eq_ok.mp h
      refine ⟨htoken, hid, ?_, h⟩
      rintro r ⟨⟩
      exact ⟨(completionReceiptFile_ok.mp hrpath).1, by simpa using raiseIf_eq_ok.mp htask,
        by simpa using raiseIf_eq_ok.mp hrevision⟩

theorem saveTask_saved {task : PowerTask} {event : TaskEvent}
    {receipt : Option TaskCompletionReceipt}
    (h : saveTask now files task (some event) receipt = .ok files') :
    Saved now files files' task event receipt := by
  obtain ⟨htoken, hid, hbound, h⟩ := saveTask_ok h
  obtain ⟨hbody, hsizes⟩ := transact_ok h
  obtain ⟨text, written, htext, hsnapshot, hreceipt, hframe, happended⟩ := writeSaved_ok hbody
  have hjournalOf : journalOf written task.taskId = journalOf files task.taskId :=
    journalOf_congr (hframe _ (taskPath_ne_eventsPath _ _).symm
      fun r _ => eventsPath_ne_receiptPath _ _)
  have hframe' := happended.frame
  rw [hid] at hframe'
  have hkept : ∀ path, path ≠ eventsPath task.taskId →
      path ≠ checkpointPath task.taskId event.sequence → files' path = written path := hframe'
  have hsnapshot' : files' (taskPath task.taskId) = some (Utf8.encode text) := by
    rw [hkept _ (taskPath_ne_eventsPath _ _) (taskPath_ne_checkpointPath _ _ _), hsnapshot]
  refine
    { token := htoken
      taskId := hid
      snapshot := ⟨text, htext, hsnapshot', ?_⟩
      existing := ?_
      journal := ?_
      checkpoint := ?_
      bound := fun r hr => (hbound r hr).2
      certificate := ?_
      frame := ?_ }
  · exact hsizes (taskPath task.taskId, "snapshot") (by simp [touchedBySave]) _ hsnapshot'
  · have := happended.existing
    rwa [hid, hjournalOf] at this
  · obtain ⟨line, hline, hjournal⟩ := happended.journal
    rw [hid, hjournalOf] at hjournal
    exact ⟨line, hline, hjournal,
      hsizes (eventsPath task.taskId, "event") (by simp [touchedBySave]) _ hjournal⟩
  · intro hmod
    obtain ⟨stored, hstored⟩ := happended.checkpoint hmod
    rw [hid] at hstored
    refine ⟨stored, ?_⟩
    rw [getTask_congr (hkept _ (taskPath_ne_eventsPath _ _) (taskPath_ne_checkpointPath _ _ _)),
      hstored]
  · intro r hr
    obtain ⟨rtext, hrtext, hrwritten⟩ := hreceipt r hr
    have hrfile : files' (receiptPath (TaskCompletionReceipt.receiptId r)) =
        some (Utf8.encode rtext) := by
      rw [hkept _ (eventsPath_ne_receiptPath _ _).symm (checkpointPath_ne_receiptPath _ _ _).symm,
        hrwritten]
    refine ⟨(hbound r hr).1, rtext, hrtext, hrfile, ?_⟩
    subst hr
    exact hsizes (receiptPath (TaskCompletionReceipt.receiptId r), "receipt")
      (by simp [touchedBySave]) _ hrfile
  · intro path htask hevents hcheckpoint hreceipts
    rw [hkept path hevents hcheckpoint, hframe path htask hreceipts]

/-! ## When a save succeeds -/

theorem getTaskEvents_congr {taskId : String} {allowMissing : Bool}
    (htask : files' (taskPath taskId) = files (taskPath taskId) ∨ allowMissing = true)
    (hevents : files' (eventsPath taskId) = files (eventsPath taskId)) :
    getTaskEvents now files' taskId 0 allowMissing = getTaskEvents now files taskId 0 allowMissing := by
  unfold getTaskEvents
  cases hpath : eventsFile taskId with
  | error e => rfl
  | ok path =>
      obtain ⟨⟨⟩, -, hpath⟩ := bind_eq_ok.mp hpath
      cases hpath
      simp only [bind, Except.bind, hevents]
      rcases htask with htask | rfl
      · rw [htask]
      · simp only [Bool.not_true, Bool.and_false]

omit [LaxInt] in
theorem checkArtifact_of {op : String} {artifact : RelPath × String}
    (hpath : ∃ path, allowedRecoveryPath artifact.2 artifact.1 op = .ok path)
    (hsize : ∀ data, files artifact.1 = some data → data.length ≤ maxTaskStateBytes) :
    checkArtifact op files artifact = .ok ⟨⟩ := by
  obtain ⟨path, hpath⟩ := hpath
  obtain ⟨-, hlabel, -⟩ := allowedRecoveryPath_ok hpath
  refine bind_eq_ok.mpr ⟨artifact.2, hlabel, bind_eq_ok.mpr ⟨path, hpath, ?_⟩⟩
  rw [raiseIf_eq_ok]
  cases hfile : files artifact.1 with
  | none => simp
  | some data => simpa using hsize data hfile

/-- What a save that needs no checkpoint asks for. -/
structure Savable (now : String) (files : Files) (task : PowerTask) (event : TaskEvent)
    (receipt : Option TaskCompletionReceipt) : Prop where
  token : isTaskId task.taskId = true
  taskId : event.taskId = task.taskId
  unchecked : event.sequence % 5 ≠ 0
  checkpoint : files (checkpointPath task.taskId event.sequence) = none
  paths : ∀ artifact ∈ touchedBySave task (some event) receipt,
    ∃ path, allowedRecoveryPath artifact.2 artifact.1 event.eventType = .ok path
  sizes : ∀ artifact ∈ touchedBySave task (some event) receipt, ∀ data,
    files artifact.1 = some data → data.length ≤ maxTaskStateBytes
  stored : (files (taskPath task.taskId)).isSome = true →
    ∃ events, getTaskEvents now files task.taskId 0 false = .ok events
  journal : ∃ events, getTaskEvents now files task.taskId 0 true = .ok events ∧
    ∀ last, events.getLast? = some last → TaskEvent.sequence last < event.sequence
  snapshot : ∃ text, taskText task = .ok text ∧
    (Utf8.encode text).length ≤ maxTaskStateBytes
  line : ∃ line, eventLine event = .ok line ∧
    (Utf8.encode (journalOf files task.taskId ++ line)).length ≤ maxTaskStateBytes
  certificate : ∀ r, receipt = some r → isReceiptId (TaskCompletionReceipt.receiptId r) = true ∧
    TaskCompletionReceipt.taskId r = task.taskId ∧
    TaskCompletionReceipt.taskRevision r = task.revision ∧
    ∃ text, receiptText r = .ok text ∧ (Utf8.encode text).length ≤ maxTaskStateBytes

theorem appendEventUnlocked_of {event : TaskEvent} {events : List TaskEvent} {line : List Char}
    (hevents : getTaskEvents now files event.taskId 0 true = .ok events)
    (hlast : ∀ last, events.getLast? = some last → TaskEvent.sequence last < event.sequence)
    (hline : eventLine event = .ok line) (hmod : event.sequence % 5 ≠ 0)
    (hcheckpoint : files (checkpointPath event.taskId event.sequence) = none) :
    appendEventUnlocked now files event = .ok (atomicWrite (eventsPath event.taskId)
      (journalOf files event.taskId ++ line) files) := by
  obtain ⟨htoken, hdata, -, -⟩ := getTaskEvents_ok.mp hevents
  have hvalid : ensureValidTaskId event.taskId = .ok ⟨⟩ := raiseIf_eq_ok.mpr (by simp [htoken])
  obtain ⟨previous, hprevious⟩ :
      ∃ previous, readText files (eventsPath event.taskId) = .ok previous := by
    unfold readText
    cases hfile : files (eventsPath event.taskId) with
    | none => exact ⟨none, rfl⟩
    | some data =>
        exact ⟨_, map_eq_ok.mpr ⟨_, secureText_ok.mpr (hdata data hfile), rfl⟩⟩
  have hnone : readText files (checkpointPath event.taskId event.sequence) = .ok none := by
    unfold readText
    rw [hcheckpoint]
  rw [← readText_journal hprevious]
  refine bind_eq_ok.mpr ⟨_, bind_eq_ok.mpr ⟨⟨⟩, hvalid, rfl⟩, ?_⟩
  refine bind_eq_ok.mpr ⟨previous, hprevious, ?_⟩
  refine bind_eq_ok.mpr ⟨_, bind_eq_ok.mpr ⟨⟨⟩, hvalid, rfl⟩, ?_⟩
  refine bind_eq_ok.mpr ⟨none, hnone, bind_eq_ok.mpr ⟨events, hevents, ?_⟩⟩
  refine bind_eq_ok.mpr ⟨⟨⟩, ?_, bind_eq_ok.mpr ⟨line, hline, ?_⟩⟩
  · rw [raiseIf_eq_ok]
    cases hcase : events.getLast? with
    | none => simp
    | some last => simpa using hlast last hcase
  · dsimp only
    rw [if_neg hmod]
    rfl

/-- The body of such a save: the files in front of the event, and the files it leaves. -/
theorem writeSaved_of {task : PowerTask} {event : TaskEvent}
    {receipt : Option TaskCompletionReceipt} (h : Savable now files task event receipt) :
    ∃ files', writeSaved now task (some event) receipt files = .ok files' ∧
      ∀ artifact ∈ touchedBySave task (some event) receipt, ∀ data,
        files' artifact.1 = some data → data.length ≤ maxTaskStateBytes := by
  obtain ⟨text, htext, hsize⟩ := h.snapshot
  obtain ⟨line, hline, hlinesize⟩ := h.line
  obtain ⟨events, hevents, hlast⟩ := h.journal
  have happend : ∀ written : Files,
      written (eventsPath task.taskId) = files (eventsPath task.taskId) →
      written (checkpointPath task.taskId event.sequence) = none →
      appendEventUnlocked now written event = .ok (atomicWrite (eventsPath task.taskId)
        (journalOf files task.taskId ++ line) written) := by
    intro written hjournal hcheckpoint
    rw [← journalOf_congr hjournal, ← h.taskId]
    rw [← h.taskId] at hcheckpoint hjournal hevents
    refine appendEventUnlocked_of ?_ hlast hline h.unchecked hcheckpoint
    rw [getTaskEvents_congr (Or.inr rfl) hjournal]
    exact hevents
  have htouched : ∀ artifact, artifact ∈ touchedBySave task (some event) receipt ↔
      artifact = (taskPath task.taskId, "snapshot") ∨ artifact = (eventsPath task.taskId, "event") ∨
        ∃ r, receipt = some r ∧
          artifact = (receiptPath (TaskCompletionReceipt.receiptId r), "receipt") := by
    intro artifact
    cases receipt <;> simp [touchedBySave, h.unchecked]
  cases receipt with
  | none =>
      refine ⟨_, bind_eq_ok.mpr ⟨text, htext, happend _ ?_ ?_⟩, ?_⟩
      · exact atomicWrite_of_ne (taskPath_ne_eventsPath _ _).symm ..
      · rw [atomicWrite_of_ne (taskPath_ne_checkpointPath _ _ _).symm, h.checkpoint]
      · intro artifact hartifact data hdata
        rcases (htouched artifact).mp hartifact with rfl | rfl | ⟨r, ⟨⟩, -⟩
        · rw [atomicWrite_of_ne (taskPath_ne_eventsPath _ _), atomicWrite_self] at hdata
          cases hdata
          exact hsize
        · rw [atomicWrite_self] at hdata
          cases hdata
          exact hlinesize
  | some r =>
      obtain ⟨-, -, -, rtext, hrtext, hrsize⟩ := h.certificate r rfl
      refine ⟨_, bind_eq_ok.mpr ⟨text, htext, bind_eq_ok.mpr ⟨rtext, hrtext, happend _ ?_ ?_⟩⟩, ?_⟩
      · rw [atomicWrite_of_ne (eventsPath_ne_receiptPath _ _),
          atomicWrite_of_ne (taskPath_ne_eventsPath _ _).symm]
      · rw [atomicWrite_of_ne (checkpointPath_ne_receiptPath _ _ _),
          atomicWrite_of_ne (taskPath_ne_checkpointPath _ _ _).symm, h.checkpoint]
      · intro artifact hartifact data hdata
        rcases (htouched artifact).mp hartifact with rfl | rfl | ⟨r, ⟨⟩, rfl⟩
        · rw [atomicWrite_of_ne (taskPath_ne_eventsPath _ _),
            atomicWrite_of_ne (taskPath_ne_receiptPath _ _), atomicWrite_self] at hdata
          cases hdata
          exact hsize
        · rw [atomicWrite_self] at hdata
          cases hdata
          exact hlinesize
        · rw [atomicWrite_of_ne (eventsPath_ne_receiptPath _ _).symm, atomicWrite_self] at hdata
          cases hdata
          exact hrsize

theorem saveTask_of {task : PowerTask} {event : TaskEvent}
    {receipt : Option TaskCompletionReceipt} (h : Savable now files task event receipt) :
    ∃ files', saveTask now files task (some event) receipt = .ok files' := by
  obtain ⟨files', hwritten, hsizes⟩ := writeSaved_of h
  have htransact : transact event.eventType (touchedBySave task (some event) receipt)
      (writeSaved now task (some event) receipt) files = .ok files' := by
    refine bind_eq_ok.mpr ⟨⟨⟩, forM_eq_ok.mpr fun artifact hmem => ?_, ?_⟩
    · exact checkArtifact_of (h.paths artifact hmem) (h.sizes artifact hmem)
    refine bind_eq_ok.mpr ⟨files', hwritten, ?_⟩
    refine bind_eq_ok.mpr ⟨⟨⟩, forM_eq_ok.mpr fun artifact hmem => ?_, rfl⟩
    exact checkArtifact_of (h.paths artifact hmem) (hsizes artifact hmem)
  refine ⟨files', bind_eq_ok.mpr ⟨_, taskFile_ok.mpr ⟨h.token, rfl⟩, ?_⟩⟩
  refine bind_eq_ok.mpr ⟨⟨⟩, raiseIf_eq_ok.mpr (by simp [h.taskId]), ?_⟩
  have hrest : (match receipt with
      | some receipt => do
          let _ ← completionReceiptFile receipt.receiptId
          raiseIf (receipt.taskId ≠ task.taskId)
            (valueError "Completion receipt task ID does not match snapshot")
          raiseIf (receipt.taskRevision ≠ task.revision)
            (valueError "Completion receipt revision does not match snapshot")
          transact event.eventType (touchedBySave task (some event) (some receipt))
            (writeSaved now task (some event) (some receipt)) files
      | none => transact event.eventType (touchedBySave task (some event) none)
          (writeSaved now task (some event) none) files) = Except.ok files' := by
    cases receipt with
    | none => exact htransact
    | some r =>
        obtain ⟨hrid, hrtask, hrrevision, -⟩ := h.certificate r rfl
        refine bind_eq_ok.mpr ⟨_, completionReceiptFile_ok.mpr ⟨hrid, rfl⟩, ?_⟩
        refine bind_eq_ok.mpr ⟨⟨⟩, raiseIf_eq_ok.mpr (by simp [hrtask]), ?_⟩
        exact bind_eq_ok.mpr ⟨⟨⟩, raiseIf_eq_ok.mpr (by simp [hrrevision]), htransact⟩
  dsimp only
  split_ifs with hstored
  · obtain ⟨events, hevents⟩ := h.stored hstored
    refine bind_eq_ok.mpr ⟨events, hevents, ?_⟩
    cases receipt <;> exact hrest
  · cases receipt <;> exact hrest

end

end PowerFramework.Task
