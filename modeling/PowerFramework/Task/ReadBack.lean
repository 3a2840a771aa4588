import PowerFramework.Task.Service
/-!
# Read your writes

What a command that succeeds has done (`createTask_ok`, `transitionTask_ok`, `advance_ok`), and
when the task it returns is the one that is read afterwards.
-/

namespace PowerFramework.Task

open Lib Lib.Failure Lib.Json Ledger TaskStore

/-! ## Reading a snapshot -/

theorem orRaise_ok {α : Type} {x : Except Exn α} {e : Exn} {a : α} :
    orRaise x e = .ok a ↔ x = .ok a := by
  cases x <;> simp [orRaise]

theorem secureJson_ok {data : Bytes} {value : Value} :
    secureJson data = .ok value ↔
      ∃ text, data.length ≤ maxTaskStateBytes ∧ data = Utf8.encode text ∧ loads text = some value := by
  rw [secureJson, bind_eq_ok]
  constructor
  · rintro ⟨text, htext, h⟩
    obtain ⟨hsize, hdata⟩ := secureText_ok.mp htext
    cases hloads : loads text with
    | none =>
        rw [hloads] at h
        cases h
    | some value' =>
        rw [hloads] at h
        cases h
        exact ⟨text, hsize, hdata, hloads⟩
  · rintro ⟨text, hsize, hdata, hloads⟩
    refine ⟨text, secureText_ok.mpr ⟨hsize, hdata⟩, ?_⟩
    rw [hloads]
    rfl

section
variable [LaxInt] {now taskId : String} {files : Files}

theorem getTask_ok {task : PowerTask} :
    getTask now files taskId = .ok (some task) ↔ isTaskId taskId = true ∧
      ∃ data text value, files (taskPath taskId) = some data ∧ data.length ≤ maxTaskStateBytes ∧
        data = Utf8.encode text ∧ loads text = some value ∧
        validate (taskFields now) value = .ok task := by
  rw [getTask, bind_eq_ok]
  constructor
  · rintro ⟨path, hpath, h⟩
    obtain ⟨htoken, rfl⟩ := taskFile_ok.mp hpath
    cases hfile : files (taskPath taskId) with
    | none =>
        rw [hfile] at h
        cases h
    | some data =>
        rw [hfile] at h
        obtain ⟨task', htask, h⟩ := bind_eq_ok.mp h
        cases h
        obtain ⟨value, hvalue, hvalid⟩ := bind_eq_ok.mp (orRaise_ok.mp htask)
        obtain ⟨text, hsize, hdata, hloads⟩ := secureJson_ok.mp hvalue
        exact ⟨htoken, data, text, value, rfl, hsize, hdata, hloads, hvalid⟩
  · rintro ⟨htoken, data, text, value, hfile, hsize, hdata, hloads, hvalid⟩
    refine ⟨taskPath taskId, taskFile_ok.mpr ⟨htoken, rfl⟩, ?_⟩
    have htask : loadTask now taskId data = .ok task :=
      orRaise_ok.mpr (bind_eq_ok.mpr ⟨value, secureJson_ok.mpr ⟨text, hsize, hdata, hloads⟩, hvalid⟩)
    rw [hfile]
    exact bind_eq_ok.mpr ⟨task, htask, rfl⟩

theorem getTask_none (h : getTask now files taskId = .ok none) :
    isTaskId taskId = true ∧ files (taskPath taskId) = none := by
  rw [getTask, bind_eq_ok] at h
  obtain ⟨path, hpath, h⟩ := h
  obtain ⟨htoken, rfl⟩ := taskFile_ok.mp hpath
  cases hfile : files (taskPath taskId) with
  | none => exact ⟨htoken, rfl⟩
  | some data =>
      rw [hfile] at h
      obtain ⟨task, -, h⟩ := bind_eq_ok.mp h
      cases h

/-- A task that was read is an instance, and its input is its own JSON form. -/
theorem stored_task {task : PowerTask} (h : getTask now files taskId = .ok (some task)) :
    Instance (taskFields now) task ∧
      (getItem task "required_input").asJson = getItem task "required_input" := by
  obtain ⟨-, data, text, value, -, -, -, hloads, hvalid⟩ := getTask_ok.mp h
  have hfield : Field.optDict "required_input" ∈ taskFields now := by simp [taskFields]
  exact ⟨task_instance hvalid,
    asJson_of_read hloads hvalid (nodup_of_sorted (sorted_taskFields now)) hfield
      (keepsJson_optDict _)⟩

/-- The task that is read of a saved snapshot. -/
theorem getTask_saved {task task' : PowerTask} {event : TaskEvent}
    {receipt : Option TaskCompletionReceipt} {before : Files}
    (h : Saved now before files task event receipt) (now' : String) :
    getTask now' files task.taskId = .ok (some task') ↔
      validate (taskFields now') (Value.dict task).asJson = .ok task' := by
  obtain ⟨text, htext, hfile, hsize⟩ := h.snapshot
  have hloads : loads text = some (Value.dict task).asJson := loads_write htext
  rw [getTask_ok]
  constructor
  · rintro ⟨-, data, text', value, hdata, -, rfl, hvalue, hvalid⟩
    rw [hfile, Option.some_inj] at hdata
    rw [Utf8.encode_injective hdata.symm, hloads, Option.some_inj] at hvalue
    rwa [hvalue]
  · intro hvalid
    exact ⟨h.token, _, text, _, hfile, hsize, rfl, hloads, hvalid⟩

/-- The time of the reading is the default of fields that every instance has. -/
theorem instance_task_iff {now' : String} {task : PowerTask} :
    Instance (taskFields now) task ↔ Instance (taskFields now') task :=
  instance_congr rfl

end

/-! ## What commands do -/

section
variable [LaxInt] {clock : Clock} {files files' : Files} {task next : PowerTask}

/-- What a transition that is no replay does. -/
structure Advanced (clock : Clock) (files : Files) (c : TransitionCommand) (commandSha256 : String)
    (task : PowerTask) (events : List TaskEvent) (next : PowerTask) (files' : Files)
    (receipt : Option TaskCompletionReceipt) (receiptId : Option String) (event : TaskEvent) :
    Prop where
  revision : ∀ revision, c.expectedRevision = some revision → task.revision = revision
  infra : checkInfra task c = .ok ⟨⟩
  completion : completionReceipt clock files task c = .ok receipt
  named : receiptId = (receipt.map TaskCompletionReceipt.receiptId).or c.receiptId
  allowed : task.validateTransition c.newState receiptId = .ok ⟨⟩
  moved : revalidated clock.now (assigned clock.now task c receiptId) c = .ok next
  recorded : TaskEvent.create clock.event clock.stamp c.taskId
    ((events.getLast?.map TaskEvent.sequence).getD 0 + 1) c.actor "state_transition"
    (transitionPayload c commandSha256 task.state receiptId next) (lastDigest "" events) = .ok event
  saved : saveTask clock.now files next (some event) receipt = .ok files'

theorem advance_ok {c : TransitionCommand} {commandSha256 : String} {events : List TaskEvent}
    (h : advance clock files c commandSha256 task events = .ok (next, files')) :
    ∃ receipt receiptId event,
      Advanced clock files c commandSha256 task events next files' receipt receiptId event := by
  obtain ⟨⟨⟩, hrevision, h⟩ := bind_eq_ok.mp h
  obtain ⟨⟨⟩, hinfra, h⟩ := bind_eq_ok.mp h
  obtain ⟨receipt, hreceipt, h⟩ := bind_eq_ok.mp h
  obtain ⟨⟨⟩, htransition, h⟩ := bind_eq_ok.mp h
  obtain ⟨next', hnext, h⟩ := bind_eq_ok.mp h
  obtain ⟨event, hevent, h⟩ := bind_eq_ok.mp h
  obtain ⟨written, hsaved, h⟩ := bind_eq_ok.mp h
  cases h
  refine ⟨receipt, _, event,
    { revision := ?_
      infra := hinfra
      completion := hreceipt
      named := by cases receipt <;> rfl
      allowed := htransition
      moved := hnext
      recorded := hevent
      saved := hsaved }⟩
  intro revision heq
  rw [raiseIf_eq_ok, heq] at hrevision
  simpa using hrevision

variable [PythonText]

theorem transitionTask_ok {c : TransitionCommand} :
    transitionTask clock files c = .ok (next, files') ↔
      ∃ commandSha256 task events replay,
        commandFingerprint "transition" c.payload = .ok commandSha256 ∧
        getTask clock.now files c.taskId = .ok (some task) ∧
        getTaskEvents clock.now files c.taskId 0 false = .ok events ∧ events ≠ [] ∧
        findIdempotentResult clock.now files c.taskId c.idempotencyKey commandSha256
          (some events) = .ok replay ∧
        match replay with
        | some result => next = result ∧ files' = files
        | none => advance clock files c commandSha256 task events = .ok (next, files') := by
  constructor
  · intro h
    obtain ⟨commandSha256, hsha, h⟩ := bind_eq_ok.mp h
    obtain ⟨stored, hstored, h⟩ := bind_eq_ok.mp h
    cases stored with
    | none => cases h
    | some task =>
        obtain ⟨events, hevents, h⟩ := bind_eq_ok.mp h
        obtain ⟨⟨⟩, hempty, h⟩ := bind_eq_ok.mp h
        obtain ⟨replay, hreplay, h⟩ := bind_eq_ok.mp h
        refine ⟨commandSha256, task, events, replay, hsha, hstored, hevents, ?_, hreplay, ?_⟩
        · rintro rfl
          simp at hempty
        · cases replay with
          | some result =>
              cases h
              exact ⟨rfl, rfl⟩
          | none => exact h
  · rintro ⟨commandSha256, task, events, replay, hsha, hstored, hevents, hne, hreplay, h⟩
    refine bind_eq_ok.mpr ⟨commandSha256, hsha, bind_eq_ok.mpr ⟨some task, hstored, ?_⟩⟩
    refine bind_eq_ok.mpr ⟨events, hevents, bind_eq_ok.mpr ⟨⟨⟩, ?_, ?_⟩⟩
    · rw [raiseIf_eq_ok]
      simpa using hne
    · refine bind_eq_ok.mpr ⟨replay, hreplay, ?_⟩
      cases replay with
      | some result =>
          obtain ⟨rfl, rfl⟩ := h
          rfl
      | none => exact h

/-- What a creation that is no replay does. -/
structure Created (clock : Clock) (files : Files) (c : CreateCommand) (commandSha256 : String)
    (task : PowerTask) (files' : Files) (event : TaskEvent) : Prop where
  built : newTask clock.now c = .ok task
  recorded : TaskEvent.create clock.event clock.stamp c.taskId 1 c.actor "task_created"
    (createdPayload c commandSha256 task) "" = .ok event
  saved : saveTask clock.now files task (some event) none = .ok files'

theorem createTask_ok {c : CreateCommand} :
    createTask clock files c = .ok (next, files') ↔
      terminalStates.contains c.state = false ∧
      (c.externalRefs.any fun ref => ref.1.startsWith "infra_") = false ∧
      ∃ commandSha256 existing,
        commandFingerprint "create" c.payload = .ok commandSha256 ∧
        getTask clock.now files c.taskId = .ok existing ∧
        match existing with
        | some _ => findIdempotentResult clock.now files c.taskId c.idempotencyKey commandSha256
            none = .ok (some next) ∧ files' = files
        | none => ∃ event, Created clock files c commandSha256 next files' event := by
  constructor
  · intro h
    obtain ⟨⟨⟩, hterminal, h⟩ := bind_eq_ok.mp h
    obtain ⟨⟨⟩, hinfra, h⟩ := bind_eq_ok.mp h
    obtain ⟨commandSha256, hsha, h⟩ := bind_eq_ok.mp h
    obtain ⟨existing, hexisting, h⟩ := bind_eq_ok.mp h
    refine ⟨by simpa using hterminal, by simpa using hinfra, commandSha256, existing, hsha,
      hexisting, ?_⟩
    cases existing with
    | some task =>
        obtain ⟨replay, hreplay, h⟩ := bind_eq_ok.mp h
        cases replay with
        | some result =>
            cases h
            exact ⟨hreplay, rfl⟩
        | none => cases h
    | none =>
        obtain ⟨task, htask, h⟩ := bind_eq_ok.mp h
        obtain ⟨event, hevent, h⟩ := bind_eq_ok.mp h
        obtain ⟨written, hsaved, h⟩ := bind_eq_ok.mp h
        cases h
        exact ⟨event, htask, hevent, hsaved⟩
  · rintro ⟨hterminal, hinfra, commandSha256, existing, hsha, hexisting, h⟩
    refine bind_eq_ok.mpr ⟨⟨⟩, raiseIf_eq_ok.mpr (by rw [hterminal]; decide), ?_⟩
    refine bind_eq_ok.mpr ⟨⟨⟩, raiseIf_eq_ok.mpr (by rw [hinfra]; decide), ?_⟩
    refine bind_eq_ok.mpr ⟨commandSha256, hsha, bind_eq_ok.mpr ⟨existing, hexisting, ?_⟩⟩
    cases existing with
    | some task =>
        obtain ⟨hreplay, rfl⟩ := h
        exact bind_eq_ok.mpr ⟨some next, hreplay, rfl⟩
    | none =>
        obtain ⟨event, hcreated⟩ := h
        exact bind_eq_ok.mpr ⟨next, hcreated.built, bind_eq_ok.mpr ⟨event, hcreated.recorded,
          bind_eq_ok.mpr ⟨files', hcreated.saved, rfl⟩⟩⟩

end

/-! ## The assignments of a transition -/

section
variable [LaxInt] {now : String} {task : PowerTask}

omit [LaxInt] in
theorem getItem_assign (name field : String) (value : Option Value) (task : PowerTask) :
    getItem (assign name value task) field =
      if field = name then value.getD (getItem task field) else getItem task field := by
  cases value with
  | none => simp [assign]
  | some value => exact getItem_setItem name field value task

omit [LaxInt] in
theorem getItem_addReceiptId {field : String} (h : field ≠ "receipt_ids")
    (receiptId : Option String) (task : PowerTask) :
    getItem (addReceiptId receiptId task) field = getItem task field := by
  unfold addReceiptId
  split_ifs
  · rfl
  · rw [getItem_setItem, if_neg h]

theorem instance_assign (h : Instance (taskFields now) task) (field : Field)
    (value : Option Value) (hfield : field ∈ taskFields now)
    (hread : ∀ v, value = some v → field.read v = some v) :
    Instance (taskFields now) (assign field.name value task) := by
  cases value with
  | none => exact h
  | some value => exact h.setItem (sorted_taskFields now) field value hfield (hread value rfl)

theorem instance_addReceiptId (h : Instance (taskFields now) task) (receiptId : Option String) :
    Instance (taskFields now) (addReceiptId receiptId task) := by
  have hfield : Field.strList "receipt_ids" (some []) ∈ taskFields now := by simp [taskFields]
  unfold addReceiptId
  split_ifs
  · exact h
  · exact h.setItem (sorted_taskFields now) _ _ hfield (readStrList_strList _)

omit [LaxInt] in
/-- A transition leads to a state of the model. -/
theorem mem_taskStates_of_validTransitions {state newState : String}
    (h : newState ∈ validTransitions state) : taskStates.contains newState = true := by
  have hall : ∀ states : List String, (∀ s ∈ states, taskStates.contains s = true) →
      newState ∈ states → taskStates.contains newState = true := fun states hstates => hstates _
  unfold validTransitions at h
  split at h <;> exact hall _ (by decide) h

theorem state_of_instance (h : Instance (taskFields now) task) :
    taskStates.contains task.state = true := by
  have hfield : Field.str "state" (some "backlog") (taskStates.contains ·) ∈ taskFields now := by
    simp [taskFields]
  obtain ⟨s, hs, hok, -⟩ := readStr_ok (h.read_getItem hfield)
  change getItem task "state" = .str s at hs
  rw [PowerTask.state, textOf, hs]
  exact hok

theorem revision_of_instance (h : Instance (taskFields now) task) :
    getItem task "revision" = .int task.revision ∧ 1 ≤ task.revision := by
  have hfield : Field.int "revision" (some 1) (1 ≤ ·) ∈ taskFields now := by simp [taskFields]
  obtain ⟨n, hok, hn⟩ := readInt_ok (h.read_getItem hfield)
  change getItem task "revision" = .int n at hn
  have hrevision : task.revision = n := by rw [PowerTask.revision, intOf, hn]
  exact ⟨hrevision ▸ hn, by simpa [hrevision] using hok⟩

omit [LaxInt] in
theorem validateTransition_ok {newState : String} {receiptId : Option String}
    (h : task.validateTransition newState receiptId = .ok ⟨⟩) :
    (task.isTerminal = true → newState = task.state) ∧
      (task.state = newState ∨ newState ∈ validTransitions task.state) := by
  obtain ⟨⟨⟩, hterminal, h⟩ := bind_eq_ok.mp h
  obtain ⟨⟨⟩, hallowed, -⟩ := bind_eq_ok.mp h
  rw [raiseIf_eq_ok] at hterminal hallowed
  constructor
  · intro hterm
    by_contra hne
    exact hterminal (by simp [hterm, hne])
  · simpa [PowerTask.canTransitionTo, or_iff_not_imp_left] using hallowed

/-- The bounds that hold of what a command assigns without validating it. -/
def TransitionCommand.bounded (c : TransitionCommand) : Bool :=
  c.nextAction.all (lengthAtMost 512) && c.assignee.all (lengthAtMost 64)

theorem assigned_instance {c : TransitionCommand} {receiptId : Option String}
    (h : Instance (taskFields now) task)
    (htransition : task.validateTransition c.newState receiptId = .ok ⟨⟩) :
    Instance (taskFields now) (assigned now task c receiptId) ↔ c.bounded = true := by
  constructor
  · intro hassigned
    have hnext : Field.str "next_action" (some "inspect") (lengthAtMost 512) ∈ taskFields now := by
      simp [taskFields]
    have hassignee : Field.optStr "assignee" (lengthAtMost 64) ∈ taskFields now := by
      simp [taskFields]
    have hnext := hassigned.read_getItem hnext
    have hassignee := hassigned.read_getItem hassignee
    change readStr _ (getItem (assigned now task c receiptId) "next_action") = _ at hnext
    change readOptStr _ (getItem (assigned now task c receiptId) "assignee") = _ at hassignee
    rw [TransitionCommand.bounded, Bool.and_eq_true]
    constructor
    · cases hvalue : c.nextAction with
      | none => rfl
      | some s =>
          obtain ⟨s', hs', hok, -⟩ := readStr_ok hnext
          simp only [assigned, getItem_assign, hvalue] at hs'
          cases hs'
          exact hok
    · cases hvalue : c.assignee with
      | none => rfl
      | some s =>
          obtain ⟨-, o, ho, hok⟩ := readOptStr_ok hassignee
          simp only [assigned, getItem_assign, hvalue] at ho
          cases o with
          | none => cases ho
          | some s' =>
              cases ho
              exact hok s rfl
  · intro hbounded
    rw [TransitionCommand.bounded, Bool.and_eq_true] at hbounded
    have hstate : taskStates.contains c.newState = true := by
      rcases (validateTransition_ok htransition).2 with heq | hmem
      · rw [← heq]
        exact state_of_instance h
      · exact mem_taskStates_of_validTransitions hmem
    have hmoved : Instance (taskFields now) (setItem "updated_at" (.str now)
        (setItem "revision" (.int (task.revision + 1))
          (setItem "state" (.str c.newState) task))) := by
      have hrevision : (1 : Int) ≤ task.revision + 1 := by
        have := (revision_of_instance h).2
        omega
      have h1 := h.setItem (sorted_taskFields now)
        (.str "state" (some "backlog") (taskStates.contains ·)) (.str c.newState)
        (by simp [taskFields]) (if_pos hstate)
      have h2 := h1.setItem (sorted_taskFields now) (.int "revision" (some 1) (1 ≤ ·))
        (.int (task.revision + 1)) (by simp [taskFields]) (readInt_int (decide_eq_true hrevision))
      exact h2.setItem (sorted_taskFields now) (.str "updated_at" (some now) (fun _ => true))
        (.str now) (by simp [taskFields]) rfl
    have hreceipt := instance_addReceiptId hmoved receiptId
    have hnext := instance_assign hreceipt (.str "next_action" (some "inspect") (lengthAtMost 512))
      (c.nextAction.map .str) (by simp [taskFields]) (by
        intro v hv
        obtain ⟨s, hs, rfl⟩ := Option.map_eq_some_iff.mp hv
        rw [hs] at hbounded
        exact if_pos hbounded.1)
    have hassignee := instance_assign hnext (.optStr "assignee" (lengthAtMost 64))
      (c.assignee.map .str) (by simp [taskFields]) (by
        intro v hv
        obtain ⟨s, hs, rfl⟩ := Option.map_eq_some_iff.mp hv
        rw [hs] at hbounded
        exact if_pos hbounded.2)
    have hinput := instance_assign hassignee (.optDict "required_input")
      (c.requiredInput.map fun items => .dict (dictFrom items)) (by simp [taskFields]) (by
        intro v hv
        obtain ⟨items, -, rfl⟩ := Option.map_eq_some_iff.mp hv
        exact readDict_sorted (sortedKeys_dictFrom items))
    have hgates := instance_assign hinput (.strList "open_gates" (some []))
      (c.openGates.map strList) (by simp [taskFields]) (by
        intro v hv
        obtain ⟨texts, -, rfl⟩ := Option.map_eq_some_iff.mp hv
        exact readStrList_strList texts)
    exact instance_assign hgates (.optStr "error_ref" (fun _ => true)) (c.errorRef.map .str)
      (by simp [taskFields]) (by
        intro v hv
        obtain ⟨s, -, rfl⟩ := Option.map_eq_some_iff.mp hv
        rfl)

end

/-! ## The updates of a transition -/

/-- The items of `values`. -/
def TransitionCommand.newValues (c : TransitionCommand) : Dict := dictFrom (c.values.getD [])

/-- The updates of the command are validated with the whole task. -/
def TransitionCommand.revalidates (c : TransitionCommand) : Bool :=
  !c.newValues.isEmpty || !(c.externalRefUpdates.getD []).isEmpty

/-- The structured input that the command gives the task, if it gives one. -/
def TransitionCommand.newInput (c : TransitionCommand) : Option Value :=
  (c.newValues.lookup "required_input").or
    (c.requiredInput.map fun items => .dict (dictFrom items))

/-- The input is read as a value without another JSON form. -/
def PlainInput (input : Option Value) : Prop :=
  ∀ value value', input = some value → readOptDict value = some value' → value'.asJson = value'

section
variable [LaxInt] {now : String} {task next : PowerTask} {c : TransitionCommand}

omit [LaxInt] in
theorem lookup_assign (name field : String) (value : Option Value) (task : PowerTask) :
    (assign name value task).lookup field =
      if field = name then value.or (task.lookup field) else task.lookup field := by
  cases value with
  | none => simp [assign]
  | some value => exact lookup_setItem name field value task

omit [LaxInt] in
theorem lookup_addReceiptId {field : String} (h : field ≠ "receipt_ids")
    (receiptId : Option String) (task : PowerTask) :
    (addReceiptId receiptId task).lookup field = task.lookup field := by
  unfold addReceiptId
  split_ifs
  · rfl
  · rw [lookup_setItem, if_neg h]

theorem revalidated_ok {base : PowerTask} (h : revalidated now base c = .ok next) :
    (c.revalidates = false ∧ next = base) ∨
    (c.revalidates = true ∧ ∃ items : Dict, validate (taskFields now) (.dict items) = .ok next ∧
      (∀ name, name ≠ "external_refs" →
        items.lookup name = (c.newValues.lookup name).or (base.lookup name)) ∧
      ∀ name, mutableFields.contains name = false → c.newValues.lookup name = none) := by
  rw [TransitionCommand.revalidates]
  unfold revalidated at h
  split at h
  · rename_i hvalues hupdates
    cases h
    have hvalues : c.newValues = [] := hvalues
    simp [hvalues, hupdates]
  · rename_i hvalues hne
    have hvalues : c.newValues = [] := hvalues
    refine Or.inr ⟨?_, _, h, fun name hname => ?_, fun name _ => by rw [hvalues]; rfl⟩
    · simp only [hvalues, List.isEmpty_nil, Bool.not_true, Bool.false_or]
      cases hupdates : c.externalRefUpdates.getD [] with
      | nil => exact absurd hupdates hne
      | cons update updates => rfl
    · rw [lookup_setItem, if_neg hname, hvalues]
      rfl
  · rename_i hne _
    obtain ⟨⟨⟩, hunknown, h⟩ := bind_eq_ok.mp h
    have hsorted : sortedKeys c.newValues = true := sortedKeys_dictFrom _
    refine Or.inr ⟨?_, _, h, fun name hname => ?_, fun name hname => ?_⟩
    · cases hvalues : c.newValues with
      | nil => exact absurd hvalues hne
      | cons item items => rfl
    · have hsorted' : sortedKeys (if c.externalRefUpdates.getD [] = [] then c.newValues
          else setItem "external_refs" (.dict (mergedRefs base (c.externalRefUpdates.getD [])))
            c.newValues) = true := by
        split_ifs
        · exact hsorted
        · exact sortedKeys_setItem hsorted
      have hnodup := nodup_of_sorted ((sortedKeys_eq _).symm.trans hsorted')
      have hlookup := lookup_foldl_setItem hnodup name base
      rw [TransitionCommand.newValues] at hlookup
      rw [hlookup]
      split_ifs
      · rfl
      · rw [lookup_setItem, if_neg hname]
        rfl
    · rw [raiseIf_eq_ok, not_not, List.filter_eq_nil_iff] at hunknown
      cases hvalue : c.newValues.lookup name with
      | none => rfl
      | some value =>
          have hmem := List.mem_map_of_mem (f := Prod.fst) (mem_of_lookup hvalue)
          exact absurd (by simp only [hname, Bool.not_false]) (hunknown name hmem)

/-- The fields of a new task that its command gives as they are. -/
theorem newTask_ok {c : CreateCommand} (h : newTask now c = .ok task) :
    Instance (taskFields now) task ∧ task.taskId = c.taskId ∧ task.state = c.state ∧
      task.revision = 1 ∧ getItem task "required_input" = optDict c.requiredInput := by
  have hnodup := nodup_of_sorted (sorted_taskFields now)
  have hinput := read_of_validate h hnodup
    (by simp [taskFields] : Field.optDict "required_input" ∈ taskFields now)
    (by rfl : _ = some (optDict c.requiredInput))
  refine ⟨task_instance h,
    textOf_of_validate h hnodup none (fun s => lengthBetween 128 s && isTaskId s)
      (by simp [taskFields]) rfl,
    textOf_of_validate h hnodup (some "backlog") (taskStates.contains ·) (by simp [taskFields]) rfl,
    intOf_of_validate h hnodup (some 1) (1 ≤ ·) (by simp [taskFields]) rfl, ?_⟩
  · change readOptDict (optDict c.requiredInput) = some (getItem task "required_input") at hinput
    cases hvalue : c.requiredInput with
    | none =>
        rw [hvalue] at hinput
        exact (Option.some.inj hinput).symm
    | some items =>
        rw [hvalue] at hinput
        have hread : readOptDict (.dict (dictFrom items)) = some (.dict (dictFrom items)) :=
          readDict_sorted (sortedKeys_dictFrom items)
        exact Option.some.inj (hinput.symm.trans hread)

/-- The input that a transition leaves: what the command gives, or what the task had. -/
theorem input_of_revalidated {now : String} {receiptId : Option String}
    (hstored : Instance (taskFields now) task)
    (h : revalidated now (assigned now task c receiptId) c = .ok next) :
    readOptDict ((c.newInput.or (task.lookup "required_input")).getD .null) =
      some (getItem next "required_input") := by
  have hfield : Field.optDict "required_input" ∈ taskFields now := by simp [taskFields]
  obtain ⟨stored, hvalue⟩ := hstored.exists_lookup hfield
  have hread := hstored.2 _ hfield stored hvalue
  change task.lookup "required_input" = some stored at hvalue
  change readOptDict stored = some stored at hread
  have hbase : (assigned now task c receiptId).lookup "required_input" =
      (c.requiredInput.map fun items => Value.dict (dictFrom items)).or (some stored) := by
    simp only [assigned, lookup_assign, ← hvalue]
    rw [lookup_addReceiptId (by decide)]
    simp [lookup_setItem]
  rcases revalidated_ok h with ⟨hno, rfl⟩ | ⟨-, items, hvalid, hlookup, -⟩
  · have hvalues : c.newValues = [] := by
      simp only [TransitionCommand.revalidates, Bool.or_eq_false_iff, Bool.not_eq_false',
        List.isEmpty_iff] at hno
      exact hno.1
    rw [TransitionCommand.newInput, hvalues, hvalue, getItem, hbase]
    cases c.requiredInput with
    | none => exact hread
    | some given => exact readDict_sorted (sortedKeys_dictFrom given)
  · have hitems := hlookup "required_input" (by decide)
    rw [hbase, ← Option.or_assoc, ← hvalue] at hitems
    obtain ⟨given, hgiven⟩ : ∃ given, items.lookup "required_input" = some given := by
      rw [hitems, hvalue]
      cases c.newValues.lookup "required_input" <;> cases c.requiredInput <;> exact ⟨_, rfl⟩
    have htaken := read_of_validate hvalid (nodup_of_sorted (sorted_taskFields now)) hfield hgiven
    rw [TransitionCommand.newInput, ← hitems, hgiven]
    exact htaken

/-- A task with a plain input is the one that its JSON form is read as, if it is an instance. -/
theorem readBack_iff (now' : String) :
    validate (taskFields now') (Value.dict task).asJson = .ok task ↔
      Instance (taskFields now') task ∧
        (getItem task "required_input").asJson = getItem task "required_input" := by
  constructor
  · intro h
    have hinstance := task_instance h
    exact ⟨hinstance, (task_readBack hinstance).mp h⟩
  · rintro ⟨hinstance, hinput⟩
    exact (task_readBack hinstance).mpr hinput

/-- The condition under which a transition that is no replay reads its own write. -/
structure TransitionCommand.ReadsBack (c : TransitionCommand) : Prop where
  bounded : c.revalidates = true ∨ c.bounded = true
  input : PlainInput c.newInput

theorem revalidated_instance {receiptId : Option String} (hstored : Instance (taskFields now) task)
    (hallowed : task.validateTransition c.newState receiptId = .ok ⟨⟩)
    (h : revalidated now (assigned now task c receiptId) c = .ok next) :
    Instance (taskFields now) next ↔ c.revalidates = true ∨ c.bounded = true := by
  rcases revalidated_ok h with ⟨hno, rfl⟩ | ⟨hyes, items, hvalid, -, -⟩
  · rw [assigned_instance hstored hallowed, hno]
    simp
  · exact ⟨fun _ => Or.inl hyes, fun _ => task_instance hvalid⟩

theorem plainInput_iff {receiptId : Option String} (hstored : Instance (taskFields now) task)
    (hplain : (getItem task "required_input").asJson = getItem task "required_input")
    (h : revalidated now (assigned now task c receiptId) c = .ok next) :
    (getItem next "required_input").asJson = getItem next "required_input" ↔
      PlainInput c.newInput := by
  have hread := input_of_revalidated hstored h
  have hfield : Field.optDict "required_input" ∈ taskFields now := by simp [taskFields]
  cases hinput : c.newInput with
  | none =>
      obtain ⟨stored, hvalue⟩ := hstored.exists_lookup hfield
      have hsame := hstored.2 _ hfield stored hvalue
      change task.lookup "required_input" = some stored at hvalue
      change readOptDict stored = some stored at hsame
      rw [hinput, Option.none_or, hvalue, Option.getD_some, hsame, Option.some_inj] at hread
      rw [getItem, hvalue, Option.getD_some] at hplain
      rw [← hread]
      exact ⟨fun _ value value' hnone => (by cases hnone), fun _ => hplain⟩
  | some given =>
      rw [hinput, Option.some_or, Option.getD_some] at hread
      constructor
      · rintro hjson value value' ⟨⟩ hvalue
        rw [hread, Option.some_inj] at hvalue
        rwa [← hvalue]
      · exact fun hall => hall given _ rfl hread

/-- A transition that is no replay reads its own write exactly under that condition. -/
theorem advance_readBack {clock : Clock} {files files' : Files} {commandSha256 : String}
    {events : List TaskEvent} (hstored : getTask clock.now files c.taskId = .ok (some task))
    (h : advance clock files c commandSha256 task events = .ok (next, files')) (now' : String) :
    getTask now' files' c.taskId = .ok (some next) ↔ c.ReadsBack := by
  obtain ⟨receipt, receiptId, event, hadvanced⟩ := advance_ok h
  have hsaved := saveTask_saved hadvanced.saved
  have hid : next.taskId = c.taskId := hsaved.taskId.symm.trans
    (TaskEvent.create_ok hadvanced.recorded).2.taskId
  obtain ⟨hinstance, hplain⟩ := stored_task hstored
  rw [← hid, getTask_saved hsaved, readBack_iff, instance_task_iff,
    revalidated_instance hinstance hadvanced.allowed hadvanced.moved,
    plainInput_iff hinstance hplain hadvanced.moved]
  exact ⟨fun ⟨hbounded, hinput⟩ => ⟨hbounded, hinput⟩,
    fun ⟨hbounded, hinput⟩ => ⟨hbounded, hinput⟩⟩

/-- A creation that is no replay reads its own write exactly when its input is plain. -/
theorem created_readBack {clock : Clock} {files files' : Files} {commandSha256 : String}
    {c : CreateCommand} {event : TaskEvent}
    (h : Created clock files c commandSha256 task files' event) (now' : String) :
    getTask now' files' c.taskId = .ok (some task) ↔
      (optDict c.requiredInput).asJson = optDict c.requiredInput := by
  obtain ⟨hinstance, hid, -, -, hinput⟩ := newTask_ok h.built
  have hsaved := saveTask_saved h.saved
  rw [← hid, getTask_saved hsaved, readBack_iff, instance_task_iff, hinput]
  exact and_iff_right hinstance

end

end PowerFramework.Task
