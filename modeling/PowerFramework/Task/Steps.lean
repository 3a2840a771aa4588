import PowerFramework.Task.LineSafety
/-!
# Steps of the service

What one command leaves of its task: a snapshot and a journal that are read back
(`created_stored`, `advanced_stored`), provided that the command holds no character that breaks
a line and reads its own write.
-/

namespace PowerFramework.Task

open Lib Lib.Failure Lib.Json Lib.Splitlines Lib.Text Ledger TaskStore

/-! ## Tokens and times -/

theorem unbroken_of_ascii {s : String} (h : ∀ c ∈ s.toList, c.toNat < 128) : UnbrokenText s := by
  intro c hc
  have := h c hc
  simp only [breaksLine, Bool.or_eq_false_iff, beq_eq_false_iff_ne]
  omega

theorem unbroken_append {s t : String} :
    UnbrokenText (s ++ t) ↔ UnbrokenText s ∧ UnbrokenText t := by
  rw [UnbrokenText, String.toList_append, List.forall_mem_append]
  rfl

theorem lt_of_isDigit {c : Char} (h : c.isDigit = true) : c.toNat < 128 := by
  simp only [Char.isDigit, Bool.and_eq_true, decide_eq_true_eq] at h
  have hle : c.toNat ≤ 57 := h.2
  omega

theorem unbroken_toString (n : Int) : UnbrokenText (toString n) := by
  have hnat : ∀ m : Nat, UnbrokenText (Nat.repr m) := by
    intro m
    apply unbroken_of_ascii
    intro c hc
    rw [Nat.repr, String.toList_ofList] at hc
    exact lt_of_isDigit (Nat.isDigit_of_mem_toDigits (by decide) (by decide) hc)
  cases n with
  | ofNat m => exact hnat m
  | negSucc m =>
      have hminus : UnbrokenText "-" := by unfold UnbrokenText; decide
      exact unbroken_append.mpr ⟨hminus, hnat (m + 1)⟩

theorem lt_of_isTokenChar {c : Char} (h : isTokenChar c = true) : c.toNat < 128 := by
  simp only [isTokenChar, isAlnum, isDigit, isUpper, isLower, Bool.or_eq_true, Bool.and_eq_true,
    decide_eq_true_eq, beq_iff_eq] at h
  rcases h with ((((h | h) | h) | rfl) | rfl) | rfl
  · omega
  · omega
  · omega
  all_goals decide

theorem unbroken_of_isTaskId {taskId : String} (h : isTaskId taskId = true) :
    UnbrokenText taskId :=
  unbroken_of_ascii fun _ hc => lt_of_isTokenChar (isTokenChar_of_mem h hc)

theorem unbroken_of_isReceiptId {receiptId : String} (h : isReceiptId receiptId = true) :
    UnbrokenText receiptId := by
  apply unbroken_of_ascii
  intro c hc
  simp only [isReceiptId, isDigestToken, Bool.and_eq_true, List.all_eq_true] at h
  rw [← List.take_append_drop "tcr_".toList.length receiptId.toList] at hc
  rcases List.mem_append.mp hc with hc | hc
  · rw [← List.prefix_iff_eq_take.mp (List.isPrefixOf_iff_prefix.mp h.1.1)] at hc
    have hall : ∀ d ∈ "tcr_".toList, d.toNat < 128 := by decide
    exact hall c hc
  · have hhex := h.1.2 c hc
    simp only [isHex, isDigit, Bool.or_eq_true, Bool.and_eq_true, decide_eq_true_eq] at hhex
    omega

theorem unbroken_digest {payload : Dict} {digest : String}
    (h : canonicalPayloadDigest payload = .ok digest) : UnbrokenText digest := by
  obtain ⟨text, -, rfl⟩ := map_eq_ok.mp h
  exact fun c hc => breaksLine_hexdigest hc

/-- The times hold no line boundary, as ISO texts do not. -/
structure Clock.Clean (clock : Clock) : Prop where
  now : UnbrokenText clock.now
  event : UnbrokenText clock.event

/-! ## Events -/

section
variable [LaxInt] {now : String}

theorem unbreaking_eventFields (hnow : UnbrokenText now) :
    ∀ field ∈ eventFields now, field.Unbreaking := by
  simp only [eventFields, List.forall_mem_cons, List.not_mem_nil, false_implies, implies_true,
    and_true]
  repeat' apply And.intro
  all_goals first
    | exact unbreaking_int (by unfold UnbrokenText; decide)
    | exact unbreaking_dict (by unfold UnbrokenText; decide)
        (by rintro d ⟨⟩; simp [Unbroken, Value.chars, charsDict])
    | exact unbreaking_str (by unfold UnbrokenText; decide) (by
        intro s hs
        cases hs
        all_goals first | exact hnow | (unfold UnbrokenText; decide))

/-- The strings of an event that was created are those it was given. -/
theorem unbroken_created {stamp : Int} {taskId : String} {sequence : Int}
    {actor eventType : String} {payload : Dict} {prevEventDigest : String} {event : TaskEvent}
    (h : TaskEvent.create now stamp taskId sequence actor eventType payload prevEventDigest =
      .ok event)
    (hnow : UnbrokenText now) (hid : UnbrokenText taskId) (hactor : UnbrokenText actor)
    (htype : UnbrokenText eventType) (hpayload : Unbroken (.dict payload))
    (hprevious : UnbrokenText prevEventDigest) : Unbroken (.dict event) := by
  obtain ⟨digest, hdigest, h⟩ := bind_eq_ok.mp h
  apply unbroken_of_validate (unbreaking_eventFields hnow) h
  have hdigest' := unbroken_digest hdigest
  have hevent : UnbrokenText
      ("evt_" ++ taskId ++ "_" ++ toString sequence ++ "_" ++ toString stamp) := by
    have hevt : UnbrokenText "evt_" := by unfold UnbrokenText; decide
    have hscore : UnbrokenText "_" := by unfold UnbrokenText; decide
    simp only [unbroken_append]
    exact ⟨⟨⟨⟨⟨hevt, hid⟩, hscore⟩, unbroken_toString sequence⟩, hscore⟩, unbroken_toString stamp⟩
  rw [unbroken_dict]
  simp only [List.forall_mem_cons, List.not_mem_nil, false_implies, implies_true, and_true,
    unbroken_str]
  have hint := unbroken_int sequence
  refine ⟨⟨?_, hactor⟩, ⟨?_, hevent⟩, ⟨?_, htype⟩, ⟨?_, hpayload⟩, ⟨?_, hdigest'⟩, ⟨?_, hprevious⟩,
    ⟨?_, hint⟩, ?_, hid⟩
  all_goals
    unfold UnbrokenText
    decide

end

/-! ## Commands -/

/-- No string that the event of a creation holds breaks a line, and its input is plain. -/
structure CreateCommand.Clean (c : CreateCommand) : Prop where
  payload : Unbroken (.dict c.payload)
  actor : UnbrokenText c.actor
  key : ∀ key, c.idempotencyKey = some key → UnbrokenText key
  input : (optDict c.requiredInput).asJson = optDict c.requiredInput

/-- The arguments of a transition that its event holds. -/
def TransitionCommand.recorded (c : TransitionCommand) : Dict := [
  ("assignee", optValue c.assignee),
  ("error_ref", optValue c.errorRef),
  ("external_ref_updates", optStrDict c.externalRefUpdates),
  ("next_action", optValue c.nextAction),
  ("open_gates", optStrList c.openGates),
  ("receipt_id", optValue c.receiptId),
  ("required_input", optDict c.requiredInput),
  ("values", optDict c.values)]

/-- No string that the event of a transition holds breaks a line, and it reads its own write. -/
structure TransitionCommand.Clean (c : TransitionCommand) : Prop where
  recorded : Unbroken (.dict c.recorded)
  actor : UnbrokenText c.actor
  key : ∀ key, c.idempotencyKey = some key → UnbrokenText key
  readsBack : c.ReadsBack

section
variable [LaxInt] {now : String} {task next : PowerTask}

theorem unbroken_newTask {c : CreateCommand} (h : newTask now c = .ok task)
    (hnow : UnbrokenText now) (hc : c.Clean) : Unbroken (.dict task) := by
  apply unbroken_of_validate (unbreaking_taskFields hnow) h
  have hitem : ∀ name, Unbroken (getItem c.payload name) := unbroken_getItem hc.payload
  rw [unbroken_dict]
  simp only [List.forall_mem_cons, List.not_mem_nil, false_implies, implies_true, and_true]
  have hlocal : UnbrokenText "local" := by unfold UnbrokenText; decide
  have hdefault : UnbrokenText "default" := by unfold UnbrokenText; decide
  refine ⟨⟨?_, hitem "artifact_refs"⟩, ⟨?_, hitem "assignee"⟩, ⟨?_, hitem "authority"⟩,
    ⟨?_, hnow⟩, ⟨?_, hitem "dependencies"⟩, ⟨?_, hitem "due_at"⟩, ⟨?_, hitem "external_refs"⟩,
    ⟨?_, hitem "kind"⟩, ⟨?_, hitem "next_action"⟩, ⟨?_, hitem "objective"⟩,
    ⟨?_, hitem "open_gates"⟩, ⟨?_, hitem "owner"⟩, ⟨?_, hitem "priority"⟩,
    ⟨?_, hitem "receipt_ids"⟩, ⟨?_, hitem "required_input"⟩, ⟨?_, unbroken_int 1⟩,
    ⟨?_, hitem "scope"⟩, ⟨?_, hitem "source_revision"⟩, ⟨?_, hitem "state"⟩,
    ⟨?_, hitem "task_id"⟩, ⟨?_, hlocal⟩, ⟨?_, hitem "title"⟩, ⟨?_, hnow⟩, ?_, hdefault⟩
  all_goals
    unfold UnbrokenText
    decide

omit [LaxInt] in
theorem unbroken_assign {name : String} {value : Option Value} (htask : Unbroken (.dict task))
    (hname : UnbrokenText name) (hvalue : ∀ v, value = some v → Unbroken v) :
    Unbroken (.dict (assign name value task)) := by
  cases value with
  | none => exact htask
  | some v => exact unbroken_setItem htask hname (hvalue v rfl)

omit [LaxInt] in
theorem unbroken_textsOf (htask : Unbroken (.dict task)) (name : String) :
    ∀ s ∈ textsOf task name, UnbrokenText s := by
  intro s hs
  have hvalue := unbroken_getItem htask name
  unfold textsOf at hs
  split at hs
  · rename_i items hitems
    rw [hitems, unbroken_list] at hvalue
    obtain ⟨item, hitem, hstr⟩ := List.mem_filterMap.mp hs
    cases item with
    | str s' =>
        cases hstr
        exact hvalue _ hitem
    | _ => cases hstr
  · cases hs

omit [LaxInt] in
theorem unbroken_addReceiptId {receiptId : Option String} (htask : Unbroken (.dict task))
    (hid : ∀ id, receiptId = some id → UnbrokenText id) :
    Unbroken (.dict (addReceiptId receiptId task)) := by
  have hname : UnbrokenText "receipt_ids" := by unfold UnbrokenText; decide
  unfold addReceiptId
  split_ifs
  · exact htask
  · refine unbroken_setItem htask hname (unbroken_strList.mpr fun s hs => ?_)
    rcases List.mem_append.mp hs with hs | hs
    · exact unbroken_textsOf htask "receipt_ids" s hs
    · rw [List.mem_singleton.mp hs]
      cases receiptId with
      | none => simp [UnbrokenText]
      | some id => exact hid id rfl

omit [LaxInt] in
theorem unbroken_state {state : String} (h : taskStates.contains state = true) :
    UnbrokenText state := by
  have hall : ∀ s ∈ taskStates, ∀ c ∈ s.toList, breaksLine c = false := by decide
  exact hall state (by simpa using h)

theorem unbroken_assigned {c : TransitionCommand} {receiptId : Option String}
    (htask : Unbroken (.dict task)) (hinstance : Instance (taskFields now) task)
    (hallowed : task.validateTransition c.newState receiptId = .ok ⟨⟩) (hnow : UnbrokenText now)
    (hc : c.Clean) (hid : ∀ id, receiptId = some id → UnbrokenText id) :
    Unbroken (.dict (assigned now task c receiptId)) := by
  have hitem : ∀ name, Unbroken (getItem c.recorded name) := unbroken_getItem hc.recorded
  have hstate : UnbrokenText c.newState := by
    apply unbroken_state
    rcases (validateTransition_ok hallowed).2 with heq | hmem
    · rw [← heq]
      exact state_of_instance hinstance
    · exact mem_taskStates_of_validTransitions hmem
  have hmoved := unbroken_setItem (unbroken_setItem (unbroken_setItem htask
      (by unfold UnbrokenText; decide : UnbrokenText "state") (unbroken_str.mpr hstate))
      (by unfold UnbrokenText; decide : UnbrokenText "revision")
      (unbroken_int (task.revision + 1)))
    (by unfold UnbrokenText; decide : UnbrokenText "updated_at") (unbroken_str.mpr hnow)
  have hnames : ∀ name ∈ ["error_ref", "open_gates", "required_input", "assignee", "next_action"],
      UnbrokenText name := by
    unfold UnbrokenText
    decide
  simp only [List.forall_mem_cons, List.not_mem_nil, false_implies, implies_true, and_true]
    at hnames
  obtain ⟨herror, hgates, hinput, hassignee, hnext⟩ := hnames
  refine unbroken_assign (unbroken_assign (unbroken_assign (unbroken_assign (unbroken_assign
    (unbroken_addReceiptId hmoved hid) hnext ?_) hassignee ?_) hinput ?_) hgates ?_) herror ?_
  · intro v hv
    obtain ⟨s, hs, rfl⟩ := Option.map_eq_some_iff.mp hv
    exact unbroken_optValue.mp (hitem "next_action") s hs
  · intro v hv
    obtain ⟨s, hs, rfl⟩ := Option.map_eq_some_iff.mp hv
    exact unbroken_optValue.mp (hitem "assignee") s hs
  · intro v hv
    obtain ⟨items, hitems, rfl⟩ := Option.map_eq_some_iff.mp hv
    have hvalue : Unbroken (optDict c.requiredInput) := hitem "required_input"
    rwa [hitems] at hvalue
  · intro v hv
    obtain ⟨texts, htexts, rfl⟩ := Option.map_eq_some_iff.mp hv
    have hvalue : Unbroken (optStrList c.openGates) := hitem "open_gates"
    rwa [htexts] at hvalue
  · intro v hv
    obtain ⟨s, hs, rfl⟩ := Option.map_eq_some_iff.mp hv
    exact unbroken_optValue.mp (hitem "error_ref") s hs

omit [LaxInt] in
theorem unbroken_itemsOf (htask : Unbroken (.dict task)) (name : String) :
    Unbroken (.dict (itemsOf task name)) := by
  have hvalue := unbroken_getItem htask name
  unfold itemsOf
  split
  · rename_i items hitems
    rwa [hitems] at hvalue
  · simp [Unbroken, Value.chars, charsDict]

omit [LaxInt] in
theorem unbroken_mergedRefs {updates : List (String × String)} (htask : Unbroken (.dict task))
    (hupdates : Unbroken (.dict (strItems updates))) :
    Unbroken (.dict (mergedRefs task updates)) :=
  unbroken_foldl (unbroken_itemsOf htask "external_refs") hupdates

theorem unbroken_revalidated {c : TransitionCommand} {base : PowerTask}
    (h : revalidated now base c = .ok next) (hbase : Unbroken (.dict base))
    (hnow : UnbrokenText now) (hc : c.Clean) : Unbroken (.dict next) := by
  have hname : UnbrokenText "external_refs" := by unfold UnbrokenText; decide
  have hempty : Unbroken (.dict (strItems [])) := by simp [strItems, dictFrom, Unbroken,
    Value.chars, charsDict]
  have hrefs : Unbroken (.dict (mergedRefs base (c.externalRefUpdates.getD []))) := by
    apply unbroken_mergedRefs hbase
    have hvalue : Unbroken (optStrDict c.externalRefUpdates) :=
      unbroken_getItem hc.recorded "external_ref_updates"
    cases hupdates : c.externalRefUpdates with
    | none => exact hempty
    | some updates => rwa [hupdates] at hvalue
  have hvalues : Unbroken (.dict (dictFrom (c.values.getD []))) := by
    have hvalue : Unbroken (optDict c.values) := unbroken_getItem hc.recorded "values"
    cases hgiven : c.values with
    | none => exact hempty
    | some values => rwa [hgiven] at hvalue
  unfold revalidated at h
  split at h
  · cases h
    exact hbase
  · exact unbroken_of_validate (unbreaking_taskFields hnow) h (unbroken_setItem hbase hname hrefs)
  · obtain ⟨⟨⟩, -, h⟩ := bind_eq_ok.mp h
    refine unbroken_of_validate (unbreaking_taskFields hnow) h (unbroken_foldl hbase ?_)
    split_ifs
    · exact hvalues
    · exact unbroken_setItem hvalues hname hrefs

end

end PowerFramework.Task
