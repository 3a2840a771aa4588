import PowerFramework.State.Cycles
import PowerFramework.State.Raid
/-!
# Who waits for whom

Readiness and cycle detection read the same dependencies, each in its own way: the declared
dependencies and those of kind `blocked_by` alike, those of kind `blocks` in the cycle detection
only, and those of kind `requires` in opposite directions.  The definition of ready reads the
declared ones only.
-/

namespace PowerFramework.State

open Lib Lib.DepthFirst Lib.Failure Lib.Json Lib.Run Ledger

variable {s t : ProjectState}

/-! ## Readiness -/

/-- `state.dependencies.values()` -/
def ProjectState.explicitDependencies (s : ProjectState) : List Dependency :=
  s.dependencies.entities.toList.map (·.2)

/-- The explicit dependencies that still hold something back. -/
def ProjectState.unsatisfied (s : ProjectState) : List Dependency :=
  s.explicitDependencies.filter fun dep => dep.text "status" ≠ "satisfied"

/-- `blocking_deps` of `evaluate_task_readiness` -/
def blockingDependencies (task : TaskAuthorityView) (state : ProjectState) : List String :=
  let unfinished (id : String) : Bool := (state.tasks[id]?).any (!·.terminal)
  task.dependencies.filter unfinished ++
    state.explicitDependencies.filterMap fun dep =>
      if dep.text "source_id" = task.taskId ∧
          dep.text "dependency_kind" ∈ ["blocked_by", "requires"] ∧
          dep.text "status" ≠ "satisfied" ∧
          (state.tasks[dep.text "target_id"]?).all (!·.terminal) then
        some (dep.text "target_id")
      else none

/-- A task that something other than a reported cycle keeps from being ready. -/
def HeldBack (state : ProjectState) (task : TaskAuthorityView) : Prop :=
  task.terminal = true ∨ task.state ∈ ["working", "input-required", "auth-required"] ∨
    blockingDependencies task state ≠ [] ∨ task.openGates ≠ []

theorem evaluateTaskReadiness_ready {task : TaskAuthorityView} {cycleTasks : List String} :
    evaluateTaskReadiness task s cycleTasks = .ready ↔
      ¬HeldBack s task ∧ task.taskId ∉ cycleTasks := by
  have heq : evaluateTaskReadiness task s cycleTasks =
      if task.terminal then .terminal
      else if task.taskId ∈ cycleTasks then .circularDependency
      else if task.state ∈ ["working", "input-required", "auth-required"] then .inProgress
      else if blockingDependencies task s ≠ [] then .blockedDependency
      else if task.openGates ≠ [] then .requiresApproval
      else .ready := rfl
  rw [heq]
  unfold HeldBack
  split_ifs with hterminal hcycle hprogress hblocking hgates
  · simp [hterminal]
  · simp [hcycle]
  · simp [hprogress]
  · simp [hblocking]
  · simp [hgates]
  · simp [hterminal, hcycle, hprogress, hblocking, hgates]

/-- The cycles behind the projections. -/
def ProjectState.cycles (s : ProjectState) : List (List String) :=
  detectDependencyCycles s.tasks s.explicitDependencies

theorem mem_readyTasks {id : String} :
    id ∈ (projected s).readyTasks ↔
      ∃ view, s.tasks[id]? = some view ∧ ¬HeldBack s view ∧ view.taskId ∉ s.cycles.flatten := by
  change id ∈ sortedSet _ ↔ _
  rw [mem_sortedSet, List.mem_map]
  constructor
  · rintro ⟨⟨key, view⟩, hentry, rfl⟩
    obtain ⟨hentry, hready⟩ := List.mem_filter.mp hentry
    exact ⟨view, Std.ExtTreeMap.mem_toList_iff_getElem?_eq_some.mp hentry,
      evaluateTaskReadiness_ready.mp (of_decide_eq_true hready)⟩
  · rintro ⟨view, hview, hready⟩
    refine ⟨(id, view), List.mem_filter.mpr
      ⟨Std.ExtTreeMap.mem_toList_iff_getElem?_eq_some.mpr hview, ?_⟩, rfl⟩
    exact decide_eq_true (evaluateTaskReadiness_ready.mpr hready)

theorem mem_unsatisfied {dep : Dependency} :
    dep ∈ s.unsatisfied ↔ dep ∈ s.explicitDependencies ∧ dep.text "status" ≠ "satisfied" := by
  rw [ProjectState.unsatisfied, List.mem_filter, decide_eq_true_iff]

/-! ## Tasks under their own names -/

/-- Every task is stored under its own id. -/
def Keyed (tasks : Table TaskAuthorityView) : Prop :=
  ∀ (id : String) (view : TaskAuthorityView), tasks[id]? = some view → view.taskId = id

theorem keyed_empty : Keyed ∅ := by
  intro id view h
  simp at h

theorem Keyed.insert {tasks : Table TaskAuthorityView} (h : Keyed tasks) (view : TaskAuthorityView) :
    Keyed (tasks.insert view.taskId view) := by
  intro id other hother
  rw [Std.ExtTreeMap.getElem?_insert] at hother
  split_ifs at hother with heq
  · obtain rfl := Option.some.inj hother
    exact Std.compare_eq_iff_eq.mp heq
  · exact h id other hother

theorem Keyed.popId {tasks popped : Table TaskAuthorityView} (h : Keyed tasks) {id : Value}
    (hpop : popId id tasks = .ok popped) : Keyed popped := by
  unfold State.popId at hpop
  split_ifs at hpop
  · obtain ⟨key, -, hpop⟩ := bind_eq_ok.mp hpop
    cases key with
    | none =>
        obtain rfl := Except.ok.inj hpop
        exact h
    | some key =>
        obtain rfl := Except.ok.inj hpop
        intro id view hview
        rw [Std.ExtTreeMap.getElem?_erase] at hview
        split_ifs at hview
        exact h id view hview
  · obtain rfl := Except.ok.inj hpop
    exact h

section
variable {self : ProjectStateReducer} {authority : Option AuthorityContext} {event : ProjectEvent}

theorem keyed_mergeTasks {views : List TaskAuthorityView} {tasks merged : Table TaskAuthorityView}
    (h : Keyed tasks) (hmerge : mergeTasks authority views tasks = .ok merged) : Keyed merged := by
  refine foldlM_invariant (P := Keyed) ?_ h hmerge
  intro mid view next hmid hstep
  split_ifs at hstep
  · obtain ⟨digest, -, hstep⟩ := bind_eq_ok.mp hstep
    obtain ⟨⟨⟩, -, hstep⟩ := bind_eq_ok.mp hstep
    obtain rfl := Except.ok.inj hstep
    exact hmid.insert view
  · obtain rfl := Except.ok.inj hstep
    exact hmid.insert view

theorem keyed_applyTaskViews {views : List TaskAuthorityView}
    {tasks merged : Table TaskAuthorityView} (h : Keyed tasks)
    (hmerge : applyTaskViews event tasks views = .ok merged) : Keyed merged := by
  refine foldlM_invariant (P := Keyed) ?_ h hmerge
  intro mid view next hmid hstep
  obtain ⟨⟨⟩, -, hstep⟩ := bind_eq_ok.mp hstep
  obtain ⟨digest, -, hstep⟩ := bind_eq_ok.mp hstep
  obtain ⟨⟨⟩, -, hstep⟩ := bind_eq_ok.mp hstep
  obtain rfl := Except.ok.inj hstep
  exact hmid.insert view

variable [LaxInt] [PythonText]

omit [PythonText] in
theorem keyed_handleTaskAssociated {tasks associated : Table TaskAuthorityView} (h : Keyed tasks)
    (hassociate : handleTaskAssociated tasks event = .ok associated) : Keyed associated := by
  unfold handleTaskAssociated at hassociate
  dsimp only at hassociate
  split_ifs at hassociate
  · obtain ⟨key, -, hassociate⟩ := bind_eq_ok.mp hassociate
    split_ifs at hassociate
    · obtain rfl := Except.ok.inj hassociate
      exact h
    · obtain ⟨digest, -, hassociate⟩ := bind_eq_ok.mp hassociate
      obtain ⟨view, -, hassociate⟩ := bind_eq_ok.mp hassociate
      obtain rfl := Except.ok.inj hassociate
      exact h.insert view
  · obtain rfl := Except.ok.inj hassociate
    exact h

theorem keyed_applyEvent (hkeyed : Keyed s.tasks)
    (h : applyEvent self authority s event = .ok t) : Keyed t.tasks := by
  obtain ⟨mid, -, -, hdispatch, rfl⟩ := applyEvent_ok.mp h
  change Keyed mid.tasks
  cases dispatchEvent_ok hdispatch with
  | evaluation evaluation tasks decisions _ hevaluation =>
      exact keyed_applyTaskViews hkeyed hevaluation.taskViews
  | tasks tasks htype =>
      unfold dispatchEvent at hdispatch
      rcases htype with htype | htype
      · rw [htype] at hdispatch
        obtain ⟨associated, hassociated, hdispatch⟩ := bind_eq_ok.mp hdispatch
        rw [← Except.ok.inj hdispatch]
        exact keyed_handleTaskAssociated hkeyed hassociated
      · rw [htype] at hdispatch
        obtain ⟨popped, hpopped, hdispatch⟩ := bind_eq_ok.mp hdispatch
        rw [← Except.ok.inj hdispatch]
        exact hkeyed.popId hpopped
  | observedTask tasks htype hnone =>
      unfold dispatchEvent at hdispatch
      rw [htype, hnone] at hdispatch
      dsimp only at hdispatch
      unfold handleTaskObserved at hdispatch
      dsimp only at hdispatch
      split_ifs at hdispatch
      · obtain ⟨view, -, hdispatch⟩ := bind_eq_ok.mp hdispatch
        rw [← Except.ok.inj hdispatch]
        exact hkeyed.insert view
      · rw [← Except.ok.inj hdispatch]
        exact hkeyed
  | _ => exact hkeyed

/-- Every state that a replay projects has its tasks under their own ids. -/
theorem keyed_reduceInternal {events : List ProjectEvent} {tasks : List TaskAuthorityView}
    {decisions : List DecisionAuthorityView} {projectId : Option String}
    (h : reduceInternal self events none tasks decisions projectId authority = .ok t) :
    ∃ final, Keyed final.tasks ∧ computeProjections authority final = .ok t := by
  obtain ⟨start, final, hstart, hfinal, hprojected⟩ := reduceInternal_ok.mp h
  refine ⟨final, ?_, hprojected⟩
  have hkeyed : Keyed start.tasks := by
    obtain ⟨state, hstate, hstart⟩ := bind_eq_ok.mp hstart
    obtain ⟨bound, hbound, hstart⟩ := bind_eq_ok.mp hstart
    obtain ⟨target, -, rfl⟩ := startState_ok hstate
    obtain ⟨-, rfl⟩ := bindRules_ok.mp hbound
    have hnonempty : (ProjectState.initial target self.rulesVersion).rulesDigest ≠ "" :=
      rulesDigest_ne
    rw [if_neg hnonempty, preloadViews] at hstart
    split_ifs at hstart
    · rw [← Except.ok.inj hstart]
      exact keyed_empty
    · obtain ⟨merged, hmerged, hstart⟩ := bind_eq_ok.mp hstart
      obtain ⟨_, -, hstart⟩ := bind_eq_ok.mp hstart
      rw [← Except.ok.inj hstart]
      exact keyed_mergeTasks keyed_empty hmerged
  exact foldlM_invariant (P := fun s => Keyed s.tasks)
    (fun _ _ _ hmid hstep => keyed_applyEvent hmid hstep) hkeyed hfinal

end

/-! ## Readiness against cycle detection -/

/-- A task that has not ended. -/
def Unfinished (s : ProjectState) (id : String) : Prop :=
  ∃ view, s.tasks[id]? = some view ∧ view.terminal = false

/-- Unfinished tasks that each wait for one of them, as readiness sees it. -/
def Deadlocked (s : ProjectState) (D : String → Prop) : Prop :=
  (∃ id, D id) ∧ ∀ id, D id → Unfinished s id ∧
    ∃ view other, s.tasks[id]? = some view ∧ other ∈ blockingDependencies view s ∧ D other

/-- In the projected state `t` no ready task depends on an unfinished one, and of tasks that wait for each other a cycle is
reported that leads from one of them to another. -/
structure Agrees (s t : ProjectState) : Prop where
  ready : ∀ id ∈ t.readyTasks, ∀ next ∈ neighbors s.tasks s.unsatisfied id,
    ¬Unfinished s next
  reported : ∀ D, Deadlocked s D → ∃ cycle ∈ s.cycles, Among D cycle

/-- Where the dependencies of kind `blocks` and `requires` do no harm: the target of each such one
on an unfinished source is held back by something else, and tasks that wait for each other also
have a cycle among them in the relation of the cycle detection. -/
structure SameWay (s : ProjectState) : Prop where
  held : ∀ dep ∈ s.unsatisfied, dep.text "dependency_kind" ∈ ["blocks", "requires"] →
    Unfinished s (dep.text "source_id") →
      ∀ view, s.tasks[dep.text "target_id"]? = some view → HeldBack s view
  cyclic : ∀ D, Deadlocked s D → ∃ C : String → Prop, (∃ id, C id) ∧ ∀ id, C id → D id ∧
    ∃ next ∈ neighbors s.tasks s.explicitDependencies id, C next

theorem heldBack_of_declared {view : TaskAuthorityView} {other : String}
    (hother : other ∈ view.dependencies) (hunfinished : Unfinished s other) : HeldBack s view := by
  obtain ⟨blocker, hblocker, hterminal⟩ := hunfinished
  right
  right
  left
  apply List.ne_nil_of_mem (a := other)
  refine List.mem_append_left _ (List.mem_filter.mpr ⟨hother, ?_⟩)
  simp [hblocker, hterminal]

theorem heldBack_of_blockedBy {view : TaskAuthorityView} {dep : Dependency}
    (hdep : dep ∈ s.unsatisfied) (hsource : dep.text "source_id" = view.taskId)
    (hkind : dep.text "dependency_kind" = "blocked_by")
    (hunfinished : Unfinished s (dep.text "target_id")) : HeldBack s view := by
  obtain ⟨blocker, hblocker, hterminal⟩ := hunfinished
  obtain ⟨hmem, hstatus⟩ := mem_unsatisfied.mp hdep
  right
  right
  left
  apply List.ne_nil_of_mem (a := dep.text "target_id")
  refine List.mem_append_right _ (List.mem_filterMap.mpr ⟨dep, hmem, ?_⟩)
  simp [hsource, hkind, hstatus, hblocker, hterminal]

theorem SameWay.ready (h : SameWay s) (hkeyed : Keyed s.tasks) :
    ∀ id ∈ (projected s).readyTasks, ∀ next ∈ neighbors s.tasks s.unsatisfied id,
      ¬Unfinished s next := by
  intro id hid next hnext hunfinished
  obtain ⟨view, hview, hfree, -⟩ := mem_readyTasks.mp hid
  apply hfree
  rcases mem_neighbors.mp hnext with ⟨⟨declared, hdeclared, hmem⟩, -⟩ | ⟨dep, hdep, hexplicit⟩
  · rw [hview] at hdeclared
    obtain rfl := Option.some.inj hdeclared
    exact heldBack_of_declared hmem hunfinished
  · obtain ⟨-, ⟨hkind, rfl, rfl⟩ | ⟨hkind, rfl, rfl⟩⟩ := explicitNeighbor_eq_some.mp hexplicit
    · exact h.held dep hdep hkind hunfinished view hview
    · exact heldBack_of_blockedBy hdep (hkeyed _ view hview).symm hkind hunfinished

def submittedView (taskId : String) (dependencies : List String) : TaskAuthorityView where
  taskId := taskId
  state := "submitted"
  revision := 1
  digest := String.ofList (List.replicate 64 '0')
  sourceIdentity := "TaskStore:v2"
  dependencies := dependencies
  openGates := []
  receiptIds := []

def dependencyValues (kind source target : String) : Dict := [
  ("created_at", .str "2026-01-01T00:00:00Z"), ("dependency_id", .str "dep_ab"),
  ("dependency_kind", .str kind), ("external_ref", .null), ("project_id", .str "prj_abc"),
  ("provenance", .dict (openedProvenance "evt_1")), ("source_id", .str source),
  ("status", .str "pending"), ("target_id", .str target), ("target_type", .str "task")]

/-- Tasks `a` and `b` with one pending explicit dependency between them; `a` also declares some. -/
def linkedState (declared : List String) (dep : Dependency) : ProjectState :=
  { ProjectState.initial "prj_abc" governanceRulesVersion with
    tasks := ((∅ : Table TaskAuthorityView).insert "b" (submittedView "b" [])).insert "a"
      (submittedView "a" declared)
    dependencies := ⟨(∅ : Table Dependency).insert "dep_ab" dep, ["dep_ab"]⟩ }

section
variable {declared : List String} {dep : Dependency}

theorem getElem?_linkedState (id : String) :
    (linkedState declared dep).tasks[id]? =
      if id = "a" then some (submittedView "a" declared)
      else if id = "b" then some (submittedView "b" []) else none := by
  change (((∅ : Table TaskAuthorityView).insert "b" _).insert "a" _)[id]? = _
  rw [Std.ExtTreeMap.getElem?_insert, Std.ExtTreeMap.getElem?_insert]
  simp only [Std.compare_eq_iff_eq, Std.ExtTreeMap.getElem?_empty, eq_comm (a := id)]

theorem mem_linkedState {id : String} :
    id ∈ (linkedState declared dep).tasks ↔ id = "a" ∨ id = "b" := by
  rw [Std.ExtTreeMap.mem_iff_isSome_getElem?, getElem?_linkedState]
  split_ifs with ha hb
  · simp [ha]
  · simp [hb]
  · simp [ha, hb]

/-- Its projections can be computed. -/
theorem computeProjections_linkedState (hcanonical : Canonical dep.modelDump) :
    ∃ t, computeProjections none (linkedState declared dep) = .ok t := by
  have hrules : RulesBound none (linkedState declared dep) := by
    intro hnone
    cases hnone
  refine computeProjections_isOk.mpr ⟨hrules, ?_⟩
  have htasks : Entries (fun view => Printable view.revision) (linkedState declared dep).tasks := by
    intro id view hview
    rw [getElem?_linkedState] at hview
    split_ifs at hview
    · rw [← Option.some.inj hview]
      exact printable_small (n := 1) (by decide)
    · rw [← Option.some.inj hview]
      exact printable_small (n := 1) (by decide)
  have hdependencies : Entries (fun dep : Dependency => Canonical dep.modelDump)
      ((∅ : Table Dependency).insert "dep_ab" dep) :=
    Entries.insert (p := fun dep : Dependency => Canonical dep.modelDump) entries_empty hcanonical _
  exact ⟨printable_small (n := 0) (by decide), htasks, entries_empty, entries_empty, entries_empty,
    entries_empty, entries_empty, entries_empty, entries_empty, hdependencies⟩

end

def blockedByDependency : Dependency := ⟨dependencyValues "blocked_by" "b" "a", by decide⟩

theorem canonical_dependencyValues (kind source target : String) :
    Canonical (.dict (dependencyValues kind source target)) := by
  have hnull : Canonical .null := canonical_optValue none
  have hlist : Canonical (.list []) := canonical_list (by simp)
  simp [dependencyValues, openedProvenance, canonical_dict, canonical_str, canonical_strList, hnull,
    hlist]

theorem circular_healthFlags :
    "CIRCULAR_DEPENDENCY_DETECTED" ∈ (projected s).healthFlags ↔ s.cycles ≠ [] := by
  change _ ∈ sortedSet (evaluateHealthFlags _ s.cycles ++ s.healthFlags.filter isDriftFlag) ↔ _
  have hdrift : isDriftFlag "CIRCULAR_DEPENDENCY_DETECTED" = false := by decide
  rw [mem_sortedSet, List.mem_append, List.mem_filter, hdrift, evaluateHealthFlags,
    mem_sortedSet]
  simp only [List.mem_append, Bool.false_eq_true, and_false, or_false]
  constructor
  · intro h
    split_ifs at h <;> simp_all
  · intro h
    simp [h]

theorem evaluateDor_passed {phase : ProjectPhase}
    (hgate : "dor_planning_to_execution" ∉ s.overriddenGates) :
    (evaluateDor s phase).passed = true ↔
      ¬(phase = .execution ∧ s.tasks.isEmpty = true) ∧ detectDependencyCycles s.tasks [] = [] ∧
        s.issues.listed.any s.blockingIssue = false := by
  unfold evaluateDor
  rw [if_neg hgate]
  dsimp only
  split_ifs <;> simp_all

/-- What the definition of ready passes the projections flag no cycle for, unless the cycle takes
explicit dependencies and nothing else stops the gate. -/
theorem dor_sees_cycles {authority : Option AuthorityContext} {phase : ProjectPhase}
    (hgate : "dor_planning_to_execution" ∉ s.overriddenGates)
    (h : computeProjections authority s = .ok t) :
    ((evaluateDor s phase).passed = true → "CIRCULAR_DEPENDENCY_DETECTED" ∉ t.healthFlags) ↔
      (∀ id, ¬OnCycle (neighbors s.tasks s.explicitDependencies) id) ∨
        (∃ id, OnCycle (neighbors s.tasks []) id) ∨ s.issues.listed.any s.blockingIssue = true := by
  obtain ⟨-, revision, -, rfl⟩ := computeProjections_ok.mp h
  change (_ → _ ∉ (projected s).healthFlags) ↔ _
  rw [circular_healthFlags, evaluateDor_passed hgate, not_not]
  have hall : s.cycles = [] ↔ ∀ id, ¬OnCycle (neighbors s.tasks s.explicitDependencies) id := by
    rw [← not_exists, ← detectDependencyCycles_ne_nil, not_not]
    rfl
  have hdeclared : detectDependencyCycles s.tasks [] = [] ↔
      ¬∃ id, OnCycle (neighbors s.tasks []) id := by
    rw [← detectDependencyCycles_ne_nil, not_not]
  have htasks : s.tasks.isEmpty = true → s.cycles = [] := by
    intro hempty
    rw [hall]
    intro id hcycle
    obtain ⟨next, hnext, -⟩ := hcycle.exists_next
    have hmem := (mem_of_mem_neighbors hnext).1
    rw [Std.ExtTreeMap.isEmpty_iff.mp hempty] at hmem
    exact absurd hmem Std.ExtTreeMap.not_mem_empty
  rw [← hall, hdeclared]
  constructor
  · intro hflag
    by_contra hnone
    obtain ⟨hcycles, hnone⟩ := not_or.mp hnone
    obtain ⟨hdeclared, hissues⟩ := not_or.mp hnone
    exact hcycles (hflag ⟨fun hboth => hcycles (htasks hboth.2), hdeclared,
      Bool.eq_false_iff.mpr hissues⟩)
  · rintro (hcycles | hdeclared | hissues) ⟨-, hnone, hclear⟩
    · exact hcycles
    · exact absurd hdeclared hnone
    · rw [hissues] at hclear
      cases hclear

/-- The theorem on a task that is blocked by another. -/
theorem dor_sees_cycles_sample : ∃ t,
    computeProjections none (linkedState [] blockedByDependency) = .ok t ∧
      ((evaluateDor (linkedState [] blockedByDependency) .execution).passed = true →
        "CIRCULAR_DEPENDENCY_DETECTED" ∉ t.healthFlags) := by
  obtain ⟨t, ht⟩ : ∃ t, computeProjections none (linkedState [] blockedByDependency) = .ok t :=
    computeProjections_linkedState (canonical_dependencyValues _ _ _)
  have hcycles : (linkedState [] blockedByDependency).cycles = [] := by decide +kernel
  refine ⟨t, ht, (dor_sees_cycles (by decide) ht).mpr (Or.inl ?_)⟩
  intro id hcycle
  exact detectDependencyCycles_ne_nil.mpr ⟨id, hcycle⟩ hcycles

/-- A declared and an explicit dependency make a cycle that the gate does not see. -/
theorem explicit_cycle_passes_dor : ∃ s t, s.overriddenGates = [] ∧
    computeProjections none s = .ok t ∧ (evaluateDor s .execution).passed = true ∧
      "CIRCULAR_DEPENDENCY_DETECTED" ∈ t.healthFlags := by
  obtain ⟨t, ht⟩ : ∃ t, computeProjections none (linkedState ["b"] blockedByDependency) = .ok t :=
    computeProjections_linkedState (canonical_dependencyValues _ _ _)
  have hpassed : (evaluateDor (linkedState ["b"] blockedByDependency) .execution).passed = true := by
    decide +kernel
  have hcycles : (linkedState ["b"] blockedByDependency).cycles ≠ [] := by decide +kernel
  have hflag : "CIRCULAR_DEPENDENCY_DETECTED" ∈ t.healthFlags := by
    obtain ⟨-, revision, -, rfl⟩ := computeProjections_ok.mp ht
    have hprojected := circular_healthFlags.mpr hcycles
    exact hprojected
  have hgates : (linkedState ["b"] blockedByDependency).overriddenGates = [] := rfl
  exact ⟨linkedState ["b"] blockedByDependency, t, hgates, ht, hpassed, hflag⟩

end PowerFramework.State
