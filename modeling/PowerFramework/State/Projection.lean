import PowerFramework.State.Steps
/-!
# Projections and what they need

The projected state as a function of the state behind the last event, and when its revision can
be computed: the dump of a state has canonical JSON when its entities have and its numbers can be
printed.
-/

namespace PowerFramework.State

open Lib Lib.Failure Lib.Json Lib.Run Ledger

variable {self : ProjectStateReducer} {authority : Option AuthorityContext} {s t : ProjectState}

/-! ## The projected state -/

/-- The state that projections lead to, but for its revision. -/
def projected (s : ProjectState) : ProjectState :=
  let cycles := detectDependencyCycles s.tasks (s.dependencies.entities.toList.map (·.2))
  let state := (s.project cycles).sorted
  { state with
    rulesDigest := if s.rulesDigest = "" then rulesDigest else s.rulesDigest
    healthFlags :=
      sortedSet (evaluateHealthFlags state cycles ++ s.healthFlags.filter isDriftFlag) }

/-- Under historical authority the state's rules are the engine's. -/
def RulesBound (authority : Option AuthorityContext) (s : ProjectState) : Prop :=
  historicalIn authority = true → s.rulesDigest = rulesDigest

theorem bindRules_ok {phase : String} :
    bindRules phase authority s = .ok t ↔ RulesBound authority s ∧
      t = { s with rulesDigest := if s.rulesDigest = "" then rulesDigest else s.rulesDigest } := by
  have hsame : (if s.rulesDigest = "" then { s with rulesDigest } else s) =
      { s with rulesDigest := if s.rulesDigest = "" then rulesDigest else s.rulesDigest } := by
    split_ifs <;> rfl
  unfold bindRules RulesBound
  constructor
  · intro h
    obtain ⟨⟨⟩, hother, h⟩ := bind_eq_ok.mp h
    obtain ⟨⟨⟩, hempty, h⟩ := bind_eq_ok.mp h
    rw [raiseIf_eq_ok] at hother hempty
    cases h
    refine ⟨?_, hsame⟩
    intro hhistorical
    by_contra hne
    exact hother ⟨hhistorical, fun heq => hempty ⟨hhistorical, heq⟩, hne⟩
  · rintro ⟨hbound, rfl⟩
    refine bind_eq_ok.mpr ⟨⟨⟩, ?_, bind_eq_ok.mpr ⟨⟨⟩, ?_, ?_⟩⟩
    · rw [raiseIf_eq_ok]
      rintro ⟨hhistorical, -, hne⟩
      exact hne (hbound hhistorical)
    · rw [raiseIf_eq_ok]
      rintro ⟨hhistorical, hempty⟩
      exact rulesDigest_ne ((hbound hhistorical).symm.trans hempty)
    · exact congrArg Except.ok hsame

theorem computeProjections_ok :
    computeProjections authority s = .ok t ↔ RulesBound authority s ∧ ∃ stateRevision,
      computeStateRevision (projected s) = .ok stateRevision ∧
        t = { projected s with stateRevision } := by
  unfold computeProjections
  rw [bind_eq_ok]
  constructor
  · rintro ⟨bound, hbound, h⟩
    obtain ⟨hrules, rfl⟩ := bindRules_ok.mp hbound
    obtain ⟨revision, hrevision, h⟩ := bind_eq_ok.mp h
    cases h
    exact ⟨hrules, revision, hrevision, rfl⟩
  · rintro ⟨hrules, revision, hrevision, rfl⟩
    exact ⟨_, bindRules_ok.mpr ⟨hrules, rfl⟩, bind_eq_ok.mpr ⟨revision, hrevision, rfl⟩⟩

/-! ## From the initial state -/

theorem newState_ok {projectId : String} :
    newState self projectId = .ok s ↔
      isProjectId projectId = true ∧ s = .initial projectId self.rulesVersion := by
  unfold newState
  rw [bind_eq_ok]
  constructor
  · rintro ⟨⟨⟩, hid, h⟩
    rw [raiseIf_eq_ok, Bool.not_eq_false] at hid
    cases h
    exact ⟨hid, rfl⟩
  · rintro ⟨hid, rfl⟩
    exact ⟨⟨⟩, by rw [raiseIf_eq_ok, Bool.not_eq_false]; exact hid, rfl⟩

/-- Without an initial state the replay starts from a new one. -/
theorem startState_ok {events : List ProjectEvent} {projectId : Option String}
    (h : startState self events none projectId = .ok s) :
    ∃ target, isProjectId target = true ∧ s = .initial target self.rulesVersion := by
  unfold startState at h
  obtain ⟨⟨⟩, -, h⟩ := bind_eq_ok.mp h
  obtain ⟨target, -, h⟩ := bind_eq_ok.mp h
  exact ⟨target, newState_ok.mp h⟩

variable [LaxInt] [PythonText] {events : List ProjectEvent} {tasks : List TaskAuthorityView}
  {decisions : List DecisionAuthorityView} {projectId : Option String}

/-- The state that a replay without initial state applies its events to. -/
def preparedState (self : ProjectStateReducer) (events : List ProjectEvent)
    (tasks : List TaskAuthorityView) (decisions : List DecisionAuthorityView)
    (projectId : Option String) (authority : Option AuthorityContext) :
    Except Exn ProjectState := do
  let state ← startState self events none projectId
  let state ← bindRules "replay" authority state
  preloadViews authority tasks decisions state

theorem reduceInternal_ok :
    reduceInternal self events none tasks decisions projectId authority = .ok t ↔
      ∃ start final, preparedState self events tasks decisions projectId authority = .ok start ∧
        applyEvents self authority start events = .ok final ∧
        computeProjections authority final = .ok t := by
  unfold reduceInternal preparedState
  simp only [bind_eq_ok]
  constructor
  · rintro ⟨state, hstate, bound, hbound, start, hstart, final, hfinal, ht⟩
    exact ⟨start, final, ⟨state, hstate, bound, hbound, hstart⟩, hfinal, ht⟩
  · rintro ⟨start, final, ⟨state, hstate, bound, hbound, hstart⟩, hfinal, ht⟩
    exact ⟨state, hstate, bound, hbound, start, hstart, final, hfinal, ht⟩

omit [LaxInt] [PythonText] in
/-- It is a new state, with the supplied views outside historical authority. -/
theorem preparedState_ok
    (h : preparedState self events tasks decisions projectId authority = .ok s) :
    ∃ target taskViews decisionViews, isProjectId target = true ∧
      s = { ProjectState.initial target self.rulesVersion with
        tasks := taskViews, decisions := decisionViews } ∧
      (historicalIn authority = true → s = .initial target self.rulesVersion) := by
  obtain ⟨start, hstart, h⟩ := bind_eq_ok.mp h
  obtain ⟨bound, hbound, h⟩ := bind_eq_ok.mp h
  obtain ⟨target, htarget, rfl⟩ := startState_ok hstart
  obtain ⟨-, rfl⟩ := bindRules_ok.mp hbound
  have hnonempty : (ProjectState.initial target self.rulesVersion).rulesDigest ≠ "" := rulesDigest_ne
  rw [if_neg hnonempty, preloadViews] at h
  split_ifs at h with hhistorical
  · obtain rfl := Except.ok.inj h
    exact ⟨target, _, _, htarget, rfl, fun _ => rfl⟩
  · obtain ⟨taskViews, -, h⟩ := bind_eq_ok.mp h
    obtain ⟨decisionViews, -, h⟩ := bind_eq_ok.mp h
    obtain rfl := Except.ok.inj h
    exact ⟨target, taskViews, decisionViews, htarget, rfl, fun htrue => absurd htrue hhistorical⟩

/-- A replay under historical authority runs the events on a new state, whatever the views. -/
theorem reduceInternal_historical (hhistorical : historicalIn authority = true)
    (h : reduceInternal self events none tasks decisions projectId authority = .ok t) :
    ∃ final, isProjectId t.projectId = true ∧
      Reached self authority t.projectId events final ∧
      computeProjections authority final = .ok t := by
  obtain ⟨start, final, hstart, hfinal, hprojected⟩ := reduceInternal_ok.mp h
  obtain ⟨target, _, _, htarget, -, hstart⟩ := preparedState_ok hstart
  rw [hstart hhistorical] at hfinal
  have hreached : Reached self authority target events final := hfinal
  obtain ⟨-, revision, -, rfl⟩ := computeProjections_ok.mp hprojected
  have hproject : final.projectId = target := hreached.kept.1
  refine ⟨final, ?_, ?_, hprojected⟩
  · exact hproject ▸ htarget
  · exact hproject ▸ hreached

end PowerFramework.State
