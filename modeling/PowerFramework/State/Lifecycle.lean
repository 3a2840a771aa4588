import PowerFramework.Lib.Path
import PowerFramework.State.Acceptance
/-!
# The lifecycle path

The phase history of a state against the legal transitions.  It is a path to the current phase
exactly when no creation event comes after the project has moved on.
-/

namespace PowerFramework.State

open Lib Lib.Failure Lib.Json Lib.Run Lib.Path Ledger

variable {self : ProjectStateReducer} {authority : Option AuthorityContext}
  {s t : ProjectState} {event : ProjectEvent}

/-- `phase_history` is a path of legal transitions from discovery to the current phase. -/
def ProjectState.OnPath (s : ProjectState) : Prop :=
  IsPath PhaseTransitionRecord.fromPhase PhaseTransitionRecord.toPhase
    (fun record => (legalTransition? record.fromPhase record.toPhase).isSome = true)
    .discovery s.phaseHistory s.currentPhase

/-- The current phase is the last recorded one, or was set back to discovery. -/
def ProjectState.AtEnd (s : ProjectState) : Prop :=
  s.currentPhase = pathEnd PhaseTransitionRecord.toPhase .discovery s.phaseHistory ∨
    s.currentPhase = .discovery

theorem onPath_initial (projectId rulesVersion : String) :
    (ProjectState.initial projectId rulesVersion).OnPath := rfl

section
variable [PythonText]

theorem Allowed.record {spec : TransitionSpec} {record : PhaseTransitionRecord}
    (hallowed : Allowed s spec event authority) (hrecord : transitionRecord spec event = .ok record) :
    record.fromPhase = s.currentPhase ∧ record.toPhase = spec.toPhase ∧
      (legalTransition? record.fromPhase record.toPhase).isSome = true := by
  obtain ⟨hfrom, hto, -, -⟩ := transitionRecord_ok hrecord
  have hsource := (legalTransition?_some hallowed.legal).2.1
  refine ⟨hfrom.trans hsource, hto, ?_⟩
  rw [hfrom, hsource, hto, hallowed.legal]
  rfl

variable [LaxInt]

/-- An event keeps the path unless it creates the project anew past discovery. -/
theorem Dispatched.onPath (hend : s.AtEnd) (h : Dispatched self authority s event t) :
    t.AtEnd ∧ (t.OnPath ↔
      s.OnPath ∧ (event.eventType = .projectCreated → s.currentPhase = .discovery)) := by
  have hother : event.eventType ≠ .projectCreated →
      (s.OnPath ↔ s.OnPath ∧ (event.eventType = .projectCreated → s.currentPhase = .discovery)) := by
    intro hne
    simp [hne]
  cases h with
  | created owner htype =>
      refine ⟨Or.inr rfl, ?_⟩
      constructor
      · intro hpath
        have hback := hpath.end_eq
        have hphase : s.currentPhase = .discovery := by
          rcases hend with hlast | hdiscovery
          · exact hlast.trans hback
          · exact hdiscovery
        rw [ProjectState.OnPath, hphase]
        exact ⟨hpath, fun _ => rfl⟩
      · rintro ⟨hpath, hphase⟩
        rw [ProjectState.OnPath, hphase htype] at hpath
        exact hpath
  | transition spec record htype hallowed hfresh hrecord =>
      obtain ⟨hfrom, hto, hlegal⟩ := hallowed.record hrecord
      have hne : event.eventType ≠ .projectCreated := by
        intro heq
        simp [isTransition, heq] at htype
      refine ⟨Or.inl ?_, ?_⟩
      · exact (pathEnd_concat.trans hto).symm
      · rw [← hother hne]
        change IsPath _ _ _ _ (s.phaseHistory ++ [record]) spec.toPhase ↔ _
        rw [isPath_concat]
        rw [hfrom] at hlegal ⊢
        exact ⟨fun hpath => hpath.1, fun hpath => ⟨hpath, hlegal, hto⟩⟩
  | inert htype hcreated => exact ⟨hend, hother hcreated⟩
  | _ =>
      refine ⟨hend, hother ?_⟩
      intro hcreated
      simp_all [EventType.observation]

/-- Every creation event comes while the project is in discovery. -/
def CreatedInDiscovery (self : ProjectStateReducer) (authority : Option AuthorityContext)
    (projectId : String) (events : List ProjectEvent) : Prop :=
  Throughout (applyEvent self authority) (.initial projectId self.rulesVersion)
    (fun s event => event.eventType = .projectCreated → s.currentPhase = .discovery) events

/-- A closed project leaves its phase by no other event than `project.reopened`. -/
def LeavesClosedReopened (self : ProjectStateReducer) (authority : Option AuthorityContext)
    (projectId : String) (events : List ProjectEvent) : Prop :=
  ∀ before event after s t, events = before ++ event :: after →
    Reached self authority projectId before s → applyEvent self authority s event = .ok t →
    s.currentPhase = .closed → t.currentPhase ≠ .closed → event.eventType = .projectReopened

variable {projectId : String} {events : List ProjectEvent}

theorem Reached.onPath (h : Reached self authority projectId events s) :
    s.AtEnd ∧ (s.OnPath ↔ CreatedInDiscovery self authority projectId events) := by
  refine Reached.induction (P := fun events s =>
    s.AtEnd ∧ (s.OnPath ↔ CreatedInDiscovery self authority projectId events)) ?_ ?_ h
  · exact ⟨Or.inr rfl, iff_of_true rfl throughout_nil⟩
  · intro before s event mid hreached hpath _ _ hdispatched
    obtain ⟨hend, hstep⟩ := hdispatched.onPath hpath.1
    refine ⟨hend, ?_⟩
    rw [CreatedInDiscovery, throughout_concat hreached, ← CreatedInDiscovery, ← hpath.2]
    exact hstep

/-- A closed project is left by being reopened or created anew. -/
theorem Dispatched.leaves_closed (h : Dispatched self authority s event t)
    (hclosed : s.currentPhase = .closed) (hleft : t.currentPhase ≠ .closed) :
    event.eventType = .projectReopened ∨ event.eventType = .projectCreated := by
  cases h with
  | created owner htype => exact Or.inr htype
  | transition spec record htype hallowed hfresh hrecord => exact Or.inl (hallowed.reopened hclosed)
  | _ => exact absurd hclosed hleft

theorem CreatedInDiscovery.leaves_closed
    (h : CreatedInDiscovery self authority projectId events) :
    LeavesClosedReopened self authority projectId events := by
  intro before event after s t hsplit hreached ht hclosed hleft
  obtain ⟨mid, -, -, hdispatched, rfl⟩ := applyEvent_dispatched ht
  rcases hdispatched.leaves_closed hclosed hleft with hreopened | hcreated
  · exact hreopened
  · have hphase := h before event after s hsplit hreached hcreated
    rw [hclosed] at hphase
    cases hphase

/-- The phase history of an accepted stream is a path of legal transitions to the current phase,
and a closed project is left by reopening it only, exactly when every creation event comes in
discovery. -/
theorem phase_history_path {tasks : List TaskAuthorityView} {decisions : List DecisionAuthorityView}
    {projectId : Option String} (hhistorical : historicalIn authority = true)
    (h : reduceInternal self events none tasks decisions projectId authority = .ok t) :
    (t.OnPath ∧ LeavesClosedReopened self authority t.projectId events) ↔
      CreatedInDiscovery self authority t.projectId events := by
  obtain ⟨final, -, hreached, hprojected⟩ := reduceInternal_historical hhistorical h
  have hpath : t.OnPath ↔ final.OnPath := by
    obtain ⟨-, revision, -, rfl⟩ := computeProjections_ok.mp hprojected
    rfl
  rw [hpath, hreached.onPath.2]
  exact ⟨fun hboth => hboth.1, fun hcreated => ⟨hcreated, hcreated.leaves_closed⟩⟩

end

/-! ## A project created anew -/

section

attribute [local instance] PythonText.ascii LaxInt.intOnly

/-- A passed evaluation of the gate to planning, with no views. -/
def planningReady (eventId digest : String) : Dict := [
  ("evaluated_from_phase", .str "DISCOVERY"), ("evaluated_phase", .str "PLANNING"),
  ("evaluation_event_id", .str eventId), ("evaluation_type", .str "dor"), ("result", .str "passed"),
  ("rules_digest", .str digest)]

def planningEvaluation (eventId digest : String) : HistoricalGovernanceEvaluation where
  evaluationType := .dor
  result := .passed
  evaluatedFromPhase := .discovery
  evaluatedPhase := .planning
  evaluationEventId := eventId
  taskViews := []
  decisionViews := []
  approvedDecisionIds := []
  verifiedTaskReceipts := []
  requiredEvidenceRefs := []
  accountableActor := none
  rulesVersion := governanceRulesVersion
  rulesDigest := digest

theorem modelValidate_planningReady {eventId digest : String} (hid : isEventId eventId = true)
    (hdigest : isHash digest = true) :
    HistoricalGovernanceEvaluation.modelValidate (planningReady eventId digest) =
      .ok (planningEvaluation eventId digest) := by
  simp only [HistoricalGovernanceEvaluation.modelValidate, planningReady, choiceField, strField,
    modelListField, strListField, optStrField, strFieldD, List.lookup_cons]
  simp [hid, hdigest, EvaluationType.ofText?, EvaluationResult.ofText?, ProjectPhase.ofText?,
    ProjectPhase.all, EvaluationType.text, EvaluationResult.text, ProjectPhase.text, bind,
    Except.bind, noExtras, evaluationFields, raiseIf,
    HistoricalGovernanceEvaluation.validateBindings, planningEvaluation, pure, Except.pure]

/-- The event with this evaluation. -/
def planningReadyEvent (s : ProjectState) (eventId : String) : ProjectEvent :=
  nextEvent s (governedEvent .dorEvaluated eventId (planningReady eventId rulesDigest))

theorem handleHistoricalEvaluation_planningReady {s : ProjectState}
    {authority : Option AuthorityContext} (hhistorical : historicalIn authority = true)
    {eventId : String} (hid : isEventId eventId = true) (hphase : s.currentPhase = .discovery) :
    handleHistoricalEvaluation defaultReducer s (planningReadyEvent s eventId) authority =
      .ok (evaluated s (planningReadyEvent s eventId) (planningEvaluation eventId rulesDigest)
        s.tasks s.decisions) := by
  refine handleHistoricalEvaluation_ok.mpr ⟨planningEvaluation eventId rulesDigest, s.tasks,
    s.decisions, ⟨hhistorical, rfl, modelValidate_planningReady hid isHash_rulesDigest, ?_, rfl, rfl,
      ?_, ?_, ?_⟩, rfl⟩
  · exact ⟨rfl, List.mem_cons_self, rfl, rfl, rfl, hphase.symm, by simp [planningEvaluation],
      by simp [planningEvaluation]⟩
  · simp [planningEvaluation]
  · simp [planningEvaluation]
  · simp [planningEvaluation]

def toPlanning : Dict := [
  ("evidence_refs", .list [.str "charter"]), ("target_phase", .str "PLANNING")]

def planningSpec : TransitionSpec := ⟨.discovery, .planning, "advance_to_planning",
  [.charterPresent, .ownerAssigned], some .dorDiscoveryToPlanning, false, true, false⟩

/-- A state in discovery with an owner and a charter. -/
structure Chartered (s : ProjectState) : Prop where
  currentPhase : s.currentPhase = .discovery
  owner : s.owner = some "alice"
  attached : "charter" ∈ s.attachedEvidence
  charter : s.evidenceKinds["charter"]? = some "charter"
  kinds : ∀ ref kind : String, s.evidenceKinds[ref]? = some kind → ref ∈ s.attachedEvidence
  raci : s.raci = ∅
  overriddenGates : s.overriddenGates = []
  tasks : s.tasks = ∅
  issues : s.issues.listed = []

theorem detectDependencyCycles_empty : detectDependencyCycles ∅ [] = [] := by
  have hkeys : (∅ : Table TaskAuthorityView).keys = [] := by
    simp [← Std.ExtTreeMap.map_fst_toList_eq_keys]
  simp [detectDependencyCycles, hkeys]

theorem Chartered.evaluateDor {s : ProjectState} (h : Chartered s) :
    evaluateDor s .planning = ⟨true, [], []⟩ := by
  simp [State.evaluateDor, h.overriddenGates, h.tasks, h.issues, detectDependencyCycles_empty]

/-- The evidence of a charter. -/
def charterRefs (s : ProjectState) : List String :=
  (s.evidenceKinds.toList.filter fun entry => entry.2 ∈ ["charter", "project_charter"]).map (·.1)

theorem Chartered.refs_attached {s : ProjectState} (h : Chartered s) :
    charterRefs s ≠ [] ∧ ∀ ref ∈ charterRefs s, ref ∈ s.attachedEvidence := by
  constructor
  · intro hempty
    have hmem : "charter" ∈ State.charterRefs s := List.mem_map.mpr ⟨("charter", "charter"),
      List.mem_filter.mpr ⟨Std.ExtTreeMap.mem_toList_iff_getElem?_eq_some.mpr h.charter, by decide⟩, rfl⟩
    rw [hempty] at hmem
    cases hmem
  · intro ref hmem
    obtain ⟨⟨_, kind⟩, hentry, rfl⟩ := List.mem_map.mp hmem
    exact h.kinds _ kind
      (Std.ExtTreeMap.mem_toList_iff_getElem?_eq_some.mp (List.mem_filter.mp hentry).1)

theorem Chartered.effectiveAuthority {s : ProjectState} (h : Chartered s)
    {authority : AuthorityContext} (hhistorical : authority.historical = true) :
    effectiveAuthority s (some authority) = some {
      attachedEvidence := s.attachedEvidence
      approvedDecisionIds := upTo s.lastEventSequence s.historicalApprovedDecisions
      raci := ∅
      accountableActor := none
      verifiedTaskReceipts := upTo s.lastEventSequence s.historicalTaskReceipts
      permitAccountableApproval := authority.permitAccountableApproval
      historical := true
      charterEvidenceRefs := charterRefs s
      raciAccountableCardinalityValid := true } := by
  have hempty : ((∅ : Table (List String)).filter fun _ actors => actors ≠ []).map
      (fun _ => sortTexts) = ∅ := rfl
  simp only [State.effectiveAuthority, Option.map_some, hhistorical, h.raci, hempty, if_true]
  rfl

theorem Chartered.evaluateTransition {s : ProjectState} (h : Chartered s)
    {authority : AuthorityContext} (hhistorical : authority.historical = true) (eventId : String) :
    ∃ evaluation, evaluateTransition s .planning
      (nextEvent s (governedEvent .projectPhaseChanged eventId toPlanning))
      (State.effectiveAuthority s (some authority)) = .ok evaluation ∧ evaluation.decision = .allow := by
  have hlegal : legalTransition? .discovery .planning = some planningSpec := by decide
  have htrusted : isUntrustedEvent
      (nextEvent s (governedEvent .projectPhaseChanged eventId toPlanning)) = false :=
    trusted_governedEvent (by decide) rfl rfl
  have hevidence : transitionEvidence
      (nextEvent s (governedEvent .projectPhaseChanged eventId toPlanning)) =
        .list [.str "charter"] := rfl
  have hattached : unresolvedRefs [.str "charter"] s.attachedEvidence = .ok [] := by
    simp [unresolvedRefs, List.filterM, List.filterAuxM, h.attached, bind, Except.bind, pure, Except.pure]
  have howner : stripText "alice" ≠ "" := by decide
  refine ⟨⟨.allow, sortTexts ["TRANSITION_ALLOWED"], [eventId], []⟩, ?_, rfl⟩
  obtain ⟨hsome, hall⟩ := h.refs_attached
  rw [h.effectiveAuthority hhistorical]
  have hpreconditions : ∀ effective : AuthorityContext, effective.historical = true →
      effective.charterEvidenceRefs = charterRefs s → effective.attachedEvidence = s.attachedEvidence →
      preconditionCheck planningSpec s
        (nextEvent s (governedEvent .projectPhaseChanged eventId toPlanning)) (some effective) = none := by
    intro effective heffective hrefs hevidence
    apply preconditionCheck_none
    intro precondition hmem
    rcases List.mem_pair.mp hmem with rfl | rfl
    · simpa [evaluatePrecondition, heffective, hrefs, hevidence, hsome] using hall
    · simp [evaluatePrecondition, heffective, h.owner, howner]
  simp only [State.evaluateTransition, h.currentPhase, hlegal, htrusted, evidenceCheck, hevidence,
    hpreconditions]
  simp [unlessRefused, refuseIf, bind, Except.bind, planningSpec, hattached, Value.truthy,
    Value.iterate, refuseUnresolved, gateOutcome, h.overriddenGates, Gate.isDor, h.evaluateDor]
  rfl

theorem transitionRecord_toPlanning {s : ProjectState} {eventId : String}
    (hid : isEventId eventId = true) :
    ∃ record, transitionRecord planningSpec
      (nextEvent s (governedEvent .projectPhaseChanged eventId toPlanning)) = .ok record := by
  refine ⟨_, bind_eq_ok.mpr ⟨sortTexts ["charter"], rfl, bind_eq_ok.mpr ⟨sortTexts [], rfl,
    bind_eq_ok.mpr ⟨⟨⟩, ?_, bind_eq_ok.mpr ⟨⟨⟩, ?_, bind_eq_ok.mpr ⟨none, rfl, rfl⟩⟩⟩⟩⟩⟩
  · rw [raiseIf_eq_ok, Bool.not_eq_false]
    change lengthBetween 128 "alice" = true
    decide
  · rw [raiseIf_eq_ok, Bool.not_eq_false]
    exact hid

theorem Chartered.handlePhaseTransition {s : ProjectState} (h : Chartered s)
    (authority : AuthorityContext) (hhistorical : authority.historical = true)
    (hfresh : freshEvaluation s .planning = true) (eventId : String) (hid : isEventId eventId = true) :
    ∃ record, record.fromPhase = .discovery ∧ record.toPhase = .planning ∧ handlePhaseTransition s
      (nextEvent s (governedEvent .projectPhaseChanged eventId toPlanning)) (some authority) =
        .ok (transitioned (some authority) s planningSpec record) := by
  obtain ⟨record, hrecord⟩ := transitionRecord_toPlanning hid
  obtain ⟨evaluation, hevaluation, hallow⟩ := h.evaluateTransition hhistorical eventId
  have hlegal : legalTransition? s.currentPhase .planning = some planningSpec := by
    rw [h.currentPhase]
    decide
  refine ⟨record, (transitionRecord_ok hrecord).1, (transitionRecord_ok hrecord).2.1, ?_⟩
  unfold State.handlePhaseTransition
  have hphase : ProjectPhase.ofText? (PythonText.upper (pyStr (.str "PLANNING"))) = some .planning := by
    decide
  have hraw : (getItem (nextEvent s (governedEvent .projectPhaseChanged eventId toPlanning)).payload
      "target_phase").or ((getItem (nextEvent s (governedEvent .projectPhaseChanged eventId
        toPlanning)).payload "to_phase").or (getItem (nextEvent s (governedEvent .projectPhaseChanged
          eventId toPlanning)).payload "phase")) = .str "PLANNING" := rfl
  refine bind_eq_ok.mpr ⟨⟨⟩, raiseIf_eq_ok.mpr (by rw [hraw]; decide), ?_⟩
  simp only [hraw, hphase, hlegal]
  refine bind_eq_ok.mpr ⟨⟨⟩, raiseIf_eq_ok.mpr (by simp [hfresh]), ?_⟩
  refine bind_eq_ok.mpr ⟨evaluation, hevaluation, ?_⟩
  refine bind_eq_ok.mpr ⟨⟨⟩, raiseIf_eq_ok.mpr (by simp [hallow]), ?_⟩
  exact bind_eq_ok.mpr ⟨record, hrecord, rfl⟩

def attachedCharter : Dict :=
  [("evidence_id", .str "charter"), ("evidence_type", .str "charter")]

theorem handleEvidenceAttached_charter (s : ProjectState) (eventId : String) :
    handleEvidenceAttached s (nextEvent s (governedEvent .evidenceAttached eventId attachedCharter)) =
      { s with
        attachedEvidence := sortedSet (s.attachedEvidence ++ ["charter"])
        evidenceKinds := (s.evidenceKinds.insert "charter" "charter").filter fun ref _ =>
          ref ∈ sortedSet (s.attachedEvidence ++ ["charter"]) } := rfl

/-- A stream that creates a project and attaches its charter. -/
theorem exists_chartered : ∃ events s,
    Reached defaultReducer (some serviceAuthority) "prj_abc" events s ∧
      Chartered s ∧ Storable s ∧ s.lastEventSequence = 2 ∧ s.phaseHistory = [] := by
  have hnew : Reached defaultReducer (some serviceAuthority) "prj_abc" []
      (.initial "prj_abc" governanceRulesVersion) := reached_nil
  have hcreated := hnew.governed .projectCreated "evt_1" [("owner", .str "alice")] (by decide) rfl
    rfl (by simp [canonical_dict, canonical_str]) (printable_small (by decide)) rfl
  have hchartered := hcreated.governed .evidenceAttached "evt_2" attachedCharter (by decide) rfl rfl
    (by simp [canonical_dict, canonical_str, attachedCharter]) (printable_small (by decide))
    (congrArg Except.ok (handleEvidenceAttached_charter _ "evt_2"))
  refine ⟨_, _, hchartered, ⟨rfl, rfl, ?_, ?_, ?_, rfl, rfl, rfl, rfl⟩, ?_, rfl, rfl⟩
  · exact mem_sortedSet.mpr (List.mem_append_right _ List.mem_cons_self)
  · change (Std.ExtTreeMap.filter _ _)["charter"]? = _
    simp
  · intro ref kind hkind
    change (Std.ExtTreeMap.filter _ _)[ref]? = _ at hkind
    simp only [Std.ExtTreeMap.getElem?_filter', Option.filter_eq_some_iff, decide_eq_true_eq] at hkind
    exact hkind.2
  · exact ⟨printable_small (by decide), entries_empty, entries_empty, entries_empty, entries_empty,
      entries_empty, entries_empty, entries_empty, entries_empty, entries_empty⟩

theorem Chartered.evaluated {s : ProjectState} (h : Chartered s) (event : ProjectEvent)
    (evaluation : HistoricalGovernanceEvaluation) :
    Chartered ((evaluated s event evaluation s.tasks s.decisions).advance event) :=
  ⟨h.1, h.2, h.3, h.4, h.5, h.6, h.7, h.8, h.9⟩

/-- A stream that creates a project, attaches its charter, evaluates the gate and plans it. -/
theorem exists_planned : ∃ events s record,
    Reached defaultReducer (some serviceAuthority) "prj_abc" events s ∧ Storable s ∧
      s.lastEventSequence = 4 ∧ s.phaseHistory = [record] ∧ record.fromPhase = .discovery ∧
      record.toPhase = .planning := by
  obtain ⟨events, s, hreached, hchartered, hstorable, hlast, hhistory⟩ := exists_chartered
  have hthird : Printable (s.lastEventSequence + 1) := by
    rw [hlast]
    exact printable_small (by decide)
  have hfourth : Printable (s.lastEventSequence + 1 + 1) := by
    rw [hlast]
    exact printable_small (by decide)
  have hpayload : Canonical (.dict (planningReady "evt_3" rulesDigest)) := by
    simp [canonical_dict, canonical_str, planningReady]
  have hevaluated := hreached.governed .dorEvaluated "evt_3" (planningReady "evt_3" rulesDigest)
    (by decide) rfl rfl hpayload hthird
    (handleHistoricalEvaluation_planningReady rfl (by decide) hchartered.currentPhase)
  have hfresh : freshEvaluation _ (planningEvaluation "evt_3" rulesDigest).evaluatedPhase = true :=
    freshEvaluation_evaluated rfl hchartered.currentPhase.symm (planningReadyEvent s "evt_3")
      s.tasks s.decisions
  obtain ⟨record, hfrom, hto, htransition⟩ := (hchartered.evaluated _ _).handlePhaseTransition
    serviceAuthority rfl hfresh "evt_4" (by decide)
  have hplanned := hevaluated.governed .projectPhaseChanged "evt_4" toPlanning (by decide) rfl rfl
    (by simp [canonical_dict, canonical_str, toPlanning, canonical_list_iff]) hfourth htransition
  refine ⟨_, _, record, hplanned, ?_, ?_, ?_, hfrom, hto⟩
  · exact ⟨hfourth, hstorable.tasks, hstorable.decisions, hstorable.approved,
      (hstorable.gates.insert hthird _).erase _, hstorable.receipts, hstorable.risks,
      hstorable.issues, hstorable.assumptions, hstorable.dependencies⟩
  · change s.lastEventSequence + 1 + 1 = 4
    rw [hlast]
  · change s.phaseHistory ++ [record] = _
    rw [hhistory, List.nil_append]

/-- The theorem on a stream that starts a project and plans it. -/
theorem phase_history_path_sample : ∃ events t,
    reduceInternal defaultReducer events none [] [] (some "prj_abc") (some serviceAuthority) = .ok t ∧
      ((t.OnPath ∧ LeavesClosedReopened defaultReducer (some serviceAuthority) t.projectId events) ↔
        CreatedInDiscovery defaultReducer (some serviceAuthority) t.projectId events) := by
  obtain ⟨events, s, record, hreached, hstorable, -, -, -, -⟩ := exists_planned
  obtain ⟨t, ht, -⟩ := hreached.reduce (by decide) rfl hstorable [] []
  exact ⟨events, t, ht, phase_history_path rfl ht⟩

/-- A second creation event sends a planned project back to discovery, with no record of it. -/
theorem created_after_planning : ∃ events t record,
    reduceInternal defaultReducer events none [] [] (some "prj_abc") (some serviceAuthority) = .ok t ∧
      t.phaseHistory = [record] ∧ record.toPhase = .planning ∧ t.currentPhase = .discovery ∧
      ¬ t.OnPath := by
  obtain ⟨events, s, record, hreached, hstorable, hlast, hhistory, -, hto⟩ := exists_planned
  have hfive : Printable (s.lastEventSequence + 1) := by
    rw [hlast, Printable]
    decide
  have hcreated := hreached.governed .projectCreated "evt_5" [] (by decide) rfl rfl
    (by simp [canonical_dict]) hfive rfl
  obtain ⟨t, ht, hprojected⟩ := hcreated.reduce (by decide) rfl
    ⟨hfive, hstorable.tasks, hstorable.decisions, hstorable.approved, hstorable.gates,
      hstorable.receipts, hstorable.risks, hstorable.issues, hstorable.assumptions,
      hstorable.dependencies⟩ [] []
  obtain ⟨-, revision, -, rfl⟩ := computeProjections_ok.mp hprojected
  refine ⟨_, _, record, ht, hhistory, hto, rfl, ?_⟩
  intro hpath
  have hend := hpath.end_eq
  change pathEnd _ _ s.phaseHistory = ProjectPhase.discovery at hend
  rw [hhistory] at hend
  change record.toPhase = .discovery at hend
  rw [hto] at hend
  cases hend

end

end PowerFramework.State
