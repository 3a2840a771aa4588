import PowerFramework.Lib.Run
import PowerFramework.State.Reducer
/-!
# Steps of the reducer

What an event that the reducer accepts says about itself, and which parts of the state it wrote.
Every invariant of the reducer is derived from these facts.
-/

namespace PowerFramework.State

open Lib Lib.Failure Lib.Json Lib.Run Ledger

variable {self : ProjectStateReducer} {authority : Option AuthorityContext}
  {s t : ProjectState} {event : ProjectEvent}

/-! ## The checks before a handler -/

/-- An accepted event is of the state's project and next in its sequence, and its digests are
those of its content. -/
structure Linked (s : ProjectState) (event : ProjectEvent) : Prop where
  projectId : event.projectId = s.projectId
  sequence : event.sequence = s.lastEventSequence + 1
  prevEventHash : 0 < s.lastEventSequence → event.prevEventHash = s.lastEventHash
  payloadDigest : computePayloadDigest event.payload = .ok event.payloadDigest
  eventHash : computeEventHash event.modelDump = .ok event.eventHash

theorem checkLineage_ok {u : Unit} : checkLineage s event = .ok u ↔ Linked s event := by
  unfold checkLineage
  constructor
  · intro h
    obtain ⟨⟨⟩, hproject, h⟩ := bind_eq_ok.mp h
    have hdigests : ∀ {v : Unit}, (do
        let payloadDigest ← computePayloadDigest event.payload
        raiseIf (payloadDigest ≠ event.payloadDigest) (stateEngineError
          ("Tampered event payload: payload digest mismatch on event " ++ event.eventId))
        let eventHash ← computeEventHash event.modelDump
        raiseIf (eventHash ≠ event.eventHash) (stateEngineError
          ("Tampered event payload: hash mismatch on event " ++ event.eventId))) = .ok v →
        computePayloadDigest event.payload = .ok event.payloadDigest ∧
          computeEventHash event.modelDump = .ok event.eventHash := by
      intro v h
      obtain ⟨digest, hdigest, h⟩ := bind_eq_ok.mp h
      obtain ⟨⟨⟩, hsame, h⟩ := bind_eq_ok.mp h
      obtain ⟨hash, hhash, h⟩ := bind_eq_ok.mp h
      rw [raiseIf_eq_ok, not_not] at hsame h
      exact ⟨hsame ▸ hdigest, h ▸ hhash⟩
    rw [raiseIf_eq_ok, not_not] at hproject
    split_ifs at h with hpos
    · obtain ⟨⟨⟩, hseq, h⟩ := bind_eq_ok.mp h
      obtain ⟨⟨⟩, hprev, h⟩ := bind_eq_ok.mp h
      obtain ⟨hpayload, hhash⟩ := hdigests h
      rw [raiseIf_eq_ok, not_not] at hseq hprev
      exact ⟨hproject, hseq, fun _ => hprev, hpayload, hhash⟩
    · obtain ⟨⟨⟩, hseq, h⟩ := bind_eq_ok.mp h
      obtain ⟨hpayload, hhash⟩ := hdigests h
      rw [raiseIf_eq_ok, not_not] at hseq
      exact ⟨hproject, by omega, fun hlt => absurd hlt hpos, hpayload, hhash⟩
  · intro h
    have hproject := h.projectId
    have hseq := h.sequence
    simp only [raiseIf, ne_eq, hproject, not_true_eq_false, if_false, h.payloadDigest, h.eventHash]
    by_cases hpos : 0 < s.lastEventSequence
    · simp [hpos, hseq, h.prevEventHash hpos, bind, Except.bind]
    · have hzero : s.lastEventSequence = 0 := by omega
      simp [hseq, hzero, bind, Except.bind]

/-! ## Refusals and records -/

theorem unlessRefused_ok {check : Except Exn (Option GovernanceEvaluation)}
    {rest : Except Exn GovernanceEvaluation} {evaluation : GovernanceEvaluation} :
    unlessRefused check rest = .ok evaluation ↔
      check = .ok (some evaluation) ∨ (check = .ok none ∧ rest = .ok evaluation) := by
  cases check with
  | error exn => simp [unlessRefused, bind, Except.bind]
  | ok refused => cases refused <;> simp [unlessRefused, bind, Except.bind, pure, Except.pure]

/-- A check that only refuses passes on the way to an outcome that allows. -/
theorem unlessRefused_allow {check : Except Exn (Option GovernanceEvaluation)}
    {rest : Except Exn GovernanceEvaluation} {evaluation : GovernanceEvaluation}
    (hrefuses : ∀ refused, check = .ok (some refused) → refused.decision ≠ .allow)
    (h : unlessRefused check rest = .ok evaluation) (hallow : evaluation.decision = .allow) :
    check = .ok none ∧ rest = .ok evaluation := by
  rcases unlessRefused_ok.mp h with hrefused | hpassed
  · exact absurd hallow (hrefuses evaluation hrefused)
  · exact hpassed

theorem refuseIf_allow {p : Prop} [Decidable p] {refused evaluation : GovernanceEvaluation}
    {rest : Except Exn GovernanceEvaluation} (hrefused : refused.decision ≠ .allow)
    (h : unlessRefused (refuseIf p refused) rest = .ok evaluation)
    (hallow : evaluation.decision = .allow) : ¬ p ∧ rest = .ok evaluation := by
  obtain ⟨hcheck, hrest⟩ := unlessRefused_allow (by
    intro other hother
    unfold refuseIf at hother
    split_ifs at hother
    · cases hother
      exact hrefused
    · cases hother) h hallow
  refine ⟨?_, hrest⟩
  intro hp
  rw [refuseIf, if_pos hp] at hcheck
  cases hcheck

theorem refuseUnresolved_decision {event : ProjectEvent} {reason : String} {unresolved : List Value}
    {refused : GovernanceEvaluation}
    (h : refuseUnresolved event reason unresolved = .ok (some refused)) :
    refused.decision = .requireEvidence := by
  unfold refuseUnresolved at h
  split_ifs at h
  · cases h
  · split at h
    · cases h
      rfl
    · cases h

theorem evidenceCheck_decision {spec : TransitionSpec} {refused : GovernanceEvaluation}
    (h : evidenceCheck spec event authority = .ok (some refused)) :
    refused.decision = .requireEvidence := by
  unfold evidenceCheck at h
  split_ifs at h
  · cases authority with
    | none => cases h
    | some authority =>
        obtain ⟨refs, -, h⟩ := bind_eq_ok.mp h
        obtain ⟨unresolved, -, h⟩ := bind_eq_ok.mp h
        exact refuseUnresolved_decision h
  · cases h
    rfl
  · cases h

theorem transitionRecord_ok {spec : TransitionSpec} {record : PhaseTransitionRecord}
    (h : transitionRecord spec event = .ok record) :
    record.fromPhase = spec.fromPhase ∧ record.toPhase = spec.toPhase ∧
      record.eventId = event.eventId ∧ record.gate = spec.requiredGate.map Gate.text := by
  unfold transitionRecord at h
  obtain ⟨evidenceRefs, -, h⟩ := bind_eq_ok.mp h
  obtain ⟨approvalRefs, -, h⟩ := bind_eq_ok.mp h
  obtain ⟨⟨⟩, -, h⟩ := bind_eq_ok.mp h
  obtain ⟨⟨⟩, -, h⟩ := bind_eq_ok.mp h
  obtain ⟨reason, -, h⟩ := bind_eq_ok.mp h
  cases h
  exact ⟨rfl, rfl, rfl, rfl⟩

theorem handleProjectOwner_eq (s : ProjectState) (event : ProjectEvent) :
    ∃ owner, handleProjectOwner s event = { s with owner } := by
  unfold handleProjectOwner
  split
  · exact ⟨_, rfl⟩
  · exact ⟨s.owner, rfl⟩

section
variable [PythonText]

/-- Under historical authority an event that bears governance has the governed source and is
trusted. -/
def Admissible (authority : Option AuthorityContext) (event : ProjectEvent) : Prop :=
  historicalIn authority = true → governanceBearing event.eventType = true →
    event.source = pseGovernance ∧ isUntrustedEvent event = false

theorem checkProvenance_ok {u : Unit} :
    checkProvenance event authority = .ok u ↔ Admissible authority event := by
  unfold checkProvenance
  constructor
  · intro h hhistorical hbearing
    obtain ⟨⟨⟩, hsource, h⟩ := bind_eq_ok.mp h
    rw [raiseIf_eq_ok] at hsource h
    constructor
    · by_contra hne
      exact hsource ⟨hhistorical, hbearing, hne⟩
    · by_contra hne
      exact h ⟨hhistorical, hbearing, by simpa using hne⟩
  · intro h
    refine bind_eq_ok.mpr ⟨⟨⟩, raiseIf_eq_ok.mpr ?_, raiseIf_eq_ok.mpr ?_⟩
    · rintro ⟨hhistorical, hbearing, hne⟩
      exact hne (h hhistorical hbearing).1
    · rintro ⟨hhistorical, hbearing, huntrusted⟩
      rw [(h hhistorical hbearing).2] at huntrusted
      cases huntrusted

theorem applyEvent_ok [LaxInt] :
    applyEvent self authority s event = .ok t ↔
      ∃ mid, Linked s event ∧ Admissible authority event ∧
        dispatchEvent self s event authority = .ok mid ∧ t = mid.advance event := by
  unfold applyEvent
  constructor
  · intro h
    obtain ⟨⟨⟩, hlineage, h⟩ := bind_eq_ok.mp h
    obtain ⟨⟨⟩, hprovenance, h⟩ := bind_eq_ok.mp h
    obtain ⟨mid, hdispatch, h⟩ := bind_eq_ok.mp h
    cases h
    exact ⟨mid, checkLineage_ok.mp hlineage, checkProvenance_ok.mp hprovenance, hdispatch, rfl⟩
  · rintro ⟨mid, hlinked, hadmissible, hdispatch, rfl⟩
    exact bind_eq_ok.mpr ⟨⟨⟩, checkLineage_ok.mpr hlinked, bind_eq_ok.mpr
      ⟨⟨⟩, checkProvenance_ok.mpr hadmissible, bind_eq_ok.mpr ⟨mid, hdispatch, rfl⟩⟩⟩

/-! ## Transitions -/

theorem preconditionCheck_none {spec : TransitionSpec} {authority : AuthorityContext}
    (h : ∀ precondition ∈ spec.preconditions,
      evaluatePrecondition precondition s event authority = true) :
    preconditionCheck spec s event (some authority) = none := by
  rw [preconditionCheck, Option.map_eq_none_iff, List.find?_eq_none]
  intro precondition hmem
  simp [h precondition hmem]

/-- What an allowed transition has passed. -/
structure Allowed (s : ProjectState) (spec : TransitionSpec) (event : ProjectEvent)
    (authority : Option AuthorityContext) : Prop where
  trusted : isUntrustedEvent event = false
  reopened : s.currentPhase = .closed → event.eventType = .projectReopened
  legal : legalTransition? s.currentPhase spec.toPhase = some spec
  approved : spec.approvalRequired = true → hasApproval spec s event.payload authority = true

theorem evaluateTransition_allow {toPhase : ProjectPhase} {evaluation : GovernanceEvaluation}
    (h : evaluateTransition s toPhase event authority = .ok evaluation)
    (hallow : evaluation.decision = .allow) :
    ∃ spec, spec.toPhase = toPhase ∧ Allowed s spec event authority := by
  unfold evaluateTransition at h
  obtain ⟨htrusted, h⟩ := refuseIf_allow (by simp [refusal]) h hallow
  obtain ⟨hclosed, h⟩ := refuseIf_allow (by simp [refusal]) h hallow
  split at h
  · cases h
    cases hallow
  · rename_i spec hspec
    obtain ⟨-, h⟩ := refuseIf_allow (by simp [refusal]) h hallow
    obtain ⟨-, h⟩ := refuseIf_allow (by simp [refusal]) h hallow
    obtain ⟨-, h⟩ := unlessRefused_allow (by
      intro refused hrefused
      rw [evidenceCheck_decision hrefused]
      simp) h hallow
    obtain ⟨happroval, h⟩ := refuseIf_allow (by simp [refusal]) h hallow
    have hto := (legalTransition?_some hspec).2.2
    refine ⟨spec, hto, by simpa using htrusted, ?_, hto ▸ hspec, ?_⟩
    · intro hphase
      by_contra hne
      exact hclosed ⟨hphase, hne⟩
    · intro hrequired
      by_contra hno
      exact happroval ⟨hrequired, by simpa using hno⟩

/-- The state behind an admitted transition. -/
def transitioned (authority : Option AuthorityContext) (s : ProjectState) (spec : TransitionSpec)
    (record : PhaseTransitionRecord) : ProjectState :=
  let used : Bool := historicalIn authority && spec.requiredGate.isSome
  { s with
    phaseHistory := s.phaseHistory ++ [record]
    currentPhase := spec.toPhase
    historicalGateEvaluations := if used then
      s.historicalGateEvaluations.erase spec.toPhase.text else s.historicalGateEvaluations
    historicalGateOrigins := if used then
      s.historicalGateOrigins.erase spec.toPhase.text else s.historicalGateOrigins }

theorem handlePhaseTransition_ok (h : handlePhaseTransition s event authority = .ok t) :
    ∃ spec record, Allowed s spec event (effectiveAuthority s authority) ∧
      (historicalIn authority = true → spec.requiredGate.isSome = true →
        freshEvaluation s spec.toPhase = true) ∧
      transitionRecord spec event = .ok record ∧ t = transitioned authority s spec record := by
  unfold handlePhaseTransition at h
  obtain ⟨⟨⟩, -, h⟩ := bind_eq_ok.mp h
  split at h
  · cases h
  · rename_i toPhase hphase
    obtain ⟨⟨⟩, hfresh, h⟩ := bind_eq_ok.mp h
    obtain ⟨evaluation, hevaluation, h⟩ := bind_eq_ok.mp h
    obtain ⟨⟨⟩, hallow, h⟩ := bind_eq_ok.mp h
    rw [raiseIf_eq_ok, not_not] at hallow
    obtain ⟨spec, rfl, hallowed⟩ := evaluateTransition_allow hevaluation hallow
    rw [hallowed.legal] at h hfresh
    obtain ⟨record, hrecord, h⟩ := bind_eq_ok.mp h
    cases h
    refine ⟨spec, record, hallowed, ?_, hrecord, rfl⟩
    intro hhistorical hgate
    by_contra hno
    rw [raiseIf_eq_ok] at hfresh
    exact hfresh ⟨hhistorical, hgate, by simpa using hno⟩

end

/-! ## Evaluations -/

section
variable [PythonText]

/-- An evaluation bound to its event, to the rules and to the state it was made in. -/
structure Bound (reducer : ProjectStateReducer) (s : ProjectState) (event : ProjectEvent)
    (evaluation : HistoricalGovernanceEvaluation) : Prop where
  kind : evaluation.evaluationType = if event.eventType = .dorEvaluated then .dor else .dod
  phase : evaluation.evaluatedPhase ∈
    if event.eventType = .dorEvaluated then dorPhases else dodPhases
  eventId : evaluation.evaluationEventId = event.eventId
  rulesVersion : evaluation.rulesVersion = reducer.rulesVersion
  rulesDigest : evaluation.rulesDigest = State.rulesDigest
  fromPhase : evaluation.evaluatedFromPhase = s.currentPhase
  evidence : ∀ ref ∈ evaluation.requiredEvidenceRefs, ref ∈ s.attachedEvidence
  accountable : ∀ actor, evaluation.accountableActor = some actor →
    accountableActors s.raci = [actor]

theorem checkEvaluation_ok {evaluation : HistoricalGovernanceEvaluation} {u : Unit} :
    checkEvaluation self s event evaluation = .ok u ↔ Bound self s event evaluation := by
  have hphases : (if (if event.eventType = .dorEvaluated then EvaluationType.dor else .dod) = .dor
      then dorPhases else dodPhases) =
        if event.eventType = .dorEvaluated then dorPhases else dodPhases := by
    split_ifs <;> trivial
  unfold checkEvaluation
  simp only [hphases]
  constructor
  · intro h
    obtain ⟨⟨⟩, hkind, h⟩ := bind_eq_ok.mp h
    obtain ⟨⟨⟩, hphase, h⟩ := bind_eq_ok.mp h
    obtain ⟨⟨⟩, hid, h⟩ := bind_eq_ok.mp h
    obtain ⟨⟨⟩, hrules, h⟩ := bind_eq_ok.mp h
    obtain ⟨⟨⟩, hfrom, h⟩ := bind_eq_ok.mp h
    obtain ⟨⟨⟩, hevidence, haccountable⟩ := bind_eq_ok.mp h
    rw [raiseIf_eq_ok, not_not] at hkind hphase hid hfrom
    rw [raiseIf_eq_ok, not_or, not_not, not_not] at hrules
    rw [raiseIf_eq_ok] at hevidence haccountable
    push Not at hevidence
    refine ⟨hkind, hphase, hid, hrules.1, hrules.2, hfrom, hevidence, ?_⟩
    intro actor hactor
    by_contra hne
    exact haccountable (by simp [hactor, hne])
  · intro h
    refine bind_eq_ok.mpr ⟨⟨⟩, raiseIf_eq_ok.mpr (not_not.mpr h.kind), ?_⟩
    refine bind_eq_ok.mpr ⟨⟨⟩, raiseIf_eq_ok.mpr (not_not.mpr h.phase), ?_⟩
    refine bind_eq_ok.mpr ⟨⟨⟩, raiseIf_eq_ok.mpr (not_not.mpr h.eventId), ?_⟩
    refine bind_eq_ok.mpr ⟨⟨⟩, raiseIf_eq_ok.mpr (not_or.mpr
      ⟨not_not.mpr h.rulesVersion, not_not.mpr h.rulesDigest⟩), ?_⟩
    refine bind_eq_ok.mpr ⟨⟨⟩, raiseIf_eq_ok.mpr (not_not.mpr h.fromPhase), ?_⟩
    refine bind_eq_ok.mpr ⟨⟨⟩, raiseIf_eq_ok.mpr ?_, raiseIf_eq_ok.mpr ?_⟩
    · rintro ⟨ref, hmem, hnot⟩
      exact hnot (h.evidence ref hmem)
    · intro hany
      cases hactor : evaluation.accountableActor with
      | none => simp [hactor] at hany
      | some actor => simp [hactor, h.accountable actor hactor] at hany

/-- The state behind an evaluation, with the views it applied. -/
def evaluated (s : ProjectState) (event : ProjectEvent) (evaluation : HistoricalGovernanceEvaluation)
    (tasks : Table TaskAuthorityView) (decisions : Table DecisionAuthorityView) : ProjectState :=
  let phase := evaluation.evaluatedPhase.text
  { s with
    tasks, decisions
    historicalGateEvaluations := if evaluation.result = .passed then
      s.historicalGateEvaluations.insert phase event.sequence else s.historicalGateEvaluations
    historicalGateOrigins := if evaluation.result = .passed then
      s.historicalGateOrigins.insert phase evaluation.evaluatedFromPhase.text
      else s.historicalGateOrigins
    historicalApprovedDecisions := if evaluation.result = .passed then
      insertAll evaluation.approvedDecisionIds event.sequence s.historicalApprovedDecisions
      else s.historicalApprovedDecisions
    historicalTaskReceipts := if evaluation.result = .passed then
      insertAll evaluation.verifiedTaskReceipts event.sequence s.historicalTaskReceipts
      else s.historicalTaskReceipts
    historicalEvaluations := s.historicalEvaluations ++ [event.eventId] }

omit [PythonText] in
/-- A passed evaluation is fresh for its gate. -/
theorem freshEvaluation_evaluated {evaluation : HistoricalGovernanceEvaluation}
    (hpassed : evaluation.result = .passed) (hfrom : evaluation.evaluatedFromPhase = s.currentPhase)
    (event : ProjectEvent) (tasks : Table TaskAuthorityView) (decisions : Table DecisionAuthorityView) :
    freshEvaluation ((evaluated s event evaluation tasks decisions).advance event)
      evaluation.evaluatedPhase = true := by
  simp [freshEvaluation, evaluated, ProjectState.advance, hpassed, hfrom]

/-- An evaluation that the reducer accepts, and the tables its views lead to. -/
structure Evaluation (reducer : ProjectStateReducer) (authority : Option AuthorityContext)
    [LaxInt] (s : ProjectState) (event : ProjectEvent)
    (evaluation : HistoricalGovernanceEvaluation) (tasks : Table TaskAuthorityView)
    (decisions : Table DecisionAuthorityView) : Prop where
  historical : historicalIn authority = true
  source : event.source = pseGovernance
  read : HistoricalGovernanceEvaluation.modelValidate event.payload = .ok evaluation
  bound : Bound reducer s event evaluation
  taskViews : applyTaskViews event s.tasks evaluation.taskViews = .ok tasks
  decisionViews : applyDecisionViews event s.decisions evaluation.decisionViews = .ok decisions
  approved : evaluation.result = .passed → ∀ id ∈ evaluation.approvedDecisionIds,
    ∃ view, decisions[id]? = some view ∧ view.status = .approved
  views : evaluation.result = .passed →
    evaluation.evaluatedPhase ∈ [ProjectPhase.execution, .closing, .closed] →
      evaluation.taskViews ≠ []
  receipts : evaluation.result = .passed → ∀ id ∈ evaluation.verifiedTaskReceipts,
    id ∈ evaluation.taskViews.flatMap TaskAuthorityView.receiptIds

omit [PythonText] in
theorem recordPassed_ok {evaluation : HistoricalGovernanceEvaluation} :
    recordPassed s event evaluation = .ok t ↔
      (evaluation.evaluatedPhase ∈ [ProjectPhase.execution, .closing, .closed] →
        evaluation.taskViews ≠ []) ∧
      (∀ id ∈ evaluation.approvedDecisionIds,
        ∃ view, s.decisions[id]? = some view ∧ view.status = .approved) ∧
      (∀ id ∈ evaluation.verifiedTaskReceipts,
        id ∈ evaluation.taskViews.flatMap TaskAuthorityView.receiptIds) ∧
      t = { s with
        historicalGateEvaluations :=
          s.historicalGateEvaluations.insert evaluation.evaluatedPhase.text event.sequence
        historicalGateOrigins :=
          s.historicalGateOrigins.insert evaluation.evaluatedPhase.text evaluation.evaluatedFromPhase.text
        historicalApprovedDecisions :=
          insertAll evaluation.approvedDecisionIds event.sequence s.historicalApprovedDecisions
        historicalTaskReceipts :=
          insertAll evaluation.verifiedTaskReceipts event.sequence s.historicalTaskReceipts } := by
  have happroved : ∀ id : String, (s.decisions[id]?).all (·.status ≠ .approved) = false ↔
      ∃ view, s.decisions[id]? = some view ∧ view.status = .approved := by
    intro id
    cases s.decisions[id]? <;> simp
  unfold recordPassed
  constructor
  · intro h
    obtain ⟨⟨⟩, hviews, h⟩ := bind_eq_ok.mp h
    obtain ⟨⟨⟩, hids, h⟩ := bind_eq_ok.mp h
    obtain ⟨⟨⟩, hreceipts, h⟩ := bind_eq_ok.mp h
    cases h
    rw [raiseIf_eq_ok] at hviews hids hreceipts
    refine ⟨fun hphase hnil => hviews ⟨hphase, hnil⟩, ?_, not_not.mp hreceipts, rfl⟩
    intro id hid
    rw [← happroved]
    by_contra hall
    exact hids ⟨id, hid, by simpa using hall⟩
  · rintro ⟨hviews, hids, hreceipts, rfl⟩
    refine bind_eq_ok.mpr ⟨⟨⟩, raiseIf_eq_ok.mpr fun hboth => hviews hboth.1 hboth.2, ?_⟩
    refine bind_eq_ok.mpr ⟨⟨⟩, raiseIf_eq_ok.mpr ?_, ?_⟩
    · rintro ⟨id, hid, hall⟩
      rw [(happroved id).mpr (hids id hid)] at hall
      cases hall
    · exact bind_eq_ok.mpr ⟨⟨⟩, raiseIf_eq_ok.mpr (not_not.mpr hreceipts), rfl⟩

/-- What a handled evaluation is, and the state it leads to. -/
theorem handleHistoricalEvaluation_ok [LaxInt] :
    handleHistoricalEvaluation self s event authority = .ok t ↔
      ∃ evaluation tasks decisions, Evaluation self authority s event evaluation tasks decisions ∧
        t = evaluated s event evaluation tasks decisions := by
  unfold handleHistoricalEvaluation
  constructor
  · intro h
    obtain ⟨⟨⟩, hhistorical, h⟩ := bind_eq_ok.mp h
    obtain ⟨⟨⟩, hsource, h⟩ := bind_eq_ok.mp h
    rw [raiseIf_eq_ok, Bool.not_eq_false] at hhistorical
    rw [raiseIf_eq_ok, not_not] at hsource
    split at h
    · cases h
    · rename_i evaluation hread
      obtain ⟨⟨⟩, hbound, h⟩ := bind_eq_ok.mp h
      obtain ⟨tasks, htasks, h⟩ := bind_eq_ok.mp h
      obtain ⟨decisions, hdecisions, h⟩ := bind_eq_ok.mp h
      refine ⟨evaluation, tasks, decisions, ?_⟩
      by_cases hpassed : evaluation.result = .passed
      · rw [if_pos hpassed] at h
        obtain ⟨mid, hmid, h⟩ := bind_eq_ok.mp h
        obtain ⟨hviews, hids, hreceipts, rfl⟩ := recordPassed_ok.mp hmid
        cases h
        exact ⟨⟨hhistorical, hsource, hread, checkEvaluation_ok.mp hbound, htasks, hdecisions,
          fun _ => hids, fun _ => hviews, fun _ => hreceipts⟩, by simp [evaluated, hpassed]⟩
      · rw [if_neg hpassed] at h
        obtain ⟨mid, hmid, h⟩ := bind_eq_ok.mp h
        cases hmid
        cases h
        exact ⟨⟨hhistorical, hsource, hread, checkEvaluation_ok.mp hbound, htasks, hdecisions,
          fun hp => absurd hp hpassed, fun hp => absurd hp hpassed, fun hp => absurd hp hpassed⟩,
          by simp [evaluated, hpassed]⟩
  · rintro ⟨evaluation, tasks, decisions, h, rfl⟩
    refine bind_eq_ok.mpr ⟨⟨⟩, raiseIf_eq_ok.mpr (by simp [h.historical]), ?_⟩
    refine bind_eq_ok.mpr ⟨⟨⟩, raiseIf_eq_ok.mpr (not_not.mpr h.source), ?_⟩
    simp only [h.read]
    refine bind_eq_ok.mpr ⟨⟨⟩, checkEvaluation_ok.mpr h.bound, ?_⟩
    refine bind_eq_ok.mpr ⟨tasks, h.taskViews, bind_eq_ok.mpr ⟨decisions, h.decisionViews, ?_⟩⟩
    by_cases hpassed : evaluation.result = .passed
    · rw [if_pos hpassed]
      refine bind_eq_ok.mpr ⟨_, recordPassed_ok.mpr
        ⟨h.views hpassed, h.approved hpassed, h.receipts hpassed, rfl⟩, ?_⟩
      simp [evaluated, hpassed, pure, Except.pure]
    · rw [if_neg hpassed]
      refine bind_eq_ok.mpr ⟨_, rfl, ?_⟩
      simp [evaluated, hpassed, pure, Except.pure]

/-! ## Dispatch -/

theorem handleRaciAssigned_eq (s : ProjectState) (event : ProjectEvent) :
    ∃ raci, handleRaciAssigned s event = { s with raci } := by
  unfold handleRaciAssigned
  split
  · exact ⟨_, rfl⟩
  · exact ⟨s.raci, rfl⟩

theorem handleRaciRevoked_eq (s : ProjectState) (event : ProjectEvent) :
    ∃ raci, handleRaciRevoked s event = { s with raci } := by
  unfold handleRaciRevoked
  split
  · exact ⟨s.raci, rfl⟩
  · exact ⟨_, rfl⟩

/-- An override that took effect was admitted by the governance engine. -/
theorem handleGateOverride_ok (h : handleGateOverride s event authority = .ok t) :
    t = s ∨ ∃ evaluation, evaluateGateOverride event (effectiveAuthority s authority) = .ok evaluation ∧
      evaluation.decision = .allow ∧
      t = { s with overriddenGates := s.overriddenGates ++ [pyStr (overrideGate event)] } := by
  unfold handleGateOverride at h
  obtain ⟨⟨⟩, -, h⟩ := bind_eq_ok.mp h
  obtain ⟨evaluation, hevaluation, h⟩ := bind_eq_ok.mp h
  cases h
  split_ifs with hallow
  · exact Or.inr ⟨evaluation, hevaluation, hallow.1, rfl⟩
  · exact Or.inl rfl

variable [LaxInt]

/-- `project.phase.changed` and `project.reopened` -/
def isTransition (event : ProjectEvent) : Bool :=
  event.eventType = .projectPhaseChanged ∨ event.eventType = .projectReopened

/-- The parts of the state that an event wrote, by its type. -/
inductive Dispatched (self : ProjectStateReducer) (authority : Option AuthorityContext)
    (s : ProjectState) (event : ProjectEvent) : ProjectState → Prop
  | created (owner : Option String) (htype : event.eventType = .projectCreated) :
      Dispatched self authority s event { s with currentPhase := .discovery, owner }
  | owner (owner : Option String) (htype : event.eventType = .projectUpdated) :
      Dispatched self authority s event { s with owner }
  | transition (spec : TransitionSpec) (record : PhaseTransitionRecord)
      (htype : isTransition event = true)
      (hallowed : Allowed s spec event (effectiveAuthority s authority))
      (hfresh : historicalIn authority = true → spec.requiredGate.isSome = true →
        freshEvaluation s spec.toPhase = true)
      (hrecord : transitionRecord spec event = .ok record) :
      Dispatched self authority s event (transitioned authority s spec record)
  | overridden (evaluation : GovernanceEvaluation) (htype : event.eventType = .gateOverridden)
      (hevaluation : evaluateGateOverride event (effectiveAuthority s authority) = .ok evaluation)
      (hallow : evaluation.decision = .allow) :
      Dispatched self authority s event
        { s with overriddenGates := s.overriddenGates ++ [pyStr (overrideGate event)] }
  | raci (raci : Table (List String))
      (htype : event.eventType = .raciAssigned ∨ event.eventType = .raciRevoked) :
      Dispatched self authority s event { s with raci }
  | evidence (attachedEvidence : List String) (evidenceKinds : Table String)
      (htype : event.eventType = .evidenceAttached ∨ event.eventType = .artifactCreated ∨
        event.eventType = .artifactUpdated) :
      Dispatched self authority s event { s with attachedEvidence, evidenceKinds }
  | evaluation (evaluation : HistoricalGovernanceEvaluation) (tasks : Table TaskAuthorityView)
      (decisions : Table DecisionAuthorityView)
      (htype : event.eventType = .dorEvaluated ∨ event.eventType = .dodEvaluated)
      (hevaluation : Evaluation self authority s event evaluation tasks decisions) :
      Dispatched self authority s event (evaluated s event evaluation tasks decisions)
  | tasks (tasks : Table TaskAuthorityView)
      (htype : event.eventType = .taskAssociated ∨ event.eventType = .taskDisassociated) :
      Dispatched self authority s event { s with tasks }
  | associated (decisions : Table DecisionAuthorityView)
      (htype : event.eventType = .decisionAssociated)
      (hdecisions : handleDecisionAssociated s.decisions event = .ok decisions) :
      Dispatched self authority s event { s with decisions }
  | disassociated (decisions : Table DecisionAuthorityView)
      (historicalApprovedDecisions : Table Nat)
      (htype : event.eventType = .decisionDisassociated)
      (hdecisions : popId (getItem event.payload "decision_id") s.decisions = .ok decisions)
      (happroved : popId (getItem event.payload "decision_id") s.historicalApprovedDecisions =
        .ok historicalApprovedDecisions) :
      Dispatched self authority s event { s with decisions, historicalApprovedDecisions }
  | observed (markers : List String) (htype : event.eventType.observation = true)
      (hauthority : authority ≠ none) (hmarkers : ∀ flag ∈ markers, isDriftFlag flag = true) :
      Dispatched self authority s event { s with healthFlags := s.healthFlags ++ markers }
  | observedTask (tasks : Table TaskAuthorityView)
      (htype : event.eventType = .taskLifecycleObserved) (hauthority : authority = none) :
      Dispatched self authority s event { s with tasks }
  | observedDecision (decisions : Table DecisionAuthorityView)
      (htype : event.eventType = .decisionLifecycleObserved) (hauthority : authority = none) :
      Dispatched self authority s event { s with decisions }
  | risks (risks : Register riskFields)
      (hrisks : (event.eventType = .riskOpened ∧ handleRiskOpened s event = .ok risks) ∨
        (event.eventType = .riskUpdated ∧ handleRiskUpdated s event = .ok risks) ∨
        (event.eventType = .riskClosed ∧ handleRiskClosed s event = .ok risks)) :
      Dispatched self authority s event { s with risks }
  | assumptions (assumptions : Register assumptionFields)
      (hassumptions :
        (event.eventType = .assumptionCreated ∧ handleAssumptionCreated s event = .ok assumptions) ∨
        ((event.eventType = .assumptionUpdated ∨ event.eventType = .assumptionConfirmed) ∧
          handleAssumptionUpdated s event = .ok assumptions) ∨
        (event.eventType = .assumptionInvalidated ∧
          handleAssumptionInvalidated s event = .ok assumptions)) :
      Dispatched self authority s event { s with assumptions }
  | issues (issues : Register issueFields)
      (hissues : (event.eventType = .issueOpened ∧ handleIssueOpened s event = .ok issues) ∨
        (event.eventType = .issueUpdated ∧ handleIssueUpdated s event = .ok issues) ∨
        ((event.eventType = .issueResolved ∨ event.eventType = .issueClosed) ∧
          handleIssueClosed s event = .ok issues)) :
      Dispatched self authority s event { s with issues }
  | dependencies (dependencies : Register dependencyFields)
      (hdependencies :
        (event.eventType = .dependencyCreated ∧ handleDependencyCreated s event = .ok dependencies) ∨
        (event.eventType = .dependencyUpdated ∧ handleDependencyUpdated s event = .ok dependencies) ∨
        (event.eventType = .dependencyResolved ∧
          handleDependencyResolved s event = .ok dependencies)) :
      Dispatched self authority s event { s with dependencies }
  | inert (htype : isTransition event = false) (hcreated : event.eventType ≠ .projectCreated) :
      Dispatched self authority s event s

omit [PythonText] [LaxInt] in
/-- A drift marker is appended with its companion, or nothing is. -/
theorem markDrift_eq (marker companion : String) (hmarker : isDriftFlag marker = true)
    (hcompanion : isDriftFlag companion = true) (stored : Option String) (observed : Value)
    (flags : List String) : ∃ markers, markDrift marker companion stored observed flags =
      flags ++ markers ∧ ∀ flag ∈ markers, isDriftFlag flag = true := by
  unfold markDrift
  split_ifs
  · exact ⟨[marker, companion], rfl, by simp [hmarker, hcompanion]⟩
  · exact ⟨[], (List.append_nil flags).symm, by simp⟩

theorem handleTaskObserved_ok (htype : event.eventType = .taskLifecycleObserved)
    (h : handleTaskObserved s event authority = .ok t) : Dispatched self authority s event t := by
  unfold handleTaskObserved at h
  dsimp only at h
  split_ifs at h
  · cases authority with
    | some authority =>
        obtain ⟨key, -, h⟩ := bind_eq_ok.mp h
        obtain ⟨markers, hmarkers, hdrift⟩ := markDrift_eq
          "STALE_TASK_OBSERVATION" "TASK_AUTHORITY_DRIFT" (by decide) (by decide) _ _ s.healthFlags
        rw [hmarkers] at h
        cases h
        exact .observed markers (by rw [htype]; rfl) (by simp) hdrift
    | none =>
        obtain ⟨view, -, h⟩ := bind_eq_ok.mp h
        cases h
        exact .observedTask _ htype rfl
  · cases h
    exact .inert (by simp [isTransition, htype]) (by simp [htype])

theorem handleDecisionObserved_ok (htype : event.eventType = .decisionLifecycleObserved)
    (h : handleDecisionObserved s event authority = .ok t) :
    Dispatched self authority s event t := by
  unfold handleDecisionObserved at h
  dsimp only at h
  split_ifs at h
  · cases authority with
    | some authority =>
        obtain ⟨key, -, h⟩ := bind_eq_ok.mp h
        obtain ⟨markers, hmarkers, hdrift⟩ := markDrift_eq
          "STALE_DECISION_OBSERVATION" "DECISION_AUTHORITY_DRIFT" (by decide) (by decide) _ _ s.healthFlags
        rw [hmarkers] at h
        cases h
        exact .observed markers (by rw [htype]; rfl) (by simp) hdrift
    | none =>
        obtain ⟨view, -, h⟩ := bind_eq_ok.mp h
        cases h
        exact .observedDecision _ htype rfl
  · cases h
    exact .inert (by simp [isTransition, htype]) (by simp [htype])

theorem dispatchEvent_ok (h : dispatchEvent self s event authority = .ok t) :
    Dispatched self authority s event t := by
  unfold dispatchEvent at h
  split at h <;> rename_i htype
  · obtain ⟨owner, howner⟩ := handleProjectOwner_eq { s with currentPhase := .discovery } event
    rw [howner] at h
    cases h
    exact .created owner htype
  · obtain ⟨owner, howner⟩ := handleProjectOwner_eq s event
    rw [howner] at h
    cases h
    exact .owner owner htype
  · obtain ⟨spec, record, hallowed, hfresh, hrecord, rfl⟩ := handlePhaseTransition_ok h
    exact .transition spec record (by simp [isTransition, htype]) hallowed hfresh hrecord
  · obtain ⟨spec, record, hallowed, hfresh, hrecord, rfl⟩ := handlePhaseTransition_ok h
    exact .transition spec record (by simp [isTransition, htype]) hallowed hfresh hrecord
  · rcases handleGateOverride_ok h with rfl | ⟨evaluation, hevaluation, hallow, rfl⟩
    · exact .inert (by simp [isTransition, htype]) (by simp [htype])
    · exact .overridden evaluation htype hevaluation hallow
  · obtain ⟨raci, hraci⟩ := handleRaciAssigned_eq s event
    rw [hraci] at h
    cases h
    exact .raci raci (Or.inl htype)
  · obtain ⟨raci, hraci⟩ := handleRaciRevoked_eq s event
    rw [hraci] at h
    cases h
    exact .raci raci (Or.inr htype)
  · cases h
    exact .evidence _ _ (Or.inl htype)
  · cases h
    exact .evidence _ _ (Or.inr (Or.inl htype))
  · cases h
    exact .evidence _ _ (Or.inr (Or.inr htype))
  · obtain ⟨evaluation, tasks, decisions, hevaluation, rfl⟩ := handleHistoricalEvaluation_ok.mp h
    exact .evaluation evaluation tasks decisions (Or.inl htype) hevaluation
  · obtain ⟨evaluation, tasks, decisions, hevaluation, rfl⟩ := handleHistoricalEvaluation_ok.mp h
    exact .evaluation evaluation tasks decisions (Or.inr htype) hevaluation
  · obtain ⟨tasks, -, h⟩ := bind_eq_ok.mp h
    cases h
    exact .tasks tasks (Or.inl htype)
  · obtain ⟨tasks, -, h⟩ := bind_eq_ok.mp h
    cases h
    exact .tasks tasks (Or.inr htype)
  · exact handleTaskObserved_ok htype h
  · obtain ⟨decisions, hdecisions, h⟩ := bind_eq_ok.mp h
    cases h
    exact .associated decisions htype hdecisions
  · obtain ⟨decisions, hdecisions, h⟩ := bind_eq_ok.mp h
    obtain ⟨approved, happroved, h⟩ := bind_eq_ok.mp h
    cases h
    exact .disassociated decisions approved htype hdecisions happroved
  · exact handleDecisionObserved_ok htype h
  · obtain ⟨risks, hrisks, h⟩ := bind_eq_ok.mp h
    cases h
    exact .risks risks (Or.inl ⟨htype, hrisks⟩)
  · obtain ⟨risks, hrisks, h⟩ := bind_eq_ok.mp h
    cases h
    exact .risks risks (Or.inr (Or.inl ⟨htype, hrisks⟩))
  · obtain ⟨risks, hrisks, h⟩ := bind_eq_ok.mp h
    cases h
    exact .risks risks (Or.inr (Or.inr ⟨htype, hrisks⟩))
  · obtain ⟨assumptions, hassumptions, h⟩ := bind_eq_ok.mp h
    cases h
    exact .assumptions assumptions (Or.inl ⟨htype, hassumptions⟩)
  · obtain ⟨assumptions, hassumptions, h⟩ := bind_eq_ok.mp h
    cases h
    exact .assumptions assumptions (Or.inr (Or.inl ⟨Or.inl htype, hassumptions⟩))
  · obtain ⟨assumptions, hassumptions, h⟩ := bind_eq_ok.mp h
    cases h
    exact .assumptions assumptions (Or.inr (Or.inl ⟨Or.inr htype, hassumptions⟩))
  · obtain ⟨assumptions, hassumptions, h⟩ := bind_eq_ok.mp h
    cases h
    exact .assumptions assumptions (Or.inr (Or.inr ⟨htype, hassumptions⟩))
  · obtain ⟨issues, hissues, h⟩ := bind_eq_ok.mp h
    cases h
    exact .issues issues (Or.inl ⟨htype, hissues⟩)
  · obtain ⟨issues, hissues, h⟩ := bind_eq_ok.mp h
    cases h
    exact .issues issues (Or.inr (Or.inl ⟨htype, hissues⟩))
  · obtain ⟨issues, hissues, h⟩ := bind_eq_ok.mp h
    cases h
    exact .issues issues (Or.inr (Or.inr ⟨Or.inl htype, hissues⟩))
  · obtain ⟨issues, hissues, h⟩ := bind_eq_ok.mp h
    cases h
    exact .issues issues (Or.inr (Or.inr ⟨Or.inr htype, hissues⟩))
  · obtain ⟨dependencies, hdependencies, h⟩ := bind_eq_ok.mp h
    cases h
    exact .dependencies dependencies (Or.inl ⟨htype, hdependencies⟩)
  · obtain ⟨dependencies, hdependencies, h⟩ := bind_eq_ok.mp h
    cases h
    exact .dependencies dependencies (Or.inr (Or.inl ⟨htype, hdependencies⟩))
  · obtain ⟨dependencies, hdependencies, h⟩ := bind_eq_ok.mp h
    cases h
    exact .dependencies dependencies (Or.inr (Or.inr ⟨htype, hdependencies⟩))
  all_goals
    cases h
    exact .inert (by simp [isTransition, htype]) (by simp [htype])

/-- What an accepted event is, and the state it leads to. -/
theorem applyEvent_dispatched (h : applyEvent self authority s event = .ok t) :
    ∃ mid, Linked s event ∧ Admissible authority event ∧
      Dispatched self authority s event mid ∧ t = mid.advance event := by
  obtain ⟨mid, hlinked, hadmissible, hdispatch, ht⟩ := applyEvent_ok.mp h
  exact ⟨mid, hlinked, hadmissible, dispatchEvent_ok hdispatch, ht⟩

/-- No handler writes the identity of the state or its lineage. -/
theorem Dispatched.kept (h : Dispatched self authority s event t) :
    t.projectId = s.projectId ∧ t.rulesVersion = s.rulesVersion ∧ t.rulesDigest = s.rulesDigest ∧
      t.lastEventSequence = s.lastEventSequence ∧ t.lastEventHash = s.lastEventHash ∧
      t.contributingEvents = s.contributingEvents := by
  cases h <;> exact ⟨rfl, rfl, rfl, rfl, rfl, rfl⟩

theorem applyEvent_kept (h : applyEvent self authority s event = .ok t) :
    t.projectId = s.projectId ∧ t.rulesVersion = s.rulesVersion ∧ t.rulesDigest = s.rulesDigest := by
  obtain ⟨mid, -, -, hdispatched, rfl⟩ := applyEvent_dispatched h
  obtain ⟨hproject, hversion, hdigest, -⟩ := hdispatched.kept
  exact ⟨hproject, hversion, hdigest⟩

/-- `s` is the state behind the events of a project. -/
def Reached (self : ProjectStateReducer) (authority : Option AuthorityContext) (projectId : String)
    (events : List ProjectEvent) (s : ProjectState) : Prop :=
  applyEvents self authority (.initial projectId self.rulesVersion) events = .ok s

variable {projectId : String} {events : List ProjectEvent}

theorem reached_nil : Reached self authority projectId [] (.initial projectId self.rulesVersion) :=
  rfl

theorem reached_concat :
    Reached self authority projectId (events ++ [event]) t ↔
      ∃ s, Reached self authority projectId events s ∧ applyEvent self authority s event = .ok t :=
  foldlM_concat_eq_ok

/-- What holds of the new state and survives every accepted event holds behind any events. -/
theorem Reached.induction {P : List ProjectEvent → ProjectState → Prop}
    (hnil : P [] (.initial projectId self.rulesVersion))
    (hstep : ∀ before s event mid, Reached self authority projectId before s → P before s →
      Linked s event → Admissible authority event → Dispatched self authority s event mid →
      P (before ++ [event]) (mid.advance event))
    (h : Reached self authority projectId events s) : P events s := by
  refine foldlM_history hnil ?_ h
  intro before s event t hreached hP ht
  obtain ⟨mid, hlinked, hadmissible, hdispatched, rfl⟩ := applyEvent_dispatched ht
  exact hstep before s event mid hreached hP hlinked hadmissible hdispatched

theorem Reached.kept (h : Reached self authority projectId events s) :
    s.projectId = projectId ∧ s.rulesVersion = self.rulesVersion ∧ s.rulesDigest = rulesDigest := by
  refine Reached.induction (P := fun _ s => s.projectId = projectId ∧
    s.rulesVersion = self.rulesVersion ∧ s.rulesDigest = rulesDigest) ⟨rfl, rfl, rfl⟩ ?_ h
  intro before s event mid _ hkept _ _ hdispatched
  obtain ⟨hproject, hversion, hdigest, -⟩ := hdispatched.kept
  exact ⟨hproject.trans hkept.1, hversion.trans hkept.2.1, hdigest.trans hkept.2.2⟩

/-- The lineage of a state is that of the events it was reached by. -/
theorem Reached.lineage (h : Reached self authority projectId events s) :
    s.lastEventSequence = events.length ∧
      events.map ProjectEvent.sequence = List.range' 1 events.length ∧
      s.contributingEvents = events.map ProjectEvent.eventId := by
  refine Reached.induction (P := fun events s => s.lastEventSequence = events.length ∧
    events.map ProjectEvent.sequence = List.range' 1 events.length ∧
    s.contributingEvents = events.map ProjectEvent.eventId) ⟨rfl, rfl, rfl⟩ ?_ h
  intro before s event mid _ hlineage hlinked _ hdispatched
  obtain ⟨hlast, hsequences, hids⟩ := hlineage
  obtain ⟨-, -, -, -, -, hcontributing⟩ := hdispatched.kept
  have hsequence := hlinked.sequence
  refine ⟨?_, ?_, ?_⟩
  · rw [List.length_append, List.length_singleton]
    change event.sequence = _
    omega
  · rw [List.map_append, List.map_singleton, hsequences, List.length_append,
      List.length_singleton, List.range'_concat, hsequence, hlast]
    simp [Nat.add_comm]
  · change mid.contributingEvents ++ [event.eventId] = _
    rw [hcontributing, hids, List.map_append, List.map_singleton]

end

end PowerFramework.State
