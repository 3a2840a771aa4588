import PowerFramework.State.Lifecycle
/-!
# Gated transitions

An entry of the gate map that carries the last sequence number was written by the last event.
Every recorded transition through a gate therefore comes right behind its own passed evaluation.
-/

namespace PowerFramework.State

open Lib Lib.Failure Lib.Json Lib.Run Ledger

variable {self : ProjectStateReducer} {authority : Option AuthorityContext}
  {s t : ProjectState} {event : ProjectEvent}

section
variable [PythonText] [LaxInt]

/-- A passed evaluation by the governed writer, between two phases and under the current rules. -/
structure PassedGate (event : ProjectEvent) (fromPhase toPhase : ProjectPhase) : Prop where
  source : event.source = pseGovernance
  kind : (event.eventType = .dorEvaluated ∧ toPhase ∈ dorPhases) ∨
    (event.eventType = .dodEvaluated ∧ toPhase ∈ dodPhases)
  evaluation : ∃ evaluation, HistoricalGovernanceEvaluation.modelValidate event.payload = .ok evaluation ∧
    evaluation.result = .passed ∧ evaluation.evaluatedFromPhase = fromPhase ∧
    evaluation.evaluatedPhase = toPhase ∧ evaluation.rulesDigest = rulesDigest

/-- Every entry of the gate map is of a past event, and of a passed evaluation when it is of the
last one. -/
def GatesFresh (events : List ProjectEvent) (s : ProjectState) : Prop :=
  ∀ (phase : String) (n : Nat), s.historicalGateEvaluations[phase]? = some n →
    n ≤ s.lastEventSequence ∧ (n = s.lastEventSequence → ∃ before event fromPhase toPhase,
      events = before ++ [event] ∧ event.sequence = n ∧ toPhase.text = phase ∧
        s.historicalGateOrigins[phase]? = some fromPhase.text ∧ PassedGate event fromPhase toPhase)

theorem Evaluation.passedGate {evaluation : HistoricalGovernanceEvaluation}
    {tasks : Table TaskAuthorityView} {decisions : Table DecisionAuthorityView}
    (h : Evaluation self authority s event evaluation tasks decisions)
    (htype : event.eventType = .dorEvaluated ∨ event.eventType = .dodEvaluated)
    (hpassed : evaluation.result = .passed) :
    PassedGate event evaluation.evaluatedFromPhase evaluation.evaluatedPhase := by
  refine ⟨h.source, ?_, evaluation, h.read, hpassed, rfl, rfl, h.bound.rulesDigest⟩
  have hphase := h.bound.phase
  rcases htype with hdor | hdod
  · rw [if_pos hdor] at hphase
    exact Or.inl ⟨hdor, hphase⟩
  · rw [if_neg (by simp [hdod])] at hphase
    exact Or.inr ⟨hdod, hphase⟩

/-- Only an evaluation adds to the gate map. -/
theorem Dispatched.gates (h : Dispatched self authority s event t) :
    (∃ evaluation tasks decisions,
      (event.eventType = .dorEvaluated ∨ event.eventType = .dodEvaluated) ∧
        Evaluation self authority s event evaluation tasks decisions ∧
        t = evaluated s event evaluation tasks decisions) ∨
    ∀ (phase : String) (n : Nat), t.historicalGateEvaluations[phase]? = some n →
      s.historicalGateEvaluations[phase]? = some n := by
  cases h with
  | transition spec record _ _ _ _ =>
      right
      intro phase n hentry
      simp only [transitioned] at hentry
      split_ifs at hentry
      · rw [Std.ExtTreeMap.getElem?_erase] at hentry
        split_ifs at hentry
        exact hentry
      · exact hentry
  | evaluation evaluation tasks decisions htype hevaluation =>
      exact Or.inl ⟨evaluation, tasks, decisions, htype, hevaluation, rfl⟩
  | _ => exact Or.inr fun _ _ hentry => hentry

theorem Reached.gatesFresh {projectId : String} {events : List ProjectEvent}
    (h : Reached self authority projectId events s) : GatesFresh events s := by
  refine Reached.induction (P := GatesFresh) ?_ ?_ h
  · intro phase n hentry
    simp [ProjectState.initial] at hentry
  · intro before s event mid _ hfresh hlinked _ hdispatched phase n hentry
    have hsequence := hlinked.sequence
    change n ≤ event.sequence ∧ (n = event.sequence → _)
    have hpast : s.historicalGateEvaluations[phase]? = some n →
        n ≤ event.sequence ∧ n ≠ event.sequence := by
      intro hold
      have hle := (hfresh phase n hold).1
      omega
    rcases hdispatched.gates with ⟨evaluation, tasks, decisions, htype, hevaluation, rfl⟩ | hsame
    · change (if evaluation.result = .passed then _ else _ : Table Nat)[phase]? = _ at hentry
      by_cases hpassed : evaluation.result = .passed
      · rw [if_pos hpassed, Std.ExtTreeMap.getElem?_insert] at hentry
        split_ifs at hentry with hphase
        · cases hentry
          rw [Std.compare_eq_iff_eq] at hphase
          refine ⟨le_rfl, fun _ => ⟨before, event, evaluation.evaluatedFromPhase,
            evaluation.evaluatedPhase, rfl, rfl, hphase, ?_, hevaluation.passedGate htype hpassed⟩⟩
          change (if evaluation.result = .passed then _ else _ : Table String)[phase]? = _
          rw [if_pos hpassed, Std.ExtTreeMap.getElem?_insert, if_pos (by simp [hphase])]
        · obtain ⟨hle, hne⟩ := hpast hentry
          exact ⟨hle, fun heq => absurd heq hne⟩
      · rw [if_neg hpassed] at hentry
        obtain ⟨hle, hne⟩ := hpast hentry
        exact ⟨hle, fun heq => absurd heq hne⟩
    · obtain ⟨hle, hne⟩ := hpast (hsame phase n hentry)
      exact ⟨hle, fun heq => absurd heq hne⟩

/-! ## Recorded transitions -/

/-- The `k`-th transition of the stream, which made this record, comes right behind a passed
evaluation of its gate at sequence `n`. -/
def JustifiedBy (events : List ProjectEvent) (k : Nat) (record : PhaseTransitionRecord)
    (gate : Gate) (n : Nat) : Prop :=
  ∃ before evaluation event after, events = before ++ evaluation :: event :: after ∧
    (before.filter isTransition).length = k ∧ isTransition event = true ∧
    event.eventId = record.eventId ∧ event.sequence = n + 1 ∧ evaluation.sequence = n ∧
    (evaluation.eventType = if gate.isDor then .dorEvaluated else .dodEvaluated) ∧
    PassedGate evaluation record.fromPhase record.toPhase

omit [PythonText] in
theorem JustifiedBy.append {events : List ProjectEvent} {k n : Nat} {record : PhaseTransitionRecord}
    {gate : Gate} (h : JustifiedBy events k record gate n) (more : List ProjectEvent) :
    JustifiedBy (events ++ more) k record gate n := by
  obtain ⟨before, evaluation, event, after, rfl, hrest⟩ := h
  exact ⟨before, evaluation, event, after ++ more, by simp, hrest⟩

omit [PythonText] in
/-- A fresh gate was evaluated by the last event, for the transition that it is fresh for. -/
theorem justifiedBy_of_fresh {before : List ProjectEvent} (hfresh : GatesFresh before s)
    (hlinked : Linked s event) (htype : isTransition event = true) {spec : TransitionSpec}
    (hlegal : legalTransition? s.currentPhase spec.toPhase = some spec) {gate : Gate}
    (hgate : spec.requiredGate = some gate) (hevaluated : freshEvaluation s spec.toPhase = true)
    {record : PhaseTransitionRecord} (hrecord : transitionRecord spec event = .ok record) :
    JustifiedBy (before ++ [event]) (before.filter isTransition).length record gate
      s.lastEventSequence := by
  simp only [freshEvaluation, Bool.and_eq_true, decide_eq_true_eq] at hevaluated
  obtain ⟨hmem, hsource, -⟩ := legalTransition?_some hlegal
  obtain ⟨hfrom, hto, hid, -⟩ := transitionRecord_ok hrecord
  obtain ⟨-, hlast⟩ := hfresh _ _ hevaluated.1
  obtain ⟨earlier, evaluation, fromPhase, toPhase, rfl, hsequence, htarget, horigin, hpassed⟩ :=
    hlast rfl
  have htarget' : toPhase = spec.toPhase := ProjectPhase.text_injective htarget
  have hsource' : fromPhase = spec.fromPhase := by
    rw [hevaluated.2, Option.some.injEq] at horigin
    rw [hsource]
    exact (ProjectPhase.text_injective horigin).symm
  subst htarget' hsource'
  obtain ⟨hdor, hdod⟩ := isDor_of_legalTransition hmem hgate
  have hkind : evaluation.eventType = if gate.isDor then .dorEvaluated else .dodEvaluated := by
    rcases hpassed.kind with ⟨heq, hphase⟩ | ⟨heq, hphase⟩
    · rw [hdor.mpr hphase, if_pos rfl, heq]
    · rw [hdod.mpr hphase, if_neg (by simp), heq]
  have hother : isTransition evaluation = false := by
    rw [isTransition, hkind]
    cases gate.isDor <;> rfl
  refine ⟨earlier, evaluation, event, [], by simp, ?_, htype, hid.symm, ?_, hsequence, hkind, ?_⟩
  · simp [hother]
  · exact hlinked.sequence
  · rw [hfrom, hto]
    exact hpassed

/-- The recorded transitions are those of the stream, and the gated ones were evaluated. -/
theorem Reached.justified (hhistorical : historicalIn authority = true) {projectId : String}
    {events : List ProjectEvent} (h : Reached self authority projectId events s) :
    s.phaseHistory.length = (events.filter isTransition).length ∧
      ∀ (k : Nat) (record : PhaseTransitionRecord) (spec : TransitionSpec) (gate : Gate),
        s.phaseHistory[k]? = some record →
        legalTransition? record.fromPhase record.toPhase = some spec →
        spec.requiredGate = some gate → ∃ n, JustifiedBy events k record gate n := by
  refine Reached.induction (P := fun events s =>
    s.phaseHistory.length = (events.filter isTransition).length ∧
      ∀ (k : Nat) (record : PhaseTransitionRecord) (spec : TransitionSpec) (gate : Gate),
        s.phaseHistory[k]? = some record →
        legalTransition? record.fromPhase record.toPhase = some spec →
        spec.requiredGate = some gate → ∃ n, JustifiedBy events k record gate n) ?_ ?_ h
  · exact ⟨rfl, by simp [ProjectState.initial]⟩
  · rintro before s event mid hreached ⟨hlength, hall⟩ hlinked - hdispatched
    have hkeep : ∀ (k : Nat) (record : PhaseTransitionRecord) (spec : TransitionSpec) (gate : Gate),
        s.phaseHistory[k]? = some record →
        legalTransition? record.fromPhase record.toPhase = some spec →
        spec.requiredGate = some gate → ∃ n, JustifiedBy (before ++ [event]) k record gate n := by
      intro k record spec gate hk hlegal hgate
      obtain ⟨n, hn⟩ := hall k record spec gate hk hlegal hgate
      exact ⟨n, hn.append [event]⟩
    have hother : isTransition event = false →
        s.phaseHistory.length = ((before ++ [event]).filter isTransition).length := by
      intro htype
      simp [htype, hlength]
    cases hdispatched with
    | transition spec record htype hallowed hfresh hrecord =>
        obtain ⟨hfrom, hto, -, -⟩ := transitionRecord_ok hrecord
        refine ⟨by simp [transitioned, ProjectState.advance, htype, hlength], ?_⟩
        intro k other spec' gate hk hlegal hgate
        change (s.phaseHistory ++ [record])[k]? = some other at hk
        rcases Nat.lt_or_ge k s.phaseHistory.length with hlt | hge
        · rw [List.getElem?_append_left hlt] at hk
          exact hkeep k other spec' gate hk hlegal hgate
        · rw [List.getElem?_append_right hge, List.getElem?_singleton] at hk
          split_ifs at hk with hzero
          cases hk
          have hk : k = (before.filter isTransition).length := by omega
          have hsame : spec' = spec := by
            rw [hfrom, hto, (legalTransition?_some hallowed.legal).2.1, hallowed.legal] at hlegal
            exact (Option.some.inj hlegal).symm
          subst hk hsame
          exact ⟨_, justifiedBy_of_fresh hreached.gatesFresh hlinked htype hallowed.legal hgate
            (hfresh hhistorical (by simp [hgate])) hrecord⟩
    | inert htype _ => exact ⟨hother htype, hkeep⟩
    | _ =>
        refine ⟨hother ?_, hkeep⟩
        simp only [isTransition, decide_eq_false_iff_not]
        rintro (htype | htype) <;> simp_all [EventType.observation]

/-- Every recorded transition through a gate comes right behind its own passed evaluation, of the
gate's kind, between its phases and under the current rules; no evaluation justifies two. -/
theorem gated_transition_evaluated {events : List ProjectEvent} {tasks : List TaskAuthorityView}
    {decisions : List DecisionAuthorityView} {projectId : Option String}
    (hhistorical : historicalIn authority = true)
    (h : reduceInternal self events none tasks decisions projectId authority = .ok t) :
    (∀ (k : Nat) (record : PhaseTransitionRecord) (spec : TransitionSpec) (gate : Gate),
      t.phaseHistory[k]? = some record →
      legalTransition? record.fromPhase record.toPhase = some spec →
      spec.requiredGate = some gate → ∃ n, JustifiedBy events k record gate n) ∧
    ∀ (j k n : Nat) (a b : PhaseTransitionRecord) (gate gate' : Gate),
      JustifiedBy events j a gate n → JustifiedBy events k b gate' n → j = k := by
  obtain ⟨final, -, hreached, hprojected⟩ := reduceInternal_historical hhistorical h
  obtain ⟨-, revision, -, rfl⟩ := computeProjections_ok.mp hprojected
  refine ⟨(hreached.justified hhistorical).2, ?_⟩
  -- the sequence of an evaluation is its place in the stream
  have hplace : ∀ before evaluation rest, events = before ++ evaluation :: rest →
      evaluation.sequence = before.length + 1 := by
    rintro before evaluation rest hsplit
    have hsequences := hreached.lineage.2.1
    have hget := congrArg (fun xs => xs[before.length]?) hsequences
    simp only [hsplit, List.map_append, List.map_cons] at hget
    rw [List.getElem?_append_right (by simp), List.getElem?_range'] at hget
    · simpa [Nat.add_comm] using hget
    · simp
  rintro j k n a b gate gate' ⟨before, evaluation, event, after, hsplit, rfl, -, -, -, rfl, -, -⟩
    ⟨before', evaluation', event', after', hsplit', rfl, -, -, -, hsequence, -, -⟩
  have hlength : before.length = before'.length := by
    have hone := hplace before evaluation _ hsplit
    have htwo := hplace before' evaluation' _ hsplit'
    omega
  obtain ⟨rfl, -⟩ := List.append_inj (hsplit.symm.trans hsplit') hlength
  rfl

end

section

attribute [local instance] PythonText.ascii LaxInt.intOnly

/-- The theorem on a stream that evaluates the gate to planning and goes through it. -/
theorem gated_transition_evaluated_sample : ∃ events t record n,
    reduceInternal defaultReducer events none [] [] (some "prj_abc") (some serviceAuthority) = .ok t ∧
      t.phaseHistory = [record] ∧ JustifiedBy events 0 record .dorDiscoveryToPlanning n := by
  obtain ⟨events, s, record, hreached, hstorable, -, hhistory, hfrom, hto⟩ := exists_planned
  obtain ⟨t, ht, hprojected⟩ := hreached.reduce (by decide) rfl hstorable [] []
  obtain ⟨hgated, -⟩ := gated_transition_evaluated rfl ht
  obtain ⟨-, revision, -, rfl⟩ := computeProjections_ok.mp hprojected
  obtain ⟨n, hn⟩ := hgated 0 record planningSpec .dorDiscoveryToPlanning
    (by change s.phaseHistory[0]? = _; rw [hhistory]; rfl) (by rw [hfrom, hto]; decide) rfl
  exact ⟨events, _, record, n, ht, hhistory, hn⟩

end

end PowerFramework.State
