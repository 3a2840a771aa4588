import PowerFramework.State.Lifecycle
/-!
# Approvals

A passed evaluation records the decisions it found approved.  Nothing takes a decision off that
record when a later evaluation finds it rejected or expired, so the record agrees with the latest
view of a decision as long as no evaluation carries another view of a recorded one.
-/

namespace PowerFramework.State

open Lib Lib.Failure Lib.Json Lib.Run Ledger

section
variable [LaxInt]

/-- The decision views that an evaluation event applies. -/
def appliedViews (event : ProjectEvent) : List DecisionAuthorityView :=
  if event.eventType = .dorEvaluated ∨ event.eventType = .dodEvaluated then
    match HistoricalGovernanceEvaluation.modelValidate event.payload with
    | .ok evaluation => evaluation.decisionViews
    | .error _ => []
  else []

/-- The view of a decision that the last evaluation with one applied. -/
def latestView (events : List ProjectEvent) (id : String) : Option DecisionAuthorityView :=
  (events.flatMap appliedViews).reverse.find? fun view => view.decisionId = id

def LatestApproved (events : List ProjectEvent) (id : String) : Prop :=
  ∃ view, latestView events id = some view ∧ view.status = .approved

/-- The event carries no view of a recorded decision that is not approved. -/
def KeepsApproved (s : ProjectState) (event : ProjectEvent) : Prop :=
  ∀ view ∈ appliedViews event, view.decisionId ∈ s.historicalApprovedDecisions →
    view.status = .approved

theorem latestView_concat (events : List ProjectEvent) (event : ProjectEvent) (id : String) :
    latestView (events ++ [event]) id = (latestView [event] id).or (latestView events id) := by
  simp [latestView, List.find?_append]

theorem latestView_some {events : List ProjectEvent} {id : String} {view : DecisionAuthorityView}
    (h : latestView events id = some view) :
    view.decisionId = id ∧ ∃ event ∈ events, view ∈ appliedViews event := by
  refine ⟨by simpa using List.find?_some h, ?_⟩
  have hmem := List.mem_of_find?_eq_some h
  rwa [List.mem_reverse, List.mem_flatMap] at hmem

/-- A recorded decision stays approved over an event that carries no other view of it. -/
theorem LatestApproved.concat {events : List ProjectEvent} {event : ProjectEvent}
    {s : ProjectState} {id : String} (h : LatestApproved events id)
    (hrecorded : id ∈ s.historicalApprovedDecisions) (hkeeps : KeepsApproved s event) :
    LatestApproved (events ++ [event]) id := by
  obtain ⟨view, hview, happroved⟩ := h
  rw [LatestApproved, latestView_concat]
  cases hnew : latestView [event] id with
  | none => exact ⟨view, by rw [hview]; rfl, happroved⟩
  | some newer =>
      obtain ⟨hid, applied, hmem, hnewer⟩ := latestView_some hnew
      rw [List.mem_singleton] at hmem
      subst hmem
      exact ⟨newer, rfl, hkeeps newer hnewer (hid ▸ hrecorded)⟩

end

theorem mem_insertAll {keys : List String} {sequence : Nat} {table : Table Nat} {id : String} :
    id ∈ insertAll keys sequence table ↔ id ∈ keys ∨ id ∈ table := by
  unfold insertAll
  induction keys generalizing table with
  | nil => simp
  | cons key keys ih =>
      rw [List.foldl_cons, ih, List.mem_cons, Std.ExtTreeMap.mem_insert, Std.compare_eq_iff_eq]
      constructor
      · rintro (hkeys | heq | htable)
        · exact .inl (.inr hkeys)
        · exact .inl (.inl heq.symm)
        · exact .inr htable
      · rintro ((heq | hkeys) | htable)
        · exact .inr (.inl heq.symm)
        · exact .inl hkeys
        · exact .inr (.inr htable)

theorem mem_of_popId {α : Type} {value : Value} {table after : Table α}
    (h : popId value table = .ok after) {id : String} (hmem : id ∈ after) : id ∈ table := by
  unfold popId at h
  split_ifs at h
  · obtain ⟨key, -, h⟩ := bind_eq_ok.mp h
    cases key with
    | none =>
        cases h
        exact hmem
    | some key =>
        cases h
        exact (Std.ExtTreeMap.mem_erase.mp hmem).2
  · cases h
    exact hmem

/-! ## The record of approvals -/

section
variable [LaxInt]

/-- What `validate_bindings` promises of the approved ids. -/
theorem HistoricalGovernanceEvaluation.modelValidate_approved {d : Dict}
    {evaluation : HistoricalGovernanceEvaluation}
    (h : HistoricalGovernanceEvaluation.modelValidate d = .ok evaluation) :
    (∀ id ∈ evaluation.approvedDecisionIds,
      ∃ view ∈ evaluation.decisionViews, view.decisionId = id) ∧
      ∀ view ∈ evaluation.decisionViews, view.decisionId ∈ evaluation.approvedDecisionIds →
        view.status = .approved := by
  have hbindings : ∃ raw : HistoricalGovernanceEvaluation, raw.validateBindings = .ok evaluation := by
    unfold HistoricalGovernanceEvaluation.modelValidate at h
    iterate 14 obtain ⟨_, -, h⟩ := bind_eq_ok.mp h
    exact ⟨_, h⟩
  obtain ⟨raw, hraw⟩ := hbindings
  unfold HistoricalGovernanceEvaluation.validateBindings at hraw
  obtain ⟨⟨⟩, hincluded, hraw⟩ := bind_eq_ok.mp hraw
  obtain ⟨⟨⟩, happroved, hraw⟩ := bind_eq_ok.mp hraw
  obtain ⟨⟨⟩, -, hraw⟩ := bind_eq_ok.mp hraw
  obtain ⟨⟨⟩, -, hraw⟩ := bind_eq_ok.mp hraw
  obtain ⟨⟨⟩, -, hraw⟩ := bind_eq_ok.mp hraw
  cases hraw
  rw [raiseIf_eq_ok] at hincluded happroved
  push Not at hincluded happroved
  exact ⟨fun id hid => List.mem_map.mp (hincluded id hid), happroved⟩

/-- The approved ids of an evaluation event have an approved view in it. -/
theorem latestApproved_singleton {event : ProjectEvent}
    {evaluation : HistoricalGovernanceEvaluation}
    (htype : event.eventType = .dorEvaluated ∨ event.eventType = .dodEvaluated)
    (hread : HistoricalGovernanceEvaluation.modelValidate event.payload = .ok evaluation)
    {id : String} (hid : id ∈ evaluation.approvedDecisionIds) : LatestApproved [event] id := by
  obtain ⟨hincluded, happroved⟩ := HistoricalGovernanceEvaluation.modelValidate_approved hread
  have happlied : appliedViews event = evaluation.decisionViews := by
    rw [appliedViews, if_pos htype, hread]
  obtain ⟨view, hview, hviewId⟩ := hincluded id hid
  cases hfound : latestView [event] id with
  | none =>
      have hnone := List.find?_eq_none.mp hfound view (by simp [happlied, hview])
      exact absurd hviewId (by simpa using hnone)
  | some newest =>
      obtain ⟨hnewestId, applied, hmem, hnewest⟩ := latestView_some hfound
      rw [List.mem_singleton] at hmem
      subst hmem
      rw [happlied] at hnewest
      exact ⟨newest, hfound, happroved newest hnewest (hnewestId ▸ hid)⟩

variable [PythonText] {self : ProjectStateReducer} {authority : Option AuthorityContext}
  {s t : ProjectState} {event : ProjectEvent} {events : List ProjectEvent} {projectId : String}

/-- An event records a decision only if it carries an approved view of it. -/
theorem Dispatched.recorded (h : Dispatched self authority s event t) {id : String}
    (hid : id ∈ t.historicalApprovedDecisions) :
    id ∈ s.historicalApprovedDecisions ∨ LatestApproved [event] id := by
  cases h with
  | evaluation evaluation tasks decisions htype hevaluation =>
      change id ∈ (if _ then _ else _) at hid
      split_ifs at hid
      · rcases mem_insertAll.mp hid with happroved | hbefore
        · exact .inr (latestApproved_singleton htype hevaluation.read happroved)
        · exact .inl hbefore
      · exact .inl hid
  | disassociated decisions approved _ _ happroved => exact .inl (mem_of_popId happroved hid)
  | _ => exact .inl hid

theorem Reached.latestApproved (h : Reached self authority projectId events s)
    (hkeeps : Throughout (applyEvent self authority) (.initial projectId self.rulesVersion)
      KeepsApproved events) :
    ∀ id ∈ s.historicalApprovedDecisions, LatestApproved events id := by
  refine Reached.induction (P := fun events s =>
    Throughout (applyEvent self authority) (.initial projectId self.rulesVersion)
      KeepsApproved events → ∀ id ∈ s.historicalApprovedDecisions, LatestApproved events id)
    ?_ ?_ h hkeeps
  · intro _ id hid
    exact absurd hid (by simp [ProjectState.initial])
  · intro before s event mid hreached ih _ _ hdispatched hall id hid
    obtain ⟨hbefore, hevent⟩ := (throughout_concat hreached).mp hall
    rcases hdispatched.recorded hid with hrecorded | ⟨view, hview, happroved⟩
    · exact (ih hbefore id hrecorded).concat hrecorded hevent
    · exact ⟨view, by rw [latestView_concat, hview]; rfl, happroved⟩

/-- The decision lets the event through: a transition that needs approval refers to it, or an
override names it as its approval. -/
def AdmittedThrough (authority : Option AuthorityContext) (s : ProjectState) (event : ProjectEvent)
    (id : String) : Prop :=
  ∃ context, effectiveAuthority s authority = some context ∧ id ∈ context.approvedDecisionIds ∧
    ((isTransition event = true ∧ (∃ spec, Allowed s spec event (some context) ∧
        spec.approvalRequired = true) ∧ id ∈ approvalRefs event.payload) ∨
      event.eventType = .gateOverridden ∧
        (nonBlank (getItem event.payload "approved_by")).map stripText = some id)

omit [LaxInt] in
theorem AdmittedThrough.recorded {id : String} (h : AdmittedThrough authority s event id)
    (hhistorical : historicalIn authority = true) : id ∈ s.historicalApprovedDecisions := by
  obtain ⟨context, hcontext, hid, -⟩ := h
  cases authority with
  | none => cases hhistorical
  | some authority =>
      obtain rfl := Option.some.inj hcontext
      change authority.historical = true at hhistorical
      simp only [hhistorical, if_true, upTo, List.mem_map, List.mem_filter] at hid
      obtain ⟨entry, ⟨hentry, -⟩, rfl⟩ := hid
      rw [Std.ExtTreeMap.mem_iff_isSome_getElem?,
        Std.ExtTreeMap.mem_toList_iff_getElem?_eq_some.mp hentry]
      rfl

/-- In a stream whose evaluations carry no view of a recorded decision but approved ones, whatever
decision lets a transition or an override through is approved in its latest view. -/
theorem approval_follows_latest_view {tasks : List TaskAuthorityView}
    {decisions : List DecisionAuthorityView} {project : Option String}
    (hhistorical : historicalIn authority = true)
    (h : reduceInternal self events none tasks decisions project authority = .ok t)
    (hkeeps : Throughout (applyEvent self authority) (.initial t.projectId self.rulesVersion)
      KeepsApproved events) :
    ∀ before event after, events = before ++ event :: after →
      ∃ s, Reached self authority t.projectId before s ∧
        ∀ id, AdmittedThrough authority s event id → LatestApproved before id := by
  intro before event after hsplit
  obtain ⟨final, -, hfinal, -⟩ := reduceInternal_historical hhistorical h
  rw [hsplit] at hfinal
  obtain ⟨s, -, hreached, -, -⟩ := foldlM_split.mp hfinal
  refine ⟨s, hreached, fun id hadmitted => ?_⟩
  refine Reached.latestApproved hreached ?_ id (hadmitted.recorded hhistorical)
  rintro front x rest mid rfl hmid
  exact hkeeps front x (rest ++ event :: after) mid (by rw [hsplit]; simp) hmid

end

/-! ## A rejected decision that still approves -/

section

attribute [local instance] PythonText.ascii LaxInt.intOnly

def decisionView (status : DecisionStatus) (digest : String) : DecisionAuthorityView where
  decisionId := "dec_1"
  status := status
  taskId := none
  taskRevision := 1
  revision := 1
  digest := digest
  sourceIdentity := "DecisionService:v1"
  receiptId := none

/-- An evaluation of the gate to planning that applies one view of the decision. -/
def decisionEvaluated (eventId digest : String) (result : EvaluationResult)
    (view : DecisionAuthorityView) (approved : List String) : Dict := [
  ("approved_decision_ids", strList approved), ("decision_views", .list [.dict view.modelDump]),
  ("evaluated_from_phase", .str "DISCOVERY"), ("evaluated_phase", .str "PLANNING"),
  ("evaluation_event_id", .str eventId), ("evaluation_type", .str "dor"),
  ("result", .str result.text), ("rules_digest", .str digest)]

def decisionEvaluation (eventId digest : String) (result : EvaluationResult)
    (view : DecisionAuthorityView) (approved : List String) : HistoricalGovernanceEvaluation where
  evaluationType := .dor
  result := result
  evaluatedFromPhase := .discovery
  evaluatedPhase := .planning
  evaluationEventId := eventId
  taskViews := []
  decisionViews := [view]
  approvedDecisionIds := approved
  verifiedTaskReceipts := []
  requiredEvidenceRefs := []
  accountableActor := none
  rulesVersion := governanceRulesVersion
  rulesDigest := digest

theorem readFields_decisionView {status : DecisionStatus} {digest : String}
    (hdigest : isHash digest = true) :
    DecisionAuthorityView.readFields (decisionView status digest).modelDump =
      .ok (decisionView status digest) := by
  have hid : lengthBetween 128 "dec_1" = true := by decide
  have hsource : lengthBetween 128 "DecisionService:v1" = true := by decide
  exact bind_eq_ok.mpr ⟨"dec_1", if_pos hid, bind_eq_ok.mpr ⟨status, by cases status <;> rfl,
    bind_eq_ok.mpr ⟨none, rfl, bind_eq_ok.mpr ⟨1, rfl, bind_eq_ok.mpr ⟨1, rfl,
    bind_eq_ok.mpr ⟨digest, if_pos hdigest, bind_eq_ok.mpr ⟨"DecisionService:v1", if_pos hsource,
    bind_eq_ok.mpr ⟨none, rfl, bind_eq_ok.mpr ⟨⟨⟩, rfl, rfl⟩⟩⟩⟩⟩⟩⟩⟩⟩

theorem modelValidate_decisionEvaluated {eventId digest viewDigest : String}
    {result : EvaluationResult} {status : DecisionStatus} {approved : List String}
    (hid : isEventId eventId = true) (hdigest : isHash digest = true)
    (hview : isHash viewDigest = true)
    (happroved : strListField [("approved_decision_ids", strList approved)]
      "approved_decision_ids" = .ok approved)
    (hbindings : (decisionEvaluation eventId digest result (decisionView status viewDigest)
      approved).validateBindings =
        .ok (decisionEvaluation eventId digest result (decisionView status viewDigest) approved)) :
    HistoricalGovernanceEvaluation.modelValidate
      (decisionEvaluated eventId digest result (decisionView status viewDigest) approved) =
        .ok (decisionEvaluation eventId digest result (decisionView status viewDigest) approved) := by
  have hviews : modelListField DecisionAuthorityView.readFields
      (decisionEvaluated eventId digest result (decisionView status viewDigest) approved)
      "decision_views" = .ok [decisionView status viewDigest] := by
    change List.mapM _ [Value.dict (decisionView status viewDigest).modelDump] = _
    rw [List.mapM_cons, List.mapM_nil]
    exact bind_eq_ok.mpr ⟨_, readFields_decisionView hview, rfl⟩
  exact bind_eq_ok.mpr ⟨.dor, rfl, bind_eq_ok.mpr ⟨result, by cases result <;> rfl,
    bind_eq_ok.mpr ⟨.discovery, rfl, bind_eq_ok.mpr ⟨.planning, rfl,
    bind_eq_ok.mpr ⟨eventId, if_pos hid, bind_eq_ok.mpr ⟨[], rfl, bind_eq_ok.mpr ⟨_, hviews,
    bind_eq_ok.mpr ⟨approved, happroved, bind_eq_ok.mpr ⟨[], rfl, bind_eq_ok.mpr ⟨[], rfl,
    bind_eq_ok.mpr ⟨none, rfl, bind_eq_ok.mpr ⟨governanceRulesVersion, rfl,
    bind_eq_ok.mpr ⟨digest, if_pos hdigest, bind_eq_ok.mpr ⟨⟨⟩, rfl, hbindings⟩⟩⟩⟩⟩⟩⟩⟩⟩⟩⟩⟩⟩⟩

/-- The digests of the views, which only their being hashes matters of. -/
theorem exists_viewDigest (status : DecisionStatus) : ∃ digest, isHash digest = true ∧
    DecisionAuthorityView.computeDigest (.str "dec_1") (.str status.text) .null 1 1 .null =
      .ok digest := by
  have hcanonical : Canonical (.dict [
      ("decision_id", .str "dec_1"), ("receipt_id", .str ""), ("revision", .int 1),
      ("status", .str status.text), ("task_id", .str ""), ("task_revision", .int 1)]) := by
    have hone : Canonical (.int ((1 : Nat) : Int)) := canonical_int.mpr (printable_small (by decide))
    simp [canonical_dict, canonical_str]
    exact hone
  obtain ⟨digest, hdigest⟩ := sha256Canonical_ok hcanonical
  exact ⟨digest, isHash_of_sha256Canonical hdigest, hdigest⟩

theorem entries_insertAll {p : Nat → Prop} {table : Table Nat} (h : Entries p table) {sequence : Nat}
    (hsequence : p sequence) (keys : List String) : Entries p (insertAll keys sequence table) := by
  unfold insertAll
  induction keys generalizing table with
  | nil => exact h
  | cons key keys ih => exact ih (h.insert hsequence key)

/-- A state in discovery that knows the decision and has a piece of evidence. -/
structure Approvable (s : ProjectState) : Prop where
  currentPhase : s.currentPhase = .discovery
  attached : "charter" ∈ s.attachedEvidence
  raci : s.raci = ∅
  decision : "dec_1" ∈ s.decisions
  storable : Storable s

def decisionEvaluatedEvent (s : ProjectState) (eventId : String) (result : EvaluationResult)
    (view : DecisionAuthorityView) (approved : List String) : ProjectEvent :=
  nextEvent s (governedEvent .dorEvaluated eventId
    (decisionEvaluated eventId rulesDigest result view approved))

theorem Approvable.handleHistoricalEvaluation {s : ProjectState} (h : Approvable s)
    {eventId viewDigest : String} {result : EvaluationResult} {status : DecisionStatus}
    {approved : List String} (hid : isEventId eventId = true) (hview : isHash viewDigest = true)
    (hdigest : DecisionAuthorityView.computeDigest (.str "dec_1") (.str status.text) .null 1 1 .null =
      .ok viewDigest)
    (happroved : strListField [("approved_decision_ids", strList approved)]
      "approved_decision_ids" = .ok approved)
    (hbindings : ∀ digest, (decisionEvaluation eventId digest result
      (decisionView status viewDigest) approved).validateBindings =
        .ok (decisionEvaluation eventId digest result (decisionView status viewDigest) approved))
    (hids : ∀ id ∈ approved, id = "dec_1" ∧ status = .approved) :
    State.handleHistoricalEvaluation defaultReducer s
      (decisionEvaluatedEvent s eventId result (decisionView status viewDigest) approved)
      (some serviceAuthority) = .ok (evaluated s
        (decisionEvaluatedEvent s eventId result (decisionView status viewDigest) approved)
        (decisionEvaluation eventId rulesDigest result (decisionView status viewDigest) approved)
        s.tasks (s.decisions.insert "dec_1" (decisionView status viewDigest))) := by
  refine handleHistoricalEvaluation_ok.mpr ⟨_, s.tasks, _, ⟨rfl, rfl,
    modelValidate_decisionEvaluated hid isHash_rulesDigest hview happroved (hbindings _), ?_, rfl,
    ?_, ?_, ?_, ?_⟩, rfl⟩
  · exact ⟨rfl, by simp [decisionEvaluatedEvent, nextEvent, sealEvent, governedEvent, dorPhases,
      decisionEvaluation], rfl, rfl, rfl, h.currentPhase.symm, by simp [decisionEvaluation],
      by simp [decisionEvaluation]⟩
  · have hknown : ¬ (decisionView status viewDigest).decisionId ∉ s.decisions :=
      not_not.mpr h.decision
    change applyDecisionViews _ s.decisions [decisionView status viewDigest] = _
    rw [applyDecisionViews, List.foldlM_cons]
    refine bind_eq_ok.mpr ⟨_, bind_eq_ok.mpr ⟨⟨⟩, raiseIf_eq_ok.mpr hknown,
      bind_eq_ok.mpr ⟨viewDigest, hdigest, bind_eq_ok.mpr ⟨⟨⟩, ?_, rfl⟩⟩⟩, rfl⟩
    exact raiseIf_eq_ok.mpr (not_not.mpr rfl)
  · intro _ id hid
    obtain ⟨rfl, hstatus⟩ := hids id hid
    exact ⟨decisionView status viewDigest, by simp, hstatus⟩
  · intro _ hphase
    cases hphase with
    | tail _ hphase => cases hphase with
      | tail _ hphase => cases hphase with
        | tail _ hphase => cases hphase
  · intro _ id hid
    cases hid

theorem Approvable.evaluated {s : ProjectState} (h : Approvable s) {eventId viewDigest : String}
    {result : EvaluationResult} {status : DecisionStatus} {approved : List String}
    (hprintable : Printable (s.lastEventSequence + 1)) :
    Approvable ((evaluated s
      (decisionEvaluatedEvent s eventId result (decisionView status viewDigest) approved)
      (decisionEvaluation eventId rulesDigest result (decisionView status viewDigest) approved)
      s.tasks (s.decisions.insert "dec_1" (decisionView status viewDigest))).advance
        (decisionEvaluatedEvent s eventId result (decisionView status viewDigest) approved)) := by
  have hone : Printable 1 := printable_small (by decide)
  have hif : ∀ {α : Type} {p : α → Prop} {c : Prop} [Decidable c] {a b : Table α}, Entries p a →
      Entries p b → Entries p (if c then a else b) := by
    intro α p c _ a b ha hb
    split_ifs
    · exact ha
    · exact hb
  exact ⟨h.currentPhase, h.attached, h.raci, by simp [State.evaluated, ProjectState.advance],
    ⟨hprintable, h.storable.tasks, h.storable.decisions.insert ⟨hone, hone⟩ _,
      hif (entries_insertAll h.storable.approved hprintable _) h.storable.approved,
      hif (h.storable.gates.insert hprintable _) h.storable.gates,
      hif h.storable.receipts h.storable.receipts, h.storable.risks, h.storable.issues,
      h.storable.assumptions, h.storable.dependencies⟩⟩

def cancelled : Dict := [
  ("approval_ref", .str "dec_1"), ("evidence_refs", .list [.str "charter"]),
  ("reason", .str "cancelled"), ("target_phase", .str "CLOSED")]

def cancelSpec : TransitionSpec := ⟨.discovery, .closed, "cancel_during_discovery",
  [.cancellationReasonProvided], none, true, true, false⟩

def cancelEvent (s : ProjectState) (eventId : String) : ProjectEvent :=
  nextEvent s (governedEvent .projectPhaseChanged eventId cancelled)

theorem Approvable.evaluateTransition {s : ProjectState} (h : Approvable s) (eventId : String)
    (happroved : "dec_1" ∈ upTo s.lastEventSequence s.historicalApprovedDecisions) :
    ∃ evaluation, evaluateTransition s .closed (cancelEvent s eventId)
      (effectiveAuthority s (some serviceAuthority)) = .ok evaluation ∧
        evaluation.decision = .allow := by
  have hlegal : legalTransition? .discovery .closed = some cancelSpec := by decide
  have htrusted : isUntrustedEvent (cancelEvent s eventId) = false :=
    trusted_governedEvent (by decide) rfl rfl
  have hevidence : transitionEvidence (cancelEvent s eventId) = .list [.str "charter"] := rfl
  have hattached : unresolvedRefs [.str "charter"] s.attachedEvidence = .ok [] := by
    simp [unresolvedRefs, List.filterM, List.filterAuxM, h.attached, bind, Except.bind, pure,
      Except.pure]
  obtain ⟨context, hcontext, hevidenceRefs, hids, hvalid⟩ : ∃ context,
      effectiveAuthority s (some serviceAuthority) = some context ∧
      context.attachedEvidence = s.attachedEvidence ∧
      context.approvedDecisionIds = upTo s.lastEventSequence s.historicalApprovedDecisions ∧
      context.raciAccountableCardinalityValid = true := by
    refine ⟨_, rfl, rfl, rfl, ?_⟩
    have hnone : (accountableActors (((∅ : Table (List String)).filter fun _ actors =>
        actors ≠ []).map fun _ => sortTexts)).length ≤ 1 := by decide
    rw [h.raci]
    exact decide_eq_true hnone
  have hrefs : approvalRefs (cancelEvent s eventId).payload = ["dec_1"] := by
    change approvalRefs cancelled = _
    decide
  have hrequired : hasApproval cancelSpec s (cancelEvent s eventId).payload (some context) = true := by
    simp [hasApproval, resolveCanonicalApproval, hrefs, hids, happroved]
  have hpreconditions : preconditionCheck cancelSpec s (cancelEvent s eventId) (some context) =
      none := by
    apply preconditionCheck_none
    intro precondition hmem
    obtain rfl := List.mem_singleton.mp hmem
    change hasReasonText cancelled = true
    decide
  refine ⟨⟨.allow, sortTexts ["TRANSITION_ALLOWED"], [eventId], []⟩, ?_, rfl⟩
  rw [hcontext]
  simp only [State.evaluateTransition, h.currentPhase, hlegal, htrusted, evidenceCheck, hevidence,
    hpreconditions, hrequired]
  simp [unlessRefused, refuseIf, bind, Except.bind, cancelSpec, hevidenceRefs, hattached, hvalid,
    Value.truthy, Value.iterate, refuseUnresolved, gateOutcome]
  rfl

theorem transitionRecord_cancelled {s : ProjectState} {eventId : String}
    (hid : isEventId eventId = true) :
    ∃ record, transitionRecord cancelSpec (cancelEvent s eventId) = .ok record := by
  have hreason : recordedReason (.str "cancelled") = .ok (some "cancelled") := by
    rw [recordedReason, if_pos (by decide)]
  have hactor : lengthBetween 128 (cancelEvent s eventId).actor = true :=
    show lengthBetween 128 "alice" = true by decide
  have hevent : isEventId (cancelEvent s eventId).eventId = true := hid
  exact ⟨_, bind_eq_ok.mpr ⟨sortTexts ["charter"], rfl, bind_eq_ok.mpr ⟨sortTexts ["dec_1"], rfl,
    bind_eq_ok.mpr ⟨⟨⟩, raiseIf_eq_ok.mpr (by simp [hactor]), bind_eq_ok.mpr ⟨⟨⟩,
      raiseIf_eq_ok.mpr (by simp [hevent]), bind_eq_ok.mpr ⟨some "cancelled", hreason,
        rfl⟩⟩⟩⟩⟩⟩

theorem Approvable.handlePhaseTransition {s : ProjectState} (h : Approvable s) (eventId : String)
    (hid : isEventId eventId = true)
    (happroved : "dec_1" ∈ upTo s.lastEventSequence s.historicalApprovedDecisions) :
    ∃ record, handlePhaseTransition s (cancelEvent s eventId) (some serviceAuthority) =
      .ok (transitioned (some serviceAuthority) s cancelSpec record) := by
  obtain ⟨record, hrecord⟩ := transitionRecord_cancelled (s := s) hid
  obtain ⟨evaluation, hevaluation, hallow⟩ := h.evaluateTransition eventId happroved
  have hlegal : legalTransition? s.currentPhase .closed = some cancelSpec := by
    rw [h.currentPhase]
    decide
  refine ⟨record, ?_⟩
  unfold State.handlePhaseTransition
  have hphase : ProjectPhase.ofText? (PythonText.upper (pyStr (.str "CLOSED"))) = some .closed := by
    decide
  have hraw : (getItem (cancelEvent s eventId).payload "target_phase").or
      ((getItem (cancelEvent s eventId).payload "to_phase").or
        (getItem (cancelEvent s eventId).payload "phase")) = .str "CLOSED" := rfl
  refine bind_eq_ok.mpr ⟨⟨⟩, raiseIf_eq_ok.mpr (by rw [hraw]; decide), ?_⟩
  simp only [hraw, hphase, hlegal]
  refine bind_eq_ok.mpr ⟨⟨⟩, raiseIf_eq_ok.mpr (by simp [cancelSpec]), ?_⟩
  refine bind_eq_ok.mpr ⟨evaluation, hevaluation, ?_⟩
  refine bind_eq_ok.mpr ⟨⟨⟩, raiseIf_eq_ok.mpr (by simp [hallow]), ?_⟩
  exact bind_eq_ok.mpr ⟨record, hrecord, rfl⟩

theorem handleDecisionAssociated_dec (event : ProjectEvent)
    (hpayload : event.payload = [("decision_id", .str "dec_1")]) (hid : event.eventId = "evt_2") :
    ∃ view, view.revision = 1 ∧ view.taskRevision = 1 ∧
      handleDecisionAssociated ∅ event = .ok ((∅ : Table DecisionAuthorityView).insert "dec_1" view) := by
  obtain ⟨digest, hhash, hdigest⟩ := exists_viewDigest .pending
  have hread : DecisionAuthorityView.readFields [
      ("decision_id", .str "dec_1"), ("status", .str "pending"), ("revision", .int 1),
      ("digest", .str digest), ("source_identity", .str "evt_2")] =
        .ok { decisionView .pending digest with sourceIdentity := "evt_2" } :=
    bind_eq_ok.mpr ⟨"dec_1", strField_of_lookup rfl (by decide), bind_eq_ok.mpr ⟨.pending, rfl,
      bind_eq_ok.mpr ⟨none, rfl, bind_eq_ok.mpr ⟨1, rfl, bind_eq_ok.mpr ⟨1, rfl,
      bind_eq_ok.mpr ⟨digest, if_pos hhash, bind_eq_ok.mpr ⟨"evt_2", strFieldD_of_lookup rfl (by decide),
      bind_eq_ok.mpr ⟨none, rfl, bind_eq_ok.mpr ⟨⟨⟩, rfl, rfl⟩⟩⟩⟩⟩⟩⟩⟩⟩
  refine ⟨{ decisionView .pending digest with sourceIdentity := "evt_2" }, rfl, rfl, ?_⟩
  unfold handleDecisionAssociated
  rw [hpayload, hid]
  have hitem : getItem [("decision_id", Value.str "dec_1")] "decision_id" = .str "dec_1" := rfl
  rw [hitem]
  dsimp only
  rw [if_pos (by decide)]
  refine bind_eq_ok.mpr ⟨some "dec_1", rfl, ?_⟩
  rw [if_neg (by simp)]
  exact bind_eq_ok.mpr ⟨digest, hdigest, bind_eq_ok.mpr ⟨_, hread, rfl⟩⟩

/-- A stream that attaches evidence and associates the decision. -/
theorem exists_approvable : ∃ events s,
    Reached defaultReducer (some serviceAuthority) "prj_abc" events s ∧ Approvable s ∧
      s.lastEventSequence = 2 ∧ s.historicalApprovedDecisions = ∅ ∧
      Throughout (applyEvent defaultReducer (some serviceAuthority))
        (.initial "prj_abc" defaultReducer.rulesVersion) KeepsApproved events ∧
      latestView events "dec_1" = none := by
  have hnew : Reached defaultReducer (some serviceAuthority) "prj_abc" []
      (.initial "prj_abc" governanceRulesVersion) := reached_nil
  have hone := hnew.governed .evidenceAttached "evt_1" attachedCharter (by decide) rfl rfl
    (by simp [canonical_dict, canonical_str, attachedCharter]) (printable_small (by decide))
    (congrArg Except.ok (handleEvidenceAttached_charter _ "evt_1"))
  obtain ⟨view, hrevision, htaskRevision, hassociated⟩ := handleDecisionAssociated_dec
    (nextEvent _ (governedEvent .decisionAssociated "evt_2" [("decision_id", .str "dec_1")]))
    rfl rfl
  have htwo := hone.governed .decisionAssociated "evt_2" [("decision_id", .str "dec_1")] (by decide)
    rfl rfl (by simp [canonical_dict, canonical_str]) (printable_small (n := 2) (by decide))
    (bind_eq_ok.mpr ⟨_, hassociated, rfl⟩)
  have hprintable : Printable 1 := printable_small (by decide)
  have hviews : Entries (fun view : DecisionAuthorityView => Printable view.revision ∧
      Printable view.taskRevision) ((∅ : Table DecisionAuthorityView).insert "dec_1" view) :=
    Entries.insert (p := fun view : DecisionAuthorityView => Printable view.revision ∧
      Printable view.taskRevision) entries_empty ⟨by rwa [hrevision], by rwa [htaskRevision]⟩ _
  refine ⟨_, _, htwo, ⟨rfl, mem_sortedSet.mpr List.mem_cons_self, rfl, ?_, ?_⟩, rfl, rfl, ?_, rfl⟩
  · change "dec_1" ∈ (∅ : Table DecisionAuthorityView).insert "dec_1" view
    simp
  · exact ⟨printable_small (n := 2) (by decide), entries_empty, hviews, entries_empty, entries_empty,
      entries_empty, entries_empty, entries_empty, entries_empty, entries_empty⟩
  · refine (throughout_concat hone).mpr ⟨throughout_singleton.mpr ?_, ?_⟩
    · intro view hview
      cases hview
    · intro view hview
      cases hview

/-- The decision may let a cancellation through in this state. -/
structure Approving (events : List ProjectEvent) (s : ProjectState) : Prop where
  reached : Reached defaultReducer (some serviceAuthority) "prj_abc" events s
  approvable : Approvable s
  approved : "dec_1" ∈ upTo s.lastEventSequence s.historicalApprovedDecisions

theorem canonical_decisionEvaluated {eventId digest viewDigest : String} {result : EvaluationResult}
    {status : DecisionStatus} {approved : List String} :
    Canonical (.dict (decisionEvaluated eventId digest result (decisionView status viewDigest)
      approved)) := by
  have hone : Printable 1 := printable_small (by decide)
  have hview : Canonical (.dict (decisionView status viewDigest).modelDump) :=
    canonical_decisionView.mpr ⟨hone, hone⟩
  simp [canonical_dict, canonical_str, canonical_strList, canonical_list_iff, decisionEvaluated] at hview ⊢
  exact hview

/-- A stream that goes on to a passed evaluation with an approved view of the decision. -/
theorem exists_approving : ∃ events s, Approving events s ∧ s.lastEventSequence = 3 ∧
    Throughout (applyEvent defaultReducer (some serviceAuthority))
      (.initial "prj_abc" defaultReducer.rulesVersion) KeepsApproved events := by
  obtain ⟨events, s, hreached, happrovable, hlast, hnone, hkeeps, -⟩ := exists_approvable
  obtain ⟨digest, hhash, hdigest⟩ := exists_viewDigest .approved
  have hprintable : Printable (s.lastEventSequence + 1) := by
    rw [hlast]
    exact printable_small (by decide)
  have hevaluated := hreached.governed .dorEvaluated "evt_3" (decisionEvaluated "evt_3" rulesDigest
    .passed (decisionView .approved digest) ["dec_1"]) (by decide) rfl rfl
    canonical_decisionEvaluated hprintable
    (happrovable.handleHistoricalEvaluation (by decide) hhash hdigest rfl
      (fun _ => rfl) (by simp))
  refine ⟨_, _, ⟨hevaluated, happrovable.evaluated hprintable, ?_⟩, ?_, ?_⟩
  · change "dec_1" ∈ upTo (s.lastEventSequence + 1)
      (s.historicalApprovedDecisions.insert "dec_1" (s.lastEventSequence + 1))
    rw [upTo, List.mem_map]
    refine ⟨("dec_1", s.lastEventSequence + 1), List.mem_filter.mpr ⟨?_, by simp⟩, rfl⟩
    rw [Std.ExtTreeMap.mem_toList_iff_getElem?_eq_some]
    simp
  · change s.lastEventSequence + 1 = 3
    rw [hlast]
  · refine (throughout_concat hreached).mpr ⟨hkeeps, ?_⟩
    intro view hview hrecorded
    rw [hnone] at hrecorded
    simp at hrecorded

variable {events : List ProjectEvent} {s : ProjectState}

/-- The decision lets the cancellation through, and the reducer accepts it. -/
theorem Approving.cancel (h : Approving events s) (eventId : String) (hid : isEventId eventId = true)
    (hprintable : Printable (s.lastEventSequence + 1)) :
    AdmittedThrough (some serviceAuthority) s (cancelEvent s eventId) "dec_1" ∧
      ∃ t, reduceInternal defaultReducer (events ++ [cancelEvent s eventId]) none [] []
        (some "prj_abc") (some serviceAuthority) = .ok t ∧ t.projectId = "prj_abc" := by
  constructor
  · obtain ⟨evaluation, hevaluation, hallow⟩ := h.approvable.evaluateTransition eventId h.approved
    obtain ⟨spec, hto, hallowed⟩ := evaluateTransition_allow hevaluation hallow
    have hspec := hallowed.legal
    rw [h.approvable.currentPhase, hto] at hspec
    have hrequired : spec.approvalRequired = true := by
      have hsame : spec = cancelSpec := by
        have hlegal : legalTransition? .discovery .closed = some cancelSpec := by decide
        rw [hlegal] at hspec
        exact (Option.some.inj hspec).symm
      rw [hsame]
      rfl
    have hrefs : approvalRefs cancelled = ["dec_1"] := by decide
    exact ⟨_, rfl, h.approved, .inl ⟨rfl, ⟨spec, hallowed, hrequired⟩, by
      change "dec_1" ∈ approvalRefs cancelled
      rw [hrefs]
      exact List.mem_cons_self⟩⟩
  · obtain ⟨record, hrecord⟩ := h.approvable.handlePhaseTransition eventId hid h.approved
    have hreached := h.reached.governed .projectPhaseChanged eventId cancelled (by decide) rfl rfl
      (by simp [canonical_dict, canonical_str, cancelled, canonical_list_iff]) hprintable hrecord
    have hstorable := h.approvable.storable
    obtain ⟨t, ht, hprojected⟩ := hreached.reduce (by decide) rfl
      ⟨hprintable, hstorable.tasks, hstorable.decisions, hstorable.approved, hstorable.gates,
        hstorable.receipts, hstorable.risks, hstorable.issues, hstorable.assumptions,
        hstorable.dependencies⟩ [] []
    obtain ⟨-, revision, -, rfl⟩ := computeProjections_ok.mp hprojected
    exact ⟨_, ht, hreached.kept.1⟩

/-- The theorem on a stream that cancels a project through an approved decision. -/
theorem approval_follows_latest_view_sample : ∃ events event t s,
    reduceInternal defaultReducer (events ++ [event]) none [] [] (some "prj_abc")
        (some serviceAuthority) = .ok t ∧
      AdmittedThrough (some serviceAuthority) s event "dec_1" ∧ LatestApproved events "dec_1" := by
  obtain ⟨events, s, happroving, hlast, hkeeps⟩ := exists_approving
  have hprintable : Printable (s.lastEventSequence + 1) := by
    rw [hlast]
    exact printable_small (by decide)
  obtain ⟨hadmitted, t, ht, hproject⟩ := happroving.cancel "evt_4" (by decide) hprintable
  have hall : Throughout (applyEvent defaultReducer (some serviceAuthority))
      (.initial t.projectId defaultReducer.rulesVersion) KeepsApproved
      (events ++ [cancelEvent s "evt_4"]) := by
    rw [hproject]
    refine (throughout_concat happroving.reached).mpr ⟨hkeeps, ?_⟩
    intro view hview
    cases hview
  obtain ⟨mid, hmid, hlatest⟩ := approval_follows_latest_view rfl ht hall events _ [] rfl
  rw [hproject] at hmid
  obtain rfl : mid = s := Except.ok.inj (hmid.symm.trans happroving.reached)
  exact ⟨events, _, t, mid, ht, hadmitted, hlatest "dec_1" hadmitted⟩

/-- A decision that a later evaluation found rejected still lets a cancellation through. -/
theorem rejected_decision_approves : ∃ events event t s view,
    reduceInternal defaultReducer (events ++ [event]) none [] [] (some "prj_abc")
        (some serviceAuthority) = .ok t ∧
      Reached defaultReducer (some serviceAuthority) t.projectId events s ∧
      AdmittedThrough (some serviceAuthority) s event "dec_1" ∧
      latestView events "dec_1" = some view ∧ view.status = .rejected := by
  obtain ⟨events, s, happroving, hlast, -⟩ := exists_approving
  obtain ⟨digest, hhash, hdigest⟩ := exists_viewDigest .rejected
  have hprintable : Printable (s.lastEventSequence + 1) := by
    rw [hlast]
    exact printable_small (by decide)
  have hrejected := happroving.reached.governed .dorEvaluated "evt_4" (decisionEvaluated "evt_4"
    rulesDigest .failed (decisionView .rejected digest) []) (by decide) rfl rfl
    canonical_decisionEvaluated hprintable
    (happroving.approvable.handleHistoricalEvaluation (by decide) hhash hdigest rfl
      (fun _ => rfl) (by simp))
  have hstill : "dec_1" ∈ upTo (s.lastEventSequence + 1) s.historicalApprovedDecisions := by
    have happroved := happroving.approved
    rw [upTo, List.mem_map] at happroved ⊢
    obtain ⟨entry, hentry, hkey⟩ := happroved
    obtain ⟨hmem, hle⟩ := List.mem_filter.mp hentry
    refine ⟨entry, List.mem_filter.mpr ⟨hmem, ?_⟩, hkey⟩
    simp only [decide_eq_true_eq] at hle ⊢
    omega
  have hagain : Approving _ _ := ⟨hrejected, happroving.approvable.evaluated hprintable, hstill⟩
  obtain ⟨hadmitted, t, ht, hproject⟩ := hagain.cancel "evt_5" (by decide) (by
    change Printable (s.lastEventSequence + 1 + 1)
    rw [hlast]
    exact printable_small (by decide))
  refine ⟨_, _, t, _, decisionView .rejected digest, ht, hproject ▸ hrejected, hadmitted, ?_, rfl⟩
  have happlied : appliedViews (decisionEvaluatedEvent s "evt_4" .failed
      (decisionView .rejected digest) []) = [decisionView .rejected digest] := by
    rw [appliedViews, if_pos (.inl rfl)]
    change (match HistoricalGovernanceEvaluation.modelValidate (decisionEvaluated "evt_4" rulesDigest
      .failed (decisionView .rejected digest) []) with
      | .ok evaluation => evaluation.decisionViews
      | .error _ => []) = _
    rw [modelValidate_decisionEvaluated (by decide) isHash_rulesDigest hhash rfl rfl]
    rfl
  rw [latestView_concat]
  change (latestView [decisionEvaluatedEvent s "evt_4" .failed (decisionView .rejected digest) []]
    "dec_1").or _ = _
  rw [latestView, List.flatMap_singleton, happlied]
  rfl

end

end PowerFramework.State
