import PowerFramework.State.Projection
/-!
# When a stream is accepted

An event with the digests of its own content, next in its sequence, is accepted when its handler
accepts it; the projections of a state can be computed when its entities have canonical JSON and
its numbers can be printed.
-/

namespace PowerFramework.State

open Lib Lib.Failure Lib.Json Lib.Run Ledger

variable {self : ProjectStateReducer} {authority : Option AuthorityContext} {s t : ProjectState}

/-! ## The dump of a state -/

theorem canonical_list_iff {values : List Value} :
    Canonical (.list values) ↔ ∀ v ∈ values, Canonical v := by
  refine ⟨?_, canonical_list⟩
  intro h
  obtain ⟨hfinite, text, htext⟩ := canonical_iff.mp h
  obtain ⟨texts, htexts, -⟩ := bind_eq_ok.mp htext
  clear h htext
  induction values generalizing texts with
  | nil => simp
  | cons v values ih =>
      obtain ⟨first, hfirst, hrest⟩ := bind_eq_ok.mp htexts
      obtain ⟨rest, hrest, -⟩ := bind_eq_ok.mp hrest
      simp only [finiteFloats, Value.everywhere, everywhereList, Bool.true_and,
        Bool.and_eq_true] at hfinite ih
      rw [List.forall_mem_cons]
      exact ⟨canonical_iff.mpr ⟨hfinite.1, first, hfirst⟩, ih hfinite.2 rest hrest⟩

/-- `p` holds of every value of the table. -/
def Entries {α : Type} (p : α → Prop) (table : Table α) : Prop :=
  ∀ (key : String) (x : α), table[key]? = some x → p x

theorem entries_true {α : Type} {table : Table α} : Entries (fun _ => True) table :=
  fun _ _ _ => trivial

theorem entries_empty {α : Type} {p : α → Prop} : Entries p (∅ : Table α) := by
  intro key x h
  simp at h

theorem Entries.insert {α : Type} {p : α → Prop} {table : Table α} (h : Entries p table) {x : α}
    (hx : p x) (key : String) : Entries p (table.insert key x) := by
  intro key' x' h'
  rw [Std.ExtTreeMap.getElem?_insert] at h'
  split_ifs at h'
  · cases h'
    exact hx
  · exact h key' x' h'

theorem Entries.erase {α : Type} {p : α → Prop} {table : Table α} (h : Entries p table)
    (key : String) : Entries p (table.erase key) := by
  intro key' x' h'
  rw [Std.ExtTreeMap.getElem?_erase] at h'
  split_ifs at h'
  exact h key' x' h'

theorem canonical_tableValue {α : Type} {value : α → Value} {table : Table α} :
    Canonical (tableValue value table) ↔ Entries (fun x => Canonical (value x)) table := by
  rw [tableValue, canonical_dict]
  simp only [List.forall_mem_map, Prod.forall, Std.ExtTreeMap.mem_toList_iff_getElem?_eq_some,
    Entries]

/-- What the dump of a state needs to have canonical JSON. -/
structure Storable (s : ProjectState) : Prop where
  sequence : Printable s.lastEventSequence
  tasks : Entries (fun view => Printable view.revision) s.tasks
  decisions : Entries (fun view => Printable view.revision ∧ Printable view.taskRevision) s.decisions
  approved : Entries Printable s.historicalApprovedDecisions
  gates : Entries Printable s.historicalGateEvaluations
  receipts : Entries Printable s.historicalTaskReceipts
  risks : Entries (fun risk => Canonical risk.modelDump) s.risks.entities
  issues : Entries (fun issue => Canonical issue.modelDump) s.issues.entities
  assumptions : Entries (fun assumption => Canonical assumption.modelDump) s.assumptions.entities
  dependencies : Entries (fun dependency => Canonical dependency.modelDump) s.dependencies.entities

theorem canonical_taskView {view : TaskAuthorityView} :
    Canonical (.dict view.modelDump) ↔ Printable view.revision := by
  simp [canonical_dict, TaskAuthorityView.modelDump, canonical_str, canonical_strList, canonical_int]

theorem canonical_decisionView {view : DecisionAuthorityView} :
    Canonical (.dict view.modelDump) ↔ Printable view.revision ∧ Printable view.taskRevision := by
  simp [canonical_dict, DecisionAuthorityView.modelDump, canonical_str, canonical_optValue,
    canonical_int]

theorem canonical_transitionRecord (record : PhaseTransitionRecord) :
    Canonical (.dict record.modelDump) := by
  simp [canonical_dict, PhaseTransitionRecord.modelDump, canonical_str, canonical_optValue,
    canonical_strList, canonical_bool]

theorem canonical_revisionDump : Canonical (.dict s.revisionDump) ↔ Storable s := by
  have hhistory : Canonical (.list (s.phaseHistory.map fun record => .dict record.modelDump)) := by
    apply canonical_list
    simp only [List.forall_mem_map, canonical_transitionRecord, implies_true]
  rw [canonical_dict]
  simp only [ProjectState.revisionDump, List.forall_mem_cons, List.not_mem_nil, false_implies,
    implies_true, and_true, canonical_str, canonical_strList, canonical_optValue, hhistory,
    canonical_tableValue, canonical_int, canonical_taskView, canonical_decisionView, entries_true,
    true_and]
  constructor
  · rintro ⟨hassumptions, hdecisions, hdependencies, happroved, hgates, hreceipts, hissues,
      hsequence, hrisks, htasks⟩
    exact ⟨hsequence, htasks, hdecisions, happroved, hgates, hreceipts, hrisks, hissues,
      hassumptions, hdependencies⟩
  · intro h
    exact ⟨h.assumptions, h.decisions, h.dependencies, h.approved, h.gates, h.receipts, h.issues,
      h.sequence, h.risks, h.tasks⟩

theorem storable_projected : Storable (projected s) ↔ Storable s :=
  ⟨fun h => ⟨h.1, h.2, h.3, h.4, h.5, h.6, h.7, h.8, h.9, h.10⟩,
    fun h => ⟨h.1, h.2, h.3, h.4, h.5, h.6, h.7, h.8, h.9, h.10⟩⟩

theorem computeStateRevision_isOk :
    (∃ stateRevision, computeStateRevision s = .ok stateRevision) ↔ Storable s := by
  rw [← canonical_revisionDump]
  exact ⟨fun ⟨_, h⟩ => canonical_of_sha256 h, sha256Canonical_ok⟩

/-- Projections succeed exactly when the state's rules are bound and its dump has JSON. -/
theorem computeProjections_isOk :
    (∃ t, computeProjections authority s = .ok t) ↔ RulesBound authority s ∧ Storable s := by
  rw [← storable_projected, ← computeStateRevision_isOk]
  constructor
  · rintro ⟨t, h⟩
    obtain ⟨hrules, revision, hrevision, -⟩ := computeProjections_ok.mp h
    exact ⟨hrules, revision, hrevision⟩
  · rintro ⟨hrules, revision, hrevision⟩
    exact ⟨_, computeProjections_ok.mpr ⟨hrules, revision, hrevision, rfl⟩⟩

/-! ## The next event -/

/-- The event with the digests of its content. -/
def sealEvent (event : ProjectEvent) : ProjectEvent :=
  let event := { event with payloadDigest := manifestDigest (.dict event.payload) }
  { event with
    eventHash := manifestDigest (.dict (event.modelDump.filter (·.1 ≠ "event_hash"))) }

/-- The event linked to the head of a state. -/
def nextEvent (s : ProjectState) (event : ProjectEvent) : ProjectEvent :=
  sealEvent { event with
    projectId := s.projectId, sequence := s.lastEventSequence + 1
    prevEventHash := s.lastEventHash }

theorem sha256Canonical_eq {v : Value} (h : Canonical v) :
    sha256Canonical v = .ok (manifestDigest v) := by
  obtain ⟨digest, hdigest⟩ := sha256Canonical_ok h
  rw [manifestDigest, hdigest]

/-- An event sealed with the digests of a content that has JSON. -/
theorem sealed_sealEvent {event : ProjectEvent} (hpayload : Canonical (.dict event.payload))
    (hsequence : Printable event.sequence) : (sealEvent event).Sealed := by
  refine ⟨sha256Canonical_eq hpayload, ?_⟩
  have hdump : Canonical (.dict (sealEvent event).modelDump) :=
    ProjectEvent.canonical_modelDump.mpr ⟨hpayload, hsequence⟩
  apply sha256Canonical_eq
  rw [canonical_dict] at hdump ⊢
  exact fun item hitem => hdump item (List.mem_filter.mp hitem).1

theorem linked_nextEvent {event : ProjectEvent} (hpayload : Canonical (.dict event.payload))
    (hsequence : Printable (s.lastEventSequence + 1)) : Linked s (nextEvent s event) := by
  have hsealed : (nextEvent s event).Sealed := sealed_sealEvent hpayload hsequence
  exact ⟨rfl, rfl, fun _ => rfl, hsealed.payload, hsealed.envelope⟩

theorem printable_small {n : Nat} (h : n < 10) : Printable n := by
  rw [Printable]
  interval_cases n <;> decide

/-- An event of the governed writer, before it is linked to a state. -/
def governedEvent (eventType : EventType) (eventId : String) (payload : Dict) : ProjectEvent where
  actor := "alice"
  eventType := eventType
  payload := payload
  artifactRefs := []
  evidenceRefs := []
  correlationId := none
  causationId := none
  sessionId := none
  source := pseGovernance
  eventId := eventId
  projectId := ""
  sequence := 0
  timestamp := "2026-01-01T00:00:00Z"
  payloadDigest := ""
  prevEventHash := ""
  eventHash := ""
  idempotencyKey := none

theorem trusted_governedEvent [PythonText] {eventType : EventType} {eventId : String} {payload : Dict}
    (hactor : isUntrustedActor "alice" = false)
    (hstatus : getItem payload "verification_status" = .null)
    (hsource : getItem payload "source_type" = .null) :
    isUntrustedEvent (nextEvent s (governedEvent eventType eventId payload)) = false := by
  have hgoverned : pseGovernance ∉ ["model_extraction", "agent_inference", "untrusted"] := by decide
  simp [isUntrustedEvent, nextEvent, sealEvent, governedEvent, hactor, hstatus, hsource,
    Value.isText, hgoverned]

variable [LaxInt] [PythonText] {projectId : String} {events : List ProjectEvent}

/-- A state is left by every event whose handler accepts it. -/
theorem Reached.extend (h : Reached self authority projectId events s) {event : ProjectEvent}
    (hpayload : Canonical (.dict event.payload)) (hsequence : Printable (s.lastEventSequence + 1))
    (hadmissible : Admissible authority (nextEvent s event))
    (hdispatch : dispatchEvent self s (nextEvent s event) authority = .ok t) :
    Reached self authority projectId (events ++ [nextEvent s event])
      (t.advance (nextEvent s event)) :=
  reached_concat.mpr ⟨s, h, applyEvent_ok.mpr
    ⟨t, linked_nextEvent hpayload hsequence, hadmissible, hdispatch, rfl⟩⟩

/-- The replay of the events of a reached state whose dump has JSON. -/
theorem Reached.reduce {projectId : String} (h : Reached self authority projectId events s)
    (hproject : isProjectId projectId = true) (hhistorical : historicalIn authority = true)
    (hstorable : Storable s) (tasks : List TaskAuthorityView)
    (decisions : List DecisionAuthorityView) :
    ∃ t, reduceInternal self events none tasks decisions (some projectId) authority = .ok t ∧
      computeProjections authority s = .ok t := by
  have hnonempty : projectId ≠ "" := by
    rintro rfl
    exact absurd hproject (by decide)
  obtain ⟨t, ht⟩ := computeProjections_isOk.mpr ⟨fun _ => h.kept.2.2, hstorable⟩
  have hstart : startState self events none (some projectId) =
      .ok (.initial projectId self.rulesVersion) := by
    have htarget : targetProject events none (some projectId) = .ok projectId := by
      simp [targetProject, truthy, Option.filter, hnonempty]
    exact bind_eq_ok.mpr ⟨⟨⟩, by simp, bind_eq_ok.mpr ⟨projectId, htarget,
      newState_ok.mpr ⟨hproject, rfl⟩⟩⟩
  have hbound : bindRules "replay" authority (.initial projectId self.rulesVersion) =
      .ok (.initial projectId self.rulesVersion) :=
    bindRules_ok.mpr ⟨fun _ => rfl, by
      rw [show (ProjectState.initial projectId self.rulesVersion).rulesDigest = rulesDigest from rfl,
        if_neg rulesDigest_ne]
      rfl⟩
  refine ⟨t, ?_, ht⟩
  exact bind_eq_ok.mpr ⟨_, hstart, bind_eq_ok.mpr ⟨_, hbound, bind_eq_ok.mpr
    ⟨_, if_pos hhistorical, bind_eq_ok.mpr ⟨s, h, ht⟩⟩⟩⟩

/-- A governed event whose handler accepts it extends what the state was reached by. -/
theorem Reached.governed (h : Reached self authority projectId events s) (eventType : EventType)
    (eventId : String) (payload : Dict) (hactor : isUntrustedActor "alice" = false)
    (hstatus : getItem payload "verification_status" = .null)
    (hsource : getItem payload "source_type" = .null) (hpayload : Canonical (.dict payload))
    (hsequence : Printable (s.lastEventSequence + 1))
    (hdispatch : dispatchEvent self s (nextEvent s (governedEvent eventType eventId payload))
      authority = .ok t) :
    Reached self authority projectId
      (events ++ [nextEvent s (governedEvent eventType eventId payload)])
      (t.advance (nextEvent s (governedEvent eventType eventId payload))) :=
  h.extend hpayload hsequence
    (fun _ _ => ⟨rfl, trusted_governedEvent hactor hstatus hsource⟩) hdispatch

/-- The authority the service hands to the reducer, here of empty stores. -/
def serviceAuthority : AuthorityContext where
  attachedEvidence := []
  approvedDecisionIds := []
  raci := ∅
  accountableActor := none
  verifiedTaskReceipts := []
  permitAccountableApproval := true
  historical := true
  charterEvidenceRefs := []
  raciAccountableCardinalityValid := true

/-- `ProjectStateReducer()` -/
def defaultReducer : ProjectStateReducer := ⟨governanceRulesVersion⟩

end PowerFramework.State
