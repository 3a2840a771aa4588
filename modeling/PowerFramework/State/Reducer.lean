import PowerFramework.State.Handlers
/-!
# The state reducer

One event applied to the working state, the projections computed behind the last event, and the
replay of an event stream, from the start or from a snapshot.
-/

namespace PowerFramework.State

open Lib Lib.Failure Lib.Json Ledger

/-- `ProjectStateReducer` -/
structure ProjectStateReducer where
  rulesVersion : String

/-! ## One event -/

section

variable [LaxInt] [PythonText]

/-- The event is of the state's project, next in its sequence, and carries its own digests. -/
def checkLineage (state : ProjectState) (event : ProjectEvent) : Except Exn Unit := do
  raiseIf (event.projectId ≠ state.projectId)
    (stateEngineError ("Cross-project event detected: event " ++ event.eventId ++ " for '" ++
      event.projectId ++ "' cannot be applied to state for '" ++ state.projectId ++ "'"))
  if 0 < state.lastEventSequence then
    raiseIf (event.sequence ≠ state.lastEventSequence + 1)
      (stateEngineError ("Event sequence gap or reorder: expected " ++
        toString (state.lastEventSequence + 1) ++ ", got " ++ toString event.sequence ++
        " (event " ++ event.eventId ++ ")"))
    raiseIf (event.prevEventHash ≠ state.lastEventHash)
      (stateEngineError ("Broken hash chain at sequence " ++ toString event.sequence ++
        " (event " ++ event.eventId ++ "): prev_hash '" ++ event.prevEventHash ++
        "' != last_event_hash '" ++ state.lastEventHash ++ "'"))
  else
    raiseIf (event.sequence ≠ 1)
      (stateEngineError ("Initial event sequence must be 1, got " ++ toString event.sequence ++
        " (event " ++ event.eventId ++ ")"))
  let payloadDigest ← computePayloadDigest event.payload
  raiseIf (payloadDigest ≠ event.payloadDigest)
    (stateEngineError ("Tampered event payload: payload digest mismatch on event " ++ event.eventId))
  let eventHash ← computeEventHash event.modelDump
  raiseIf (eventHash ≠ event.eventHash)
    (stateEngineError ("Tampered event payload: hash mismatch on event " ++ event.eventId))

/-- `governance_bearing_types` -/
def governanceBearing : EventType → Bool
  | .projectCreated | .projectUpdated | .projectPhaseChanged | .projectReopened | .raciAssigned
  | .raciRevoked | .evidenceAttached | .artifactCreated | .artifactUpdated | .taskAssociated
  | .taskDisassociated | .decisionAssociated | .decisionDisassociated | .dorEvaluated
  | .dodEvaluated | .gateOverridden => true
  | _ => false

/-- Under historical authority an event that bears governance is trusted and comes from the
governed writer. -/
def checkProvenance (event : ProjectEvent) (authority : Option AuthorityContext) :
    Except Exn Unit := do
  raiseIf (historicalIn authority ∧ governanceBearing event.eventType ∧ event.source ≠ pseGovernance)
    (stateEngineError ("Governance-bearing event requires trusted PSE provenance: " ++
      event.eventId))
  raiseIf (historicalIn authority ∧ governanceBearing event.eventType ∧ isUntrustedEvent event)
    (stateEngineError ("Untrusted governance-bearing event rejected: " ++ event.eventId))

/-- The task views of an evaluation, each of an associated task and with its own digest. -/
def applyTaskViews (event : ProjectEvent) (tasks : Table TaskAuthorityView)
    (views : List TaskAuthorityView) : Except Exn (Table TaskAuthorityView) :=
  views.foldlM (fun tasks view => do
    raiseIf (view.taskId ∉ tasks)
      (stateEngineError ("Historical evaluation " ++ event.eventId ++
        " references unassociated task '" ++ view.taskId ++ "'"))
    let digest ← view.expectedDigest
    raiseIf (digest ≠ view.digest)
      (stateEngineError ("Historical task evaluation digest mismatch for '" ++ view.taskId ++ "'"))
    return tasks.insert view.taskId view) tasks

def applyDecisionViews (event : ProjectEvent) (decisions : Table DecisionAuthorityView)
    (views : List DecisionAuthorityView) : Except Exn (Table DecisionAuthorityView) :=
  views.foldlM (fun decisions view => do
    raiseIf (view.decisionId ∉ decisions)
      (stateEngineError ("Historical evaluation " ++ event.eventId ++
        " references unassociated decision '" ++ view.decisionId ++ "'"))
    let digest ← view.expectedDigest
    raiseIf (digest ≠ view.digest)
      (stateEngineError ("Historical decision evaluation digest mismatch for '" ++
        view.decisionId ++ "'"))
    return decisions.insert view.decisionId view) decisions

/-- `table[key] = sequence` for each of the keys. -/
def insertAll (keys : List String) (sequence : Nat) (table : Table Nat) : Table Nat :=
  keys.foldl (fun table key => table.insert key sequence) table

/-- What a passed evaluation records. -/
def recordPassed (state : ProjectState) (event : ProjectEvent)
    (evaluation : HistoricalGovernanceEvaluation) : Except Exn ProjectState := do
  raiseIf (evaluation.evaluatedPhase ∈ [.execution, .closing, .closed] ∧ evaluation.taskViews = [])
    (stateEngineError ("Historical evaluation " ++ event.eventId ++ " lacks canonical task views"))
  raiseIf (∃ id ∈ evaluation.approvedDecisionIds,
      (state.decisions[id]?).all (·.status ≠ .approved))
    (stateEngineError "Historical approval binding invalid")
  raiseIf (¬ ∀ id ∈ evaluation.verifiedTaskReceipts,
      id ∈ evaluation.taskViews.flatMap TaskAuthorityView.receiptIds)
    (stateEngineError ("Historical completion receipt binding invalid on " ++ event.eventId))
  let phase := evaluation.evaluatedPhase.text
  return { state with
    historicalGateEvaluations := state.historicalGateEvaluations.insert phase event.sequence
    historicalGateOrigins :=
      state.historicalGateOrigins.insert phase evaluation.evaluatedFromPhase.text
    historicalApprovedDecisions :=
      insertAll evaluation.approvedDecisionIds event.sequence state.historicalApprovedDecisions
    historicalTaskReceipts :=
      insertAll evaluation.verifiedTaskReceipts event.sequence state.historicalTaskReceipts }

/-- The bindings of an evaluation to its event, the rules and the state it was made in. -/
def checkEvaluation (self : ProjectStateReducer) (state : ProjectState) (event : ProjectEvent)
    (evaluation : HistoricalGovernanceEvaluation) : Except Exn Unit := do
  let expected : EvaluationType := if event.eventType = .dorEvaluated then .dor else .dod
  raiseIf (evaluation.evaluationType ≠ expected)
    (stateEngineError ("Evaluation type mismatch on " ++ event.eventId ++ ": expected " ++
      expected.text))
  raiseIf (evaluation.evaluatedPhase ∉ (if expected = .dor then dorPhases else dodPhases))
    (stateEngineError ("Evaluation phase is incompatible with " ++ expected.text ++ " on " ++
      event.eventId))
  raiseIf (evaluation.evaluationEventId ≠ event.eventId)
    (stateEngineError ("Evaluation event binding mismatch on " ++ event.eventId))
  raiseIf (evaluation.rulesVersion ≠ self.rulesVersion ∨ evaluation.rulesDigest ≠ rulesDigest)
    (stateEngineError ("Historical governance rules binding mismatch on " ++ event.eventId))
  raiseIf (evaluation.evaluatedFromPhase ≠ state.currentPhase)
    (stateEngineError ("Historical evaluation " ++ event.eventId ++
      " is bound to the wrong source phase"))
  raiseIf (∃ ref ∈ evaluation.requiredEvidenceRefs, ref ∉ state.attachedEvidence)
    (stateEngineError ("Historical evaluation " ++ event.eventId ++
      " references future or unknown evidence"))
  raiseIf (evaluation.accountableActor.any fun actor => accountableActors state.raci ≠ [actor])
    (stateEngineError ("Historical evaluation " ++ event.eventId ++
      " has invalid Accountable binding"))

/-- `_handle_historical_evaluation` -/
def handleHistoricalEvaluation (self : ProjectStateReducer) (state : ProjectState)
    (event : ProjectEvent) (authority : Option AuthorityContext) : Except Exn ProjectState := do
  raiseIf (historicalIn authority = false)
    (stateEngineError ("Historical governance evaluation " ++ event.eventId ++
      " requires the trusted service boundary"))
  raiseIf (event.source ≠ pseGovernance)
    (stateEngineError ("Historical governance evaluation " ++ event.eventId ++
      " has an untrusted source"))
  match HistoricalGovernanceEvaluation.modelValidate event.payload with
  | .error exn => .error (stateEngineError ("Invalid historical governance evaluation on " ++
      event.eventId ++ ": " ++ exn.message))
  | .ok evaluation =>
      checkEvaluation self state event evaluation
      let tasks ← applyTaskViews event state.tasks evaluation.taskViews
      let decisions ← applyDecisionViews event state.decisions evaluation.decisionViews
      let state := { state with tasks, decisions }
      let state ← if evaluation.result = .passed then recordPassed state event evaluation
        else pure state
      return { state with historicalEvaluations := state.historicalEvaluations ++ [event.eventId] }

/-- `task.associated` -/
def handleTaskAssociated (tasks : Table TaskAuthorityView) (event : ProjectEvent) :
    Except Exn (Table TaskAuthorityView) := do
  let taskId := getItem event.payload "task_id"
  if taskId.truthy then
    let key ← hashKey taskId
    if key.any (· ∈ tasks) then return tasks
    else
      let digest ← TaskAuthorityView.computeDigest taskId (.str "backlog") 1 [] [] []
      let view ← TaskAuthorityView.readFields [
        ("task_id", taskId), ("state", .str "backlog"), ("revision", .int 1),
        ("digest", .str digest), ("source_identity", .str event.eventId)]
      return tasks.insert view.taskId view
  else return tasks

/-- `decision.associated` -/
def handleDecisionAssociated (decisions : Table DecisionAuthorityView) (event : ProjectEvent) :
    Except Exn (Table DecisionAuthorityView) := do
  let decisionId := getItem event.payload "decision_id"
  if decisionId.truthy then
    let key ← hashKey decisionId
    if key.any (· ∈ decisions) then return decisions
    else
      let digest ← DecisionAuthorityView.computeDigest decisionId (.str "pending") .null 1 1 .null
      let view ← DecisionAuthorityView.readFields [
        ("decision_id", decisionId), ("status", .str "pending"), ("revision", .int 1),
        ("digest", .str digest), ("source_identity", .str event.eventId)]
      return decisions.insert view.decisionId view
  else return decisions

/-- `table.pop(id, None)`, when the id is not empty. -/
def popId {α : Type} (id : Value) (table : Table α) : Except Exn (Table α) := do
  if id.truthy then
    match ← hashKey id with
    | some key => return table.erase key
    | none => return table
  else return table

/-- A drift marker and its companion, when the stored value is another and the marker is new. -/
def markDrift (marker companion : String) (stored : Option String) (observed : Value)
    (flags : List String) : List String :=
  if (stored.any fun text => observed.isText text = false) ∧ marker ∉ flags then
    flags ++ [marker, companion]
  else flags

/-- `TaskAuthorityView(...)` from an observation, without authority. -/
def observedTask (event : ProjectEvent) : Except Exn TaskAuthorityView := do
  let payload := event.payload
  let taskId := getItem payload "task_id"
  let state := getItem payload "state"
  let revision ← toInt (getItemD payload "revision" (.int 1))
  let dependencies ← sortedTexts "dependencies" (getItemD payload "dependencies" (.list []))
  let openGates ← sortedTexts "open_gates" (getItemD payload "open_gates" (.list []))
  let receiptIds ← sortedTexts "receipt_ids" (getItemD payload "receipt_ids" (.list []))
  let digest ← TaskAuthorityView.computeDigest taskId state revision dependencies openGates receiptIds
  TaskAuthorityView.readFields [
    ("task_id", taskId), ("state", state), ("revision", .int revision), ("digest", .str digest),
    ("source_identity", .str event.eventId), ("dependencies", strList dependencies),
    ("open_gates", strList openGates), ("receipt_ids", strList receiptIds)]

/-- `task.lifecycle.observed` -/
def handleTaskObserved (state : ProjectState) (event : ProjectEvent)
    (authority : Option AuthorityContext) : Except Exn ProjectState := do
  let taskId := getItem event.payload "task_id"
  let observed := getItem event.payload "state"
  if taskId.truthy && observed.truthy then
    match authority with
    | some _ =>
        let key ← hashKey taskId
        let stored := key.bind fun key => (state.tasks[key]?).map TaskAuthorityView.state
        let healthFlags := markDrift "STALE_TASK_OBSERVATION" "TASK_AUTHORITY_DRIFT" stored observed
          state.healthFlags
        return { state with healthFlags }
    | none =>
        let view ← observedTask event
        return { state with tasks := state.tasks.insert view.taskId view }
  else return state

/-- `DecisionAuthorityView(...)` from an observation, without authority. -/
def observedDecision (event : ProjectEvent) : Except Exn DecisionAuthorityView := do
  let payload := event.payload
  let decisionId := getItem payload "decision_id"
  let status := getItem payload "status"
  let taskId := getItem payload "task_id"
  let receiptId := getItem payload "receipt_id"
  let revision ← toInt (getItemD payload "revision" (.int 1))
  let digest ← DecisionAuthorityView.computeDigest decisionId status taskId 1 revision receiptId
  DecisionAuthorityView.readFields [
    ("decision_id", decisionId), ("status", status), ("task_id", taskId),
    ("revision", .int revision), ("digest", .str digest),
    ("source_identity", .str event.eventId), ("receipt_id", receiptId)]

/-- `decision.lifecycle.observed` -/
def handleDecisionObserved (state : ProjectState) (event : ProjectEvent)
    (authority : Option AuthorityContext) : Except Exn ProjectState := do
  let decisionId := getItem event.payload "decision_id"
  let observed := getItem event.payload "status"
  if decisionId.truthy && observed.truthy then
    match authority with
    | some _ =>
        let key ← hashKey decisionId
        let stored := key.bind fun key => (state.decisions[key]?).map (·.status.text)
        let healthFlags := markDrift "STALE_DECISION_OBSERVATION" "DECISION_AUTHORITY_DRIFT" stored
          observed state.healthFlags
        return { state with healthFlags }
    | none =>
        let view ← observedDecision event
        return { state with decisions := state.decisions.insert view.decisionId view }
  else return state

/-- What an event does, by its type. -/
def dispatchEvent (self : ProjectStateReducer) (state : ProjectState) (event : ProjectEvent)
    (authority : Option AuthorityContext) : Except Exn ProjectState :=
  match event.eventType with
  | .projectCreated => .ok (handleProjectOwner { state with currentPhase := .discovery } event)
  | .projectUpdated => .ok (handleProjectOwner state event)
  | .projectPhaseChanged | .projectReopened => handlePhaseTransition state event authority
  | .gateOverridden => handleGateOverride state event authority
  | .raciAssigned => .ok (handleRaciAssigned state event)
  | .raciRevoked => .ok (handleRaciRevoked state event)
  | .evidenceAttached | .artifactCreated | .artifactUpdated =>
      .ok (handleEvidenceAttached state event)
  | .dorEvaluated | .dodEvaluated => handleHistoricalEvaluation self state event authority
  | .taskAssociated => do
      let tasks ← handleTaskAssociated state.tasks event
      return { state with tasks }
  | .taskDisassociated => do
      let tasks ← popId (getItem event.payload "task_id") state.tasks
      return { state with tasks }
  | .taskLifecycleObserved => handleTaskObserved state event authority
  | .decisionAssociated => do
      let decisions ← handleDecisionAssociated state.decisions event
      return { state with decisions }
  | .decisionDisassociated => do
      let decisions ← popId (getItem event.payload "decision_id") state.decisions
      let historicalApprovedDecisions ←
        popId (getItem event.payload "decision_id") state.historicalApprovedDecisions
      return { state with decisions, historicalApprovedDecisions }
  | .decisionLifecycleObserved => handleDecisionObserved state event authority
  | .riskOpened => do
      let risks ← handleRiskOpened state event
      return { state with risks }
  | .riskUpdated => do
      let risks ← handleRiskUpdated state event
      return { state with risks }
  | .riskClosed => do
      let risks ← handleRiskClosed state event
      return { state with risks }
  | .assumptionCreated => do
      let assumptions ← handleAssumptionCreated state event
      return { state with assumptions }
  | .assumptionUpdated | .assumptionConfirmed => do
      let assumptions ← handleAssumptionUpdated state event
      return { state with assumptions }
  | .assumptionInvalidated => do
      let assumptions ← handleAssumptionInvalidated state event
      return { state with assumptions }
  | .issueOpened => do
      let issues ← handleIssueOpened state event
      return { state with issues }
  | .issueUpdated => do
      let issues ← handleIssueUpdated state event
      return { state with issues }
  | .issueResolved | .issueClosed => do
      let issues ← handleIssueClosed state event
      return { state with issues }
  | .dependencyCreated => do
      let dependencies ← handleDependencyCreated state event
      return { state with dependencies }
  | .dependencyUpdated => do
      let dependencies ← handleDependencyUpdated state event
      return { state with dependencies }
  | .dependencyResolved => do
      let dependencies ← handleDependencyResolved state event
      return { state with dependencies }
  | .projectRenamed | .projectRelocated | .projectPhaseProposed | .projectArchived
  | .sessionStarted | .sessionEnded | .taskAssociationRequested | .taskAssociationFailed
  | .decisionAssociationRequested | .decisionAssociationFailed | .observationRecorded
  | .lessonRecorded => .ok state

/-- The lineage advanced past an event. -/
def ProjectState.advance (state : ProjectState) (event : ProjectEvent) : ProjectState :=
  { state with
    lastEventSequence := event.sequence
    lastEventHash := event.eventHash
    contributingEvents := state.contributingEvents ++ [event.eventId] }

/-- `_apply_event` -/
def applyEvent (self : ProjectStateReducer) (authority : Option AuthorityContext)
    (state : ProjectState) (event : ProjectEvent) : Except Exn ProjectState := do
  checkLineage state event
  checkProvenance event authority
  let state ← dispatchEvent self state event authority
  return state.advance event

end

/-! ## Projections -/

/-- The drift diagnostics that projections keep. -/
def isDriftFlag (flag : String) : Bool := flag ∈ ["STALE_TASK_OBSERVATION", "TASK_AUTHORITY_DRIFT",
  "STALE_DECISION_OBSERVATION", "DECISION_AUTHORITY_DRIFT", "STALE_AUTHORITATIVE_PROJECTION"]

def Register.sorted {fields : List Field} (register : Register fields) : Register fields :=
  { register with listed := sortedSet register.listed }

/-- The lists of the state that are kept as sets, sorted, and its drift flags. -/
def ProjectState.sorted (state : ProjectState) : ProjectState :=
  { state with
    risks := state.risks.sorted
    issues := state.issues.sorted
    assumptions := state.assumptions.sorted
    dependencies := state.dependencies.sorted
    overriddenGates := sortedSet state.overriddenGates
    attachedEvidence := sortedSet state.attachedEvidence
    raci := state.raci.map fun _ => sortedSet
    historicalEvaluations := sortedSet state.historicalEvaluations }

/-- The tasks of each readiness, and the decisions of each status. -/
def ProjectState.project (state : ProjectState) (cycles : List (List String)) : ProjectState :=
  let readiness (view : TaskAuthorityView) := evaluateTaskReadiness view state cycles.flatten
  let tasksIn (p : TaskReadinessStatus → Bool) : List String :=
    sortedSet ((state.tasks.toList.filter fun entry => p (readiness entry.2)).map (·.1))
  let decisionsIn (status : DecisionStatus) : List String :=
    sortedSet ((state.decisions.toList.filter (·.2.status = status)).map (·.1))
  { state with
    activeTasks := tasksIn (· ≠ .terminal)
    readyTasks := tasksIn (· = .ready)
    blockedTasks := tasksIn (· ∈ [.blockedDependency, .circularDependency, .requiresApproval])
    validDecisions := decisionsIn .approved
    supersededDecisions := []
    requiredApprovals := decisionsIn .pending
    recentChanges := state.contributingEvents.drop (state.contributingEvents.length - 10) }

/-- The state's rules are those of the engine; an empty digest stands for them outside historical
replay. -/
def bindRules (phase : String) (authority : Option AuthorityContext) (state : ProjectState) :
    Except Exn ProjectState := do
  raiseIf (historicalIn authority ∧ state.rulesDigest ≠ "" ∧ state.rulesDigest ≠ rulesDigest)
    (stateEngineError ("Historical " ++ phase ++ " rules digest mismatch"))
  raiseIf (historicalIn authority ∧ state.rulesDigest = "")
    (stateEngineError ("Historical " ++ phase ++ " requires a non-empty rules digest"))
  return if state.rulesDigest = "" then { state with rulesDigest } else state

/-- `_compute_projections` -/
def computeProjections (authority : Option AuthorityContext) (state : ProjectState) :
    Except Exn ProjectState := do
  let cycles := detectDependencyCycles state.tasks (state.dependencies.entities.toList.map (·.2))
  let state ← bindRules "projection" authority (state.project cycles).sorted
  let drift := state.healthFlags.filter isDriftFlag
  let state := { state with healthFlags := sortedSet (evaluateHealthFlags state cycles ++ drift) }
  let stateRevision ← computeStateRevision state
  return { state with stateRevision }

/-! ## Replay -/

section

variable [LaxInt] [PythonText]

def applyEvents (self : ProjectStateReducer) (authority : Option AuthorityContext)
    (state : ProjectState) (events : List ProjectEvent) : Except Exn ProjectState :=
  events.foldlM (applyEvent self authority) state

/-- The supplied task views, which an authority only admits with their own digest. -/
def mergeTasks (authority : Option AuthorityContext) (views : List TaskAuthorityView)
    (tasks : Table TaskAuthorityView) : Except Exn (Table TaskAuthorityView) :=
  views.foldlM (fun tasks view => do
    if authority.isSome then
      let digest ← view.expectedDigest
      raiseIf (digest ≠ view.digest) (stateEngineError ("Task view digest mismatch for '" ++
        view.taskId ++ "': view integrity check failed"))
    return tasks.insert view.taskId view) tasks

def mergeDecisions (authority : Option AuthorityContext) (views : List DecisionAuthorityView)
    (decisions : Table DecisionAuthorityView) : Except Exn (Table DecisionAuthorityView) :=
  views.foldlM (fun decisions view => do
    if authority.isSome then
      let digest ← view.expectedDigest
      raiseIf (digest ≠ view.digest) (stateEngineError ("Decision view digest mismatch for '" ++
        view.decisionId ++ "'"))
    return decisions.insert view.decisionId view) decisions

/-- `ProjectState(project_id=target_project_id, ...)` -/
def newState (self : ProjectStateReducer) (projectId : String) : Except Exn ProjectState := do
  raiseIf (isProjectId projectId = false) (invalidField "project_id")
  return .initial projectId self.rulesVersion

/-- `project_id or (initial_state.project_id if initial_state else events[0].project_id)` -/
def targetProject (events : List ProjectEvent) (initialState : Option ProjectState)
    (projectId : Option String) : Except Exn String :=
  match truthy projectId, initialState, events with
  | some projectId, _, _ => .ok projectId
  | none, some state, _ => .ok state.projectId
  | none, none, event :: _ => .ok event.projectId
  | none, none, [] => .error ⟨"IndexError", "list index out of range"⟩

/-- The state a replay starts from. -/
def startState (self : ProjectStateReducer) (events : List ProjectEvent)
    (initialState : Option ProjectState) (projectId : Option String) : Except Exn ProjectState := do
  raiseIf (events = [] ∧ initialState.isNone ∧ projectId = none)
    (stateEngineError "Cannot reduce empty event stream without project_id")
  let target ← targetProject events initialState projectId
  match initialState with
  | some state => do
      raiseIf (state.projectId ≠ target) (stateEngineError ("Initial state project_id '" ++
        state.projectId ++ "' does not match target '" ++ target ++ "'"))
      return state
  | none => newState self target

/-- The supplied views are preloaded, but not under historical authority. -/
def preloadViews (authority : Option AuthorityContext) (tasks : List TaskAuthorityView)
    (decisions : List DecisionAuthorityView) (state : ProjectState) : Except Exn ProjectState :=
  if historicalIn authority then .ok state
  else do
    let tasks ← mergeTasks authority tasks state.tasks
    let decisions ← mergeDecisions authority decisions state.decisions
    return { state with tasks, decisions }

/-- `reduce_internal` -/
def reduceInternal (self : ProjectStateReducer) (events : List ProjectEvent)
    (initialState : Option ProjectState) (tasks : List TaskAuthorityView)
    (decisions : List DecisionAuthorityView) (projectId : Option String)
    (authority : Option AuthorityContext) : Except Exn ProjectState := do
  let state ← startState self events initialState projectId
  let state ← bindRules "replay" authority state
  let state ← preloadViews authority tasks decisions state
  let state ← applyEvents self authority state events
  computeProjections authority state

end

/-! ## Snapshots -/

/-- `ProjectStateSnapshot`; its schema version is a constant. -/
structure ProjectStateSnapshot where
  rulesVersion : String
  projectId : String
  lastEventSequence : Nat
  lastEventHash : String
  stateRevision : String
  state : ProjectState
  snapshotDigest : String

def snapshotError (message : String) : Exn := ⟨"SnapshotIntegrityError", message⟩

/-- `compute_snapshot_digest` of the other fields of a snapshot. -/
def computeSnapshotDigest (snapshot : ProjectStateSnapshot) : Except Exn String :=
  sha256Canonical (.dict [
    ("last_event_hash", .str snapshot.lastEventHash),
    ("last_event_sequence", .int snapshot.lastEventSequence),
    ("project_id", .str snapshot.projectId),
    ("rules_version", .str snapshot.rulesVersion),
    ("schema_version", .str stateSchemaVersion),
    ("state", .dict snapshot.state.modelDump),
    ("state_revision", .str snapshot.stateRevision)])

/-- `create_snapshot` -/
def createSnapshot (state : ProjectState) : Except Exn ProjectStateSnapshot := do
  let revision ← computeStateRevision state
  raiseIf (revision ≠ state.stateRevision) (snapshotError
    "state_revision does not match state content; refusing to seal snapshot")
  let unsealed : ProjectStateSnapshot := {
    rulesVersion := state.rulesVersion, projectId := state.projectId
    lastEventSequence := state.lastEventSequence, lastEventHash := state.lastEventHash
    stateRevision := state.stateRevision, state, snapshotDigest := "" }
  let snapshotDigest ← computeSnapshotDigest unsealed
  raiseIf (isProjectId state.projectId = false) (invalidField "project_id")
  raiseIf (isPrevHash state.lastEventHash = false) (invalidField "last_event_hash")
  raiseIf (isHash state.stateRevision = false) (invalidField "state_revision")
  return { unsealed with snapshotDigest }

/-- `verify_integrity` -/
def ProjectStateSnapshot.verifyIntegrity (snapshot : ProjectStateSnapshot) : Except Exn Bool := do
  if snapshot.projectId ≠ snapshot.state.projectId ∨
      snapshot.lastEventSequence ≠ snapshot.state.lastEventSequence ∨
      snapshot.lastEventHash ≠ snapshot.state.lastEventHash ∨
      snapshot.stateRevision ≠ snapshot.state.stateRevision then
    return false
  let revision ← computeStateRevision snapshot.state
  if revision ≠ snapshot.stateRevision then return false
  let digest ← computeSnapshotDigest snapshot
  return digest = snapshot.snapshotDigest

/-- `restore_from_snapshot` -/
def restoreFromSnapshot [LaxInt] [PythonText] (self : ProjectStateReducer) (snapshot : ProjectStateSnapshot)
    (tailEvents : List ProjectEvent) (authority : Option AuthorityContext) :
    Except Exn ProjectState := do
  let intact ← snapshot.verifyIntegrity
  raiseIf (intact = false) (snapshotError
    ("Snapshot integrity verification failed for project " ++ snapshot.projectId))
  raiseIf (snapshot.rulesVersion ≠ self.rulesVersion) (snapshotError
    ("Snapshot rules version '" ++ snapshot.rulesVersion ++ "' != current '" ++
      self.rulesVersion ++ "'"))
  raiseIf (snapshot.state.rulesDigest = "" ∨ snapshot.state.rulesDigest ≠ rulesDigest)
    (snapshotError "Snapshot ruleset digest mismatch: effective governance rules changed")
  match tailEvents with
  | [] => return snapshot.state
  | first :: _ =>
      raiseIf (first.sequence ≠ snapshot.state.lastEventSequence + 1) (stateEngineError
        ("Tail event sequence gap: snapshot at " ++ toString snapshot.state.lastEventSequence ++
          ", first tail event at " ++ toString first.sequence))
      raiseIf (first.prevEventHash ≠ snapshot.state.lastEventHash) (stateEngineError
        ("Tail event hash mismatch: snapshot head hash '" ++ snapshot.state.lastEventHash ++
          "' != first tail event prev_hash '" ++ first.prevEventHash ++ "'"))
      let state ← applyEvents self authority snapshot.state tailEvents
      computeProjections authority state

end PowerFramework.State
