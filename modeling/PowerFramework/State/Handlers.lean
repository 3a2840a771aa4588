import PowerFramework.Ledger.Append
import PowerFramework.State.Governance
/-!
# Event handlers

What the events of the governance index and of the RAID log do to the working state.
-/

namespace PowerFramework.State

open Lib Lib.Failure Lib.Json Ledger

def stateEngineError (message : String) : Exn := ⟨"StateEngineIntegrityError", message⟩

def illegalTransition (message : String) : Exn := ⟨"IllegalStateTransitionError", message⟩

variable [PythonText]

/-! ## Ownership, RACI and evidence -/

/-- `_handle_project_owner` -/
def handleProjectOwner (state : ProjectState) (event : ProjectEvent) : ProjectState :=
  match nonBlank ((getItem event.payload "owner").or (getItem event.payload "owner_id")) with
  | some owner => { state with owner := some (stripText owner) }
  | none => state

/-- `_canonical_raci_role` -/
def canonicalRaciRole (role : String) : String :=
  if isAccountableRole role then "Accountable" else stripText role

/-- `_handle_raci_assigned` -/
def handleRaciAssigned (state : ProjectState) (event : ProjectEvent) : ProjectState :=
  match nonBlank (getItem event.payload "role"), nonBlank (getItem event.payload "actor") with
  | some role, some actor =>
      let role := canonicalRaciRole role
      let actors := (state.raci[role]?).getD []
      { state with raci := state.raci.insert role (sortedSet (stripText actor :: actors)) }
  | _, _ => state

/-- `_handle_raci_revoked` -/
def handleRaciRevoked (state : ProjectState) (event : ProjectEvent) : ProjectState :=
  match nonBlank (getItem event.payload "role") with
  | none => state
  | some role =>
      let role := canonicalRaciRole role
      let current := match nonBlank (getItem event.payload "actor") with
        | some actor => ((state.raci[role]?).getD []).filter (· ≠ stripText actor)
        | none => []
      { state with
        raci := if current ≠ [] then state.raci.insert role (sortedSet current)
          else state.raci.erase role }

/-- `_collect_evidence_refs` -/
def collectEvidenceRefs (event : ProjectEvent) : List String :=
  sortedSet (event.evidenceRefs ++ event.artifactRefs ++
    (["evidence_id", "evidence_ref", "ref", "artifact_id", "artifact_ref"].filterMap fun key =>
      (nonBlank (getItem event.payload key)).map stripText) ++
    ["evidence_refs", "evidence_ids", "artifact_refs"].flatMap fun key =>
      match getItem event.payload key with
      | .list items => items.filterMap nonBlank
      | _ => [])

/-- `_handle_evidence_attached` -/
def handleEvidenceAttached (state : ProjectState) (event : ProjectEvent) : ProjectState :=
  let refs := collectEvidenceRefs event
  let kind := nonBlank ((getItem event.payload "evidence_type").or <|
    (getItem event.payload "artifact_type").or (getItem event.payload "kind"))
  let attached := sortedSet (state.attachedEvidence ++ refs)
  let kinds := match kind with
    | some kind => refs.foldl (fun (kinds : Table String) ref =>
        kinds.insert ref (PythonText.lower (stripText kind))) state.evidenceKinds
    | none => state.evidenceKinds
  { state with attachedEvidence := attached, evidenceKinds := kinds.filter fun ref _ => ref ∈ attached }

/-! ## Effective authority -/

/-- `_accountable_actors` -/
def accountableActors (raci : Table (List String)) : List String :=
  sortedSet (raci.toList.flatMap fun entry =>
    if isAccountableRole entry.1 then entry.2.filter (stripText · ≠ "") else [])

/-- The ids whose sequence is not in the future. -/
def upTo (last : Nat) (ids : Table Nat) : List String :=
  (ids.toList.filter (·.2 ≤ last)).map (·.1)

/-- `_effective_authority` -/
def effectiveAuthority (state : ProjectState) (authority : Option AuthorityContext) :
    Option AuthorityContext :=
  authority.map fun authority =>
    let priorRaci := (state.raci.filter fun _ actors => actors ≠ []).map fun _ => sortTexts
    let accountable := accountableActors priorRaci
    { attachedEvidence := state.attachedEvidence
      approvedDecisionIds :=
        if authority.historical then upTo state.lastEventSequence state.historicalApprovedDecisions
        else authority.approvedDecisionIds
      raci := priorRaci
      accountableActor := if accountable.length = 1 then accountable.head? else none
      verifiedTaskReceipts :=
        if authority.historical then upTo state.lastEventSequence state.historicalTaskReceipts
        else authority.verifiedTaskReceipts
      permitAccountableApproval := authority.permitAccountableApproval
      historical := authority.historical
      charterEvidenceRefs := (state.evidenceKinds.toList.filter fun entry =>
        entry.2 ∈ ["charter", "project_charter"]).map (·.1)
      raciAccountableCardinalityValid := accountable.length ≤ 1 }

/-! ## Gates and phases -/

/-- `_handle_gate_override` -/
def handleGateOverride (state : ProjectState) (event : ProjectEvent)
    (authority : Option AuthorityContext) : Except Exn ProjectState := do
  raiseIf (historicalIn authority ∧ event.source ≠ pseGovernance)
    (stateEngineError ("Gate override " ++ event.eventId ++ " requires the trusted service boundary"))
  let evaluation ← evaluateGateOverride event (effectiveAuthority state authority)
  let gateName := pyStr (overrideGate event)
  return if evaluation.decision = .allow ∧ gateName ∉ state.overriddenGates then
    { state with overriddenGates := state.overriddenGates ++ [gateName] }
  else state

/-- The reason a transition is recorded with. -/
def recordedReason : Value → Except Exn (Option String)
  | .null => .ok none
  | .str s => if lengthAtMost 4096 s then .ok (some s) else .error (invalidField "reason")
  | _ => .error (invalidField "reason")

/-- The approvals a transition is recorded with. -/
def recordedApprovals (payload : Dict) : Value :=
  match payload.lookup "approval_ref" with
  | some ref => .list [ref]
  | none => getItemD payload "approval_refs" (.list [])

/-- `PhaseTransitionRecord(...)` of an admitted transition. -/
def transitionRecord (spec : TransitionSpec) (event : ProjectEvent) :
    Except Exn PhaseTransitionRecord := do
  let evidenceRefs ← sortedTexts "evidence_refs"
    ((strList event.evidenceRefs).or <| (getItem event.payload "evidence_refs").or (.list []))
  let approvalRefs ← sortedTexts "approval_refs" (recordedApprovals event.payload)
  raiseIf (lengthBetween 128 event.actor = false) (invalidField "actor")
  raiseIf (isEventId event.eventId = false) (invalidField "event_id")
  let reason ← recordedReason (transitionReason event.payload)
  return {
    fromPhase := spec.fromPhase, toPhase := spec.toPhase, name := spec.name
    timestamp := event.timestamp, actor := event.actor, eventId := event.eventId
    isRollback := spec.isRollback, reason, gate := spec.requiredGate.map Gate.text
    evidenceRefs, approvalRefs }

/-- The last event evaluated this gate, from the current phase. -/
def freshEvaluation (state : ProjectState) (toPhase : ProjectPhase) : Bool :=
  state.historicalGateEvaluations[toPhase.text]? = some state.lastEventSequence &&
    state.historicalGateOrigins[toPhase.text]? = some state.currentPhase.text

/-- `_handle_phase_transition` -/
def handlePhaseTransition (state : ProjectState) (event : ProjectEvent)
    (authority : Option AuthorityContext) : Except Exn ProjectState := do
  let raw := (getItem event.payload "target_phase").or <|
    (getItem event.payload "to_phase").or (getItem event.payload "phase")
  raiseIf (raw.truthy = false)
    (illegalTransition ("Missing target phase in transition event " ++ event.eventId))
  match ProjectPhase.ofText? (PythonText.upper (pyStr raw)) with
  | none => .error (illegalTransition ("Unknown project phase '" ++ pyStr raw ++ "' in event " ++
      event.eventId))
  | some toPhase =>
      let rejected := "Illegal phase transition from " ++ state.currentPhase.text ++ " to " ++
        toPhase.text ++ " rejected by governance engine: "
      let gate := (legalTransition? state.currentPhase toPhase).bind TransitionSpec.requiredGate
      raiseIf (historicalIn authority ∧ gate.isSome ∧ freshEvaluation state toPhase = false)
        (illegalTransition (rejected ++ "MISSING_CANONICAL_" ++
          (if gate.any Gate.isDor then "DOR" else "DOD") ++ "_EVALUATION"))
      let evaluation ← evaluateTransition state toPhase event (effectiveAuthority state authority)
      raiseIf (evaluation.decision ≠ .allow)
        (illegalTransition (rejected ++ ", ".intercalate evaluation.reasonCodes))
      match legalTransition? state.currentPhase toPhase with
      | none => .error ⟨"KeyError", rejected⟩
      | some spec =>
          let record ← transitionRecord spec event
          let used : Bool := historicalIn authority && spec.requiredGate.isSome
          return { state with
            phaseHistory := state.phaseHistory ++ [record]
            currentPhase := toPhase
            historicalGateEvaluations := if used then
              state.historicalGateEvaluations.erase toPhase.text
              else state.historicalGateEvaluations
            historicalGateOrigins := if used then
              state.historicalGateOrigins.erase toPhase.text
              else state.historicalGateOrigins }

/-! ## RAID -/

/-- What happens to an id on the list of open or active entities. -/
inductive ListMove where
  | stay | enter | leave
  deriving DecidableEq, Repr

def ListMove.apply (move : ListMove) (id : String) (listed : List String) : List String :=
  match move with
  | .stay => listed
  | .enter => if id ∈ listed then listed else listed ++ [id]
  | .leave => listed.erase id

def Register.move {fields : List Field} (register : Register fields) (id : String)
    (move : ListMove) : Register fields :=
  { register with listed := move.apply id register.listed }

def Register.put {fields : List Field} (register : Register fields) (id : String)
    (entity : Record fields) (move : ListMove) : Register fields :=
  ⟨register.entities.insert id entity, move.apply id register.listed⟩

/-- The id of the entity an event is about, unless the handler returns at once. -/
def raidId (idField : String) (event : ProjectEvent) : Option Value :=
  let id := getItem event.payload idField
  if id.truthy ∧ isUntrustedEvent event = false then some id else none

/-- `Provenance(source_event_ids=[event.event_id], ...)` -/
def eventProvenance (event : ProjectEvent) : Except Exn Value :=
  (Record.modelValidate provenanceFields [
    ("source_event_ids", strList [event.eventId]),
    ("actor", .str event.actor),
    ("timestamp", .str event.timestamp),
    ("source_type", .str "event_replay"),
    ("verification_status", .str "verified")]).map Record.modelDump

/-- A handler that builds an entity from the arguments of an event. -/
def createEntity {fields : List Field} (idField : String) (event : ProjectEvent)
    (args : Except Exn Dict) (move : Record fields → ListMove) (register : Register fields) :
    Except Exn (Register fields) :=
  match raidId idField event with
  | none => .ok register
  | some _ => do
      let args ← args
      let entity ← Record.modelValidate fields args
      return register.put (entity.text idField) entity (move entity)

/-- `sorted({*source_event_ids, event_id})` in a dumped provenance. -/
def withSourceEvent (eventId : String) : Value → Value
  | .dict items =>
      let ids := match getItem items "source_event_ids" with
        | .list ids => ids.filterMap strOf
        | _ => []
      .dict (setItem "source_event_ids" (strList (sortedSet (eventId :: ids))) items)
  | value => value

/-- The dump of an entity with some fields overwritten and the event among its sources. -/
def updatedDict {fields : List Field} (entity : Record fields) (eventId : String)
    (changes : Dict) : Dict :=
  setItem "provenance" (withSourceEvent eventId (entity.get "provenance"))
    (changes.foldl (fun d item => setItem item.1 item.2 d) entity.values)

/-- `for key in keys: if key in payload: updated_dict[key] = payload[key]` -/
def overwritten (keys : List String) (payload : Dict) : Dict :=
  keys.filterMap fun key => (payload.lookup key).map fun value => (key, value)

/-- A handler that changes an entity, if there is one, and moves its id on the list. -/
def updateEntity {fields : List Field} (idField : String) (event : ProjectEvent)
    (changes : Except Exn Dict) (move : Option (Record fields) → ListMove)
    (register : Register fields) : Except Exn (Register fields) :=
  match raidId idField event with
  | none => .ok register
  | some id => do
      match ← hashKey id with
      | none => return register
      | some key =>
          match register.entities[key]? with
          | none => return register.move key (move none)
          | some entity =>
              let changes ← changes
              let entity ← Record.modelValidate fields (updatedDict entity event.eventId changes)
              return register.put key entity (move (some entity))

/-- `risk.status`, and the status of the other entities. -/
def Record.status {fields : List Field} (entity : Record fields) : String := entity.text "status"

/-- The move of an id by the status of its entity: off the list for one of `off`, onto it for one
of `on`. -/
def moveByStatus {fields : List Field} (off on : List String) (entity : Record fields) : ListMove :=
  if entity.status ∈ off then .leave else if entity.status ∈ on then .enter else .stay

/-- An entity that does not exist is not moved. -/
def ifPresent {fields : List Field} (move : Record fields → ListMove) :
    Option (Record fields) → ListMove
  | some entity => move entity
  | none => .stay

/-- `_handle_risk_opened` -/
def handleRiskOpened (state : ProjectState) (event : ProjectEvent) :
    Except Exn (Register riskFields) :=
  let payload := event.payload
  let args : Except Exn Dict := do
    let provenance ← eventProvenance event
    let related ← sortedTexts "related_task_ids" (getItemD payload "related_task_ids" (.list []))
    return [
      ("risk_id", getItem payload "risk_id"),
      ("project_id", .str state.projectId),
      ("title", getItemD payload "title" (.str ("Risk " ++ pyStr (getItem payload "risk_id")))),
      ("description", getItemD payload "description" (.str "")),
      ("probability", getItemD payload "probability" (.str "medium")),
      ("impact", getItemD payload "impact" (.str "medium")),
      ("mitigation_plan", getItemD payload "mitigation_plan" (.str "")),
      ("owner", getItemD payload "owner" (.str event.actor)),
      ("status", getItemD payload "status" (.str "identified")),
      ("related_task_ids", strList related),
      ("provenance", provenance),
      ("created_at", .str event.timestamp),
      ("updated_at", .str event.timestamp)]
  createEntity "risk_id" event args (moveByStatus [] ["identified"]) state.risks

/-- `_handle_risk_updated` -/
def handleRiskUpdated (state : ProjectState) (event : ProjectEvent) :
    Except Exn (Register riskFields) :=
  updateEntity "risk_id" event
    (.ok (overwritten ["title", "description", "probability", "impact", "mitigation_plan", "owner",
      "status"] event.payload ++ [("updated_at", .str event.timestamp)]))
    (ifPresent (moveByStatus ["mitigated", "retired", "closed"] ["identified"])) state.risks

/-- `_handle_risk_closed` -/
def handleRiskClosed (state : ProjectState) (event : ProjectEvent) :
    Except Exn (Register riskFields) :=
  updateEntity "risk_id" event
    (.ok [("status", .str "retired"), ("updated_at", .str event.timestamp)])
    (fun _ => .leave) state.risks

/-- `_handle_assumption_created` -/
def handleAssumptionCreated (state : ProjectState) (event : ProjectEvent) :
    Except Exn (Register assumptionFields) :=
  let payload := event.payload
  let args : Except Exn Dict := do
    let provenance ← eventProvenance event
    let confidence ← match payload.lookup "confidence" with
      | some value => toFloat value
      | none => toFloat (.int 1)
    return [
      ("assumption_id", getItem payload "assumption_id"),
      ("project_id", .str state.projectId),
      ("statement", getItemD payload "statement" (.str "")),
      ("rationale", getItemD payload "rationale" (.str "")),
      ("confidence", .float confidence),
      ("status", getItemD payload "status" (.str "valid")),
      ("provenance", provenance),
      ("created_at", .str event.timestamp)]
  createEntity "assumption_id" event args (moveByStatus [] ["valid", "confirmed"]) state.assumptions

/-- `_handle_assumption_updated`, for `assumption.updated` and `assumption.confirmed` -/
def handleAssumptionUpdated (state : ProjectState) (event : ProjectEvent) :
    Except Exn (Register assumptionFields) :=
  let changes : Except Exn Dict := do
    let confidence ← match event.payload.lookup "confidence" with
      | some value => (toFloat value).map fun x => [("confidence", Value.float x)]
      | none => .ok []
    return overwritten ["status"] event.payload ++ confidence ++
      if event.eventType = .assumptionConfirmed then
        [("status", .str "confirmed"), ("validated_at", .str event.timestamp)]
      else []
  updateEntity "assumption_id" event changes
    (ifPresent fun entity => if entity.status = "invalidated" then .leave else .enter)
    state.assumptions

/-- `_handle_assumption_invalidated` -/
def handleAssumptionInvalidated (state : ProjectState) (event : ProjectEvent) :
    Except Exn (Register assumptionFields) :=
  updateEntity "assumption_id" event
    (.ok [("status", .str "invalidated"), ("invalidated_by", .str event.actor)])
    (fun _ => .leave) state.assumptions

/-- `_handle_issue_opened` -/
def handleIssueOpened (state : ProjectState) (event : ProjectEvent) :
    Except Exn (Register issueFields) :=
  let payload := event.payload
  let args : Except Exn Dict := do
    let provenance ← eventProvenance event
    let blocking ← sortedTexts "blocking_task_ids" (getItemD payload "blocking_task_ids" (.list []))
    return [
      ("issue_id", getItem payload "issue_id"),
      ("project_id", .str state.projectId),
      ("title", getItemD payload "title" (.str ("Issue " ++ pyStr (getItem payload "issue_id")))),
      ("description", getItemD payload "description" (.str "")),
      ("severity", getItemD payload "severity" (.str "major")),
      ("status", getItemD payload "status" (.str "open")),
      ("blocking_task_ids", strList blocking),
      ("resolution", getItem payload "resolution"),
      ("provenance", provenance),
      ("created_at", .str event.timestamp)]
  createEntity "issue_id" event args (moveByStatus [] ["open", "investigating"]) state.issues

/-- `_handle_issue_updated` -/
def handleIssueUpdated (state : ProjectState) (event : ProjectEvent) :
    Except Exn (Register issueFields) :=
  updateEntity "issue_id" event
    (.ok (overwritten ["title", "description", "severity", "status", "resolution"] event.payload))
    (ifPresent (moveByStatus ["resolved", "closed"] ["open", "investigating"])) state.issues

/-- `_handle_issue_closed`, for `issue.resolved` and `issue.closed` -/
def handleIssueClosed (state : ProjectState) (event : ProjectEvent) :
    Except Exn (Register issueFields) :=
  let status := if event.eventType = .issueResolved then "resolved" else "closed"
  updateEntity "issue_id" event
    (.ok ([("status", .str status), ("resolved_at", .str event.timestamp)] ++
      overwritten ["resolution"] event.payload))
    (fun _ => .leave) state.issues

/-- `_handle_dependency_created` -/
def handleDependencyCreated (state : ProjectState) (event : ProjectEvent) :
    Except Exn (Register dependencyFields) :=
  let payload := event.payload
  let args : Except Exn Dict := do
    let provenance ← eventProvenance event
    return [
      ("dependency_id", getItem payload "dependency_id"),
      ("project_id", .str state.projectId),
      ("source_id", getItemD payload "source_id" (.str "")),
      ("target_id", getItemD payload "target_id" (.str "")),
      ("target_type", getItemD payload "target_type" (.str "task")),
      ("dependency_kind", getItemD payload "dependency_kind" (.str "blocks")),
      ("status", getItemD payload "status" (.str "pending")),
      ("external_ref", getItem payload "external_ref"),
      ("provenance", provenance),
      ("created_at", .str event.timestamp)]
  createEntity "dependency_id" event args
    (fun entity => if entity.status = "satisfied" then .stay else .enter) state.dependencies

/-- `_handle_dependency_updated` -/
def handleDependencyUpdated (state : ProjectState) (event : ProjectEvent) :
    Except Exn (Register dependencyFields) :=
  updateEntity "dependency_id" event (.ok (overwritten ["status"] event.payload))
    (ifPresent fun entity => if entity.status = "satisfied" then .leave else .enter)
    state.dependencies

/-- `_handle_dependency_resolved` -/
def handleDependencyResolved (state : ProjectState) (event : ProjectEvent) :
    Except Exn (Register dependencyFields) :=
  updateEntity "dependency_id" event (.ok [("status", .str "satisfied")])
    (fun _ => .leave) state.dependencies

end PowerFramework.State
