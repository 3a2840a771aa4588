import Mathlib.Data.List.Lex
import Mathlib.Data.String.Basic
import PowerFramework.State.ProjectState
/-!
# The governance engine

Trust in an event, dependency cycles, task readiness, the definitions of ready and done, and the
evaluation of a transition and of a gate override.
-/

namespace PowerFramework.State

open Lib Lib.Failure Lib.Json Ledger

section Trust
variable [PythonText]

/-- `is_untrusted_actor` -/
def isUntrustedActor (actor : String) : Bool :=
  PythonText.casefold (stripText actor) ∈ ["model", "llm", "ai_agent_unverified", "agent:model"]

/-- `is_untrusted_event` -/
def isUntrustedEvent (event : ProjectEvent) : Bool :=
  event.source ∈ ["model_extraction", "agent_inference", "untrusted"] ||
    isUntrustedActor event.actor ||
    ["proposed", "unverified", "quarantined"].any
      (getItem event.payload "verification_status").isText ||
    (getItem event.payload "source_type").isText "agent_inference"

end Trust

/-! ## Dependency cycles -/

/-- The tasks that an explicit dependency puts behind a task. -/
def explicitNeighbor (tasks : Table TaskAuthorityView) (node : String) (dep : Dependency) :
    Option String :=
  let source := dep.text "source_id"
  let target := dep.text "target_id"
  let kind := dep.text "dependency_kind"
  if source ≠ "" ∧ target ≠ "" ∧ source ∈ tasks ∧ target ∈ tasks then
    if kind = "blocks" ∨ kind = "requires" then if target = node then some source else none
    else if kind = "blocked_by" then if source = node then some target else none
    else none
  else none

/-- `sorted(adjacency[node])` -/
def neighbors (tasks : Table TaskAuthorityView) (explicit : List Dependency) (node : String) :
    List String :=
  let declared := (tasks[node]?.map TaskAuthorityView.dependencies).getD []
  sortedSet (declared.filter (· ∈ tasks) ++ explicit.filterMap (explicitNeighbor tasks node))

/-- The cycle turned to start, and end, at its least task. -/
def normalizeCycle (inner : List String) : List String :=
  match inner.mergeSort (· ≤ ·) with
  | [] => []
  | least :: _ =>
      let index := inner.idxOf least
      inner.drop index ++ inner.take index ++ [least]

/-- The search below a node: the visited nodes and the cycles found.  The stack holds distinct
tasks, so it does not grow past their number. -/
def cycleSearch (next : String → List String) :
    Nat → List String → String → List String × List (List String) →
      List String × List (List String)
  | 0, _, _, found => found
  | fuel + 1, stack, node, found =>
      let stack := stack ++ [node]
      (next node).foldl (fun found neighbor =>
        if neighbor ∈ stack then
          let cycle := normalizeCycle (stack.drop (stack.idxOf neighbor))
          (found.1, if cycle ∈ found.2 then found.2 else found.2 ++ [cycle])
        else if neighbor ∈ found.1 then found
        else cycleSearch next fuel stack neighbor found) (node :: found.1, found.2)

/-- `detect_dependency_cycles` -/
def detectDependencyCycles (tasks : Table TaskAuthorityView) (explicit : List Dependency) :
    List (List String) :=
  let found := tasks.keys.foldl (fun found node =>
    if node ∈ found.1 then found
    else cycleSearch (neighbors tasks explicit) tasks.size [] node found) ([], [])
  found.2.mergeSort fun a b => a.length < b.length ∨ (a.length = b.length ∧ a ≤ b)

/-! ## Readiness, ready and done -/

inductive TaskReadinessStatus where
  | ready | blockedDependency | requiresApproval | circularDependency | terminal | inProgress
  deriving DecidableEq, Repr

/-- `evaluate_task_readiness(task, state, cycle_tasks).status` -/
def evaluateTaskReadiness (task : TaskAuthorityView) (state : ProjectState)
    (cycleTasks : List String) : TaskReadinessStatus :=
  if task.terminal then .terminal
  else if task.taskId ∈ cycleTasks then .circularDependency
  else if task.state ∈ ["working", "input-required", "auth-required"] then .inProgress
  else
    let unfinished (id : String) : Bool := (state.tasks[id]?).any (!·.terminal)
    let blocking := task.dependencies.filter unfinished ++
      (state.dependencies.entities.toList.map (·.2)).filterMap fun dep =>
        if dep.text "source_id" = task.taskId ∧
            dep.text "dependency_kind" ∈ ["blocked_by", "requires"] ∧
            dep.text "status" ≠ "satisfied" ∧
            (state.tasks[dep.text "target_id"]?).all (!·.terminal) then
          some (dep.text "target_id")
        else none
    if blocking ≠ [] then .blockedDependency
    else if task.openGates ≠ [] then .requiresApproval
    else .ready

/-- An open issue of severity `blocker` or `critical`. -/
def ProjectState.blockingIssue (state : ProjectState) (issueId : String) : Bool :=
  (state.issues.entities[issueId]?).any fun issue => issue.text "severity" ∈ ["blocker", "critical"]

structure DoREvaluation where
  passed : Bool
  reasonCodes : List String
  failedPreconditions : List String
  deriving DecidableEq, Repr

/-- `evaluate_dor` -/
def evaluateDor (state : ProjectState) (targetPhase : ProjectPhase) : DoREvaluation :=
  if "dor_planning_to_execution" ∈ state.overriddenGates then ⟨true, ["DOR_OVERRIDDEN"], []⟩
  else
    let noTasks : Bool := targetPhase = .execution ∧ state.tasks.isEmpty
    let cyclic : Bool := detectDependencyCycles state.tasks [] ≠ []
    let blocked := state.issues.listed.any state.blockingIssue
    let failedPreconditions :=
      (if noTasks then ["INITIAL_TASKS_NOT_REGISTERED"] else []) ++
        if cyclic then ["CIRCULAR_DEPENDENCY_DETECTED"] else []
    let reasonCodes :=
      (if noTasks then ["BLOCKED_DOR_NO_TASKS"] else []) ++
        (if cyclic then ["BLOCKED_DOR_CYCLE"] else []) ++
        if blocked then ["BLOCKED_DOR_HIGH_SEVERITY_ISSUE"] else []
    ⟨failedPreconditions = [] ∧ reasonCodes = [], sortedSet reasonCodes,
      sortedSet failedPreconditions⟩

structure DoDEvaluation where
  passed : Bool
  reasonCodes : List String
  failedConditions : List String
  deriving DecidableEq, Repr

section
variable [PythonText]

/-- The completion evidence that `evaluate_dod` looks for. -/
def completionEvidence (state : ProjectState) (event : Option ProjectEvent)
    (authority : Option AuthorityContext) : Bool :=
  let views := state.tasks.toList.map (·.2)
  match authority with
  | some authority =>
      let refs := match event with
        | none => []
        | some event =>
            event.evidenceRefs ++
              match getItem event.payload "evidence_refs" with
              | .list items => items.filterMap strOf
              | _ => []
      (refs ≠ [] && refs.all (· ∈ authority.attachedEvidence)) ||
        views.any fun view => view.receiptIds.any (· ∈ authority.verifiedTaskReceipts)
  | none =>
      (event.any fun event =>
        event.evidenceRefs ≠ [] || (getItem event.payload "evidence_refs").truthy) ||
        views.any fun view => view.receiptIds ≠ []

/-- `evaluate_dod`; the target phase is not looked at. -/
def evaluateDod (state : ProjectState) (event : Option ProjectEvent)
    (authority : Option AuthorityContext) : DoDEvaluation :=
  if "dod_execution_to_closing" ∈ state.overriddenGates ∨
      "dod_final_closing" ∈ state.overriddenGates then ⟨true, ["DOD_OVERRIDDEN"], []⟩
  else
    let untrusted := event.any isUntrustedEvent
    let nonTerminal := (state.tasks.toList.filter (!·.2.terminal)).map (·.1)
    let blockingIssues := sortTexts (state.issues.listed.filter state.blockingIssue)
    let pending := (state.decisions.toList.filter (·.2.status = .pending)).map (·.1)
    let missing := !completionEvidence state event authority && !untrusted
    let failedConditions := nonTerminal.map ("TASK_NOT_TERMINAL:" ++ ·) ++
      blockingIssues.map ("UNRESOLVED_ISSUE:" ++ ·)
    let reasonCodes :=
      (if untrusted then ["UNTRUSTED_MODEL_DOD_CLAIM_REJECTED"] else []) ++
        (if nonTerminal ≠ [] then ["DOD_ACTIVE_TASKS_REMAIN"] else []) ++
        (if blockingIssues ≠ [] then ["DOD_UNRESOLVED_BLOCKING_ISSUES"] else []) ++
        (if pending ≠ [] then ["DOD_PENDING_DECISIONS_REMAIN"] else []) ++
        if missing then ["DOD_MISSING_EVIDENCE"] else []
    ⟨failedConditions = [] ∧ untrusted = false ∧ missing = false ∧ pending = [],
      sortedSet reasonCodes, sortedSet failedConditions⟩

end

/-! ## Evaluations -/

inductive GovernanceDecision where
  | allow | deny | requireApproval | requireEvidence
  deriving DecidableEq, Repr

structure GovernanceEvaluation where
  decision : GovernanceDecision
  reasonCodes : List String
  relevantEventIds : List String
  requiredEvidenceRefs : List String
  deriving DecidableEq, Repr

/-- The evaluation of one event with one reason. -/
def refusal (decision : GovernanceDecision) (event : ProjectEvent) (reason : String) :
    GovernanceEvaluation := ⟨decision, [reason], [event.eventId], []⟩

/-- The first refusal of a sequence of checks, or the outcome behind them. -/
def unlessRefused (check : Except Exn (Option GovernanceEvaluation))
    (rest : Except Exn GovernanceEvaluation) : Except Exn GovernanceEvaluation := do
  match ← check with
  | some refused => return refused
  | none => rest

/-- The check refuses when `p` holds. -/
def refuseIf (p : Prop) [Decidable p] (refused : GovernanceEvaluation) :
    Except Exn (Option GovernanceEvaluation) := .ok (if p then some refused else none)

/-- `[ref for ref in refs if ref not in attached_evidence]` -/
def unresolvedRefs (refs : List Value) (attached : List String) : Except Exn (List Value) :=
  refs.filterM fun ref => do
    match ← hashKey ref with
    | some key => return key ∉ attached
    | none => return true

/-- `required_evidence_refs=sorted(set(unresolved))` -/
def refuseUnresolved (event : ProjectEvent) (reason : String) (unresolved : List Value) :
    Except Exn (Option GovernanceEvaluation) :=
  if unresolved = [] then .ok none
  else
    match unresolved.mapM strOf with
    | some texts => .ok (some ⟨.requireEvidence, [reason], [event.eventId], sortedSet texts⟩)
    | none => .error (invalidField "required_evidence_refs")

section
variable [PythonText]

/-- `str(value)` -/
def pyStr : Value → String
  | .str s => s
  | value => PythonText.str value

/-- `payload.get("reason") or payload.get("justification") or ...` -/
def transitionReason (payload : Dict) : Value :=
  (getItem payload "reason").or <| (getItem payload "justification").or <|
    (getItem payload "reopen_justification").or <|
      (getItem payload "replanning_justification").or (getItem payload "closing_failure_reason")

/-- The evidence a transition event refers to. -/
def transitionEvidence (event : ProjectEvent) : Value :=
  (strList event.evidenceRefs).or <| (getItem event.payload "evidence_refs").or <|
    .list (if hasItem event.payload "evidence_ref" then [getItem event.payload "evidence_ref"] else [])

def evidenceCheck (spec : TransitionSpec) (event : ProjectEvent)
    (authority : Option AuthorityContext) : Except Exn (Option GovernanceEvaluation) :=
  if spec.evidenceRequired then
    if (transitionEvidence event).truthy then
      match authority with
      | none => .ok none
      | some authority => do
          let refs ← (transitionEvidence event).iterate
          let unresolved ← unresolvedRefs refs authority.attachedEvidence
          refuseUnresolved event "EVIDENCE_REF_NOT_CANONICALLY_ATTACHED" unresolved
    else .ok (some (refusal .requireEvidence event "MISSING_REQUIRED_EVIDENCE"))
  else .ok none

/-- The decision ids that a payload gives as its approvals. -/
def approvalRefs (payload : Dict) : List String :=
  (match nonBlank (getItem payload "approval_ref") with
    | some ref => [stripText ref]
    | none => []) ++
  match getItem payload "approval_refs" with
  | .list items => items.filterMap nonBlank
  | _ => []

/-- `payload.get("accountable_approval") or payload.get("approved_by")`, when it names the
Accountable. -/
def claimsAccountable (payload : Dict) (authority : AuthorityContext) : Bool :=
  match (getItem payload "accountable_approval").or (getItem payload "approved_by") with
  | .str claimed => authority.accountableActor = some (stripText claimed)
  | _ => false

/-- `_resolve_canonical_approval` -/
def resolveCanonicalApproval (payload : Dict) (state : ProjectState) (authority : AuthorityContext)
    (spec : TransitionSpec) : Bool :=
  let refs := approvalRefs payload
  refs.any (· ∈ authority.approvedDecisionIds) ||
    (refs.any fun ref => (state.decisions[ref]?).any (·.status = .approved) &&
      ref ∈ authority.approvedDecisionIds) ||
    (claimsAccountable payload authority && .accountableApproval ∈ spec.preconditions)

/-- The approval of a transition, canonical or, without authority, merely claimed. -/
def hasApproval (spec : TransitionSpec) (state : ProjectState) (payload : Dict)
    (authority : Option AuthorityContext) : Bool :=
  match authority with
  | some authority => resolveCanonicalApproval payload state authority spec
  | none =>
      (getItem payload "approval_ref").truthy || (getItem payload "approval_refs").truthy ||
        (getItem payload "approved_by").truthy || (getItem payload "accountable_approval").truthy ||
        state.decisions.toList.any (·.2.status = .approved)

/-- One of the texts that give a reason is there. -/
def hasReasonText (payload : Dict) : Bool :=
  ["reason", "justification", "reopen_justification", "replanning_justification",
    "closing_failure_reason", "cancellation_reason", "termination_reason",
    "reversion_justification"].any fun key => (nonBlank (getItem payload key)).isSome

/-- A role that means Accountable. -/
def isAccountableRole (role : String) : Bool :=
  PythonText.casefold (stripText role) ∈ ["accountable", "a"]

/-- `_evaluate_precondition` -/
def evaluatePrecondition (precondition : Precondition) (state : ProjectState) (event : ProjectEvent)
    (authority : AuthorityContext) : Bool :=
  match precondition with
  | .charterPresent =>
      if authority.historical then
        authority.charterEvidenceRefs ≠ [] &&
          authority.charterEvidenceRefs.all (· ∈ authority.attachedEvidence)
      else authority.attachedEvidence.any fun ref =>
        decide ("charter".toList <:+: (PythonText.lower ref).toList)
  | .ownerAssigned =>
      if authority.historical then state.owner.any fun owner => stripText owner ≠ ""
      else authority.accountableActor.isSome || authority.raci.toList.any fun entry =>
        PythonText.casefold (stripText entry.1) = "owner" && entry.2 ≠ []
  | .cancellationReasonProvided | .terminationReasonRecorded | .reversionJustificationRecorded
  | .replanningJustificationRecorded | .reopenJustificationRecorded
  | .closingFailureReasonRecorded => hasReasonText event.payload
  | .dorPassedOrOverridden =>
      "dor_planning_to_execution" ∈ state.overriddenGates || (evaluateDor state .execution).passed
  | .raciAccountableAssigned =>
      authority.raciAccountableCardinalityValid && authority.accountableActor.isSome
  | .initialTasksRegistered => !state.tasks.isEmpty
  | .allTasksTerminal => state.tasks.toList.all (·.2.terminal) && !state.tasks.isEmpty
  | .noBlockingIssues => !state.issues.listed.any state.blockingIssue
  | .dodPassedOrOverridden =>
      "dod_execution_to_closing" ∈ state.overriddenGates ||
        "dod_final_closing" ∈ state.overriddenGates ||
        (evaluateDod state (some event) (some authority)).passed
  | .allDecisionsResolved => state.decisions.toList.all (·.2.status.resolved)
  | .allIssuesResolvedOrWaived => state.issues.listed = []
  | .accountableApproval => claimsAccountable event.payload authority

/-- The declared preconditions, in their order. -/
def preconditionCheck (spec : TransitionSpec) (state : ProjectState) (event : ProjectEvent)
    (authority : Option AuthorityContext) : Option GovernanceEvaluation :=
  match authority with
  | none => none
  | some authority =>
      (spec.preconditions.find? fun precondition =>
        !evaluatePrecondition precondition state event authority).map fun precondition =>
          refusal .deny event ("PRECONDITION_FAILED:" ++ precondition.text)

/-- The quality gate of the transition: overridden, or its definition evaluated. -/
def gateOutcome (spec : TransitionSpec) (state : ProjectState) (toPhase : ProjectPhase)
    (event : ProjectEvent) (authority : Option AuthorityContext) : GovernanceEvaluation :=
  let allowed (reasons : List String) : GovernanceEvaluation :=
    ⟨.allow, sortTexts (reasons ++ ["TRANSITION_ALLOWED"]), [event.eventId], []⟩
  let denied (reasons : List String) (default : String) : GovernanceEvaluation :=
    ⟨.deny, sortTexts (if reasons = [] then [default] else reasons), [event.eventId], []⟩
  match spec.requiredGate with
  | none => allowed []
  | some gate =>
      if gate.text ∈ state.overriddenGates then allowed ["GATE_OVERRIDDEN:" ++ gate.text]
      else if gate.isDor then
        let dor := evaluateDor state toPhase
        if dor.passed then allowed [] else denied dor.reasonCodes "DOR_QUALITY_GATE_FAILED"
      else
        let dod := evaluateDod state (some event) authority
        if dod.passed then allowed [] else denied dod.reasonCodes "DOD_QUALITY_GATE_FAILED"

/-- `evaluate_transition` -/
def evaluateTransition (state : ProjectState) (toPhase : ProjectPhase) (event : ProjectEvent)
    (authority : Option AuthorityContext) : Except Exn GovernanceEvaluation :=
  unlessRefused (refuseIf (isUntrustedEvent event)
    (refusal .deny event "UNTRUSTED_MODEL_TRANSITION_PROHIBITED")) <|
  unlessRefused (refuseIf (state.currentPhase = .closed ∧ event.eventType ≠ .projectReopened)
    (refusal .deny event "CLOSED_PROJECT_REQUIRES_EXPLICIT_REOPEN")) <|
  match legalTransition? state.currentPhase toPhase with
  | none => .ok (refusal .deny event "ILLEGAL_LIFECYCLE_TRANSITION")
  | some spec =>
      unlessRefused (refuseIf (authority.any (!·.raciAccountableCardinalityValid))
        (refusal .deny event "RACI_ACCOUNTABLE_CARDINALITY_VIOLATION")) <|
      unlessRefused (refuseIf (spec.isRollback ∧
          ((transitionReason event.payload).truthy = false ∨
            stripText (pyStr (transitionReason event.payload)) = ""))
        (refusal .deny event "MISSING_TRANSITION_REASON")) <|
      unlessRefused (evidenceCheck spec event authority) <|
      unlessRefused (refuseIf (spec.approvalRequired ∧
          hasApproval spec state event.payload authority = false)
        (refusal .requireApproval event "MISSING_REQUIRED_APPROVAL")) <|
      unlessRefused (.ok (preconditionCheck spec state event authority)) <|
      .ok (gateOutcome spec state toPhase event authority)

/-- The checks of a gate override against an authority. -/
def evaluateCanonicalOverride (event : ProjectEvent) (authority : AuthorityContext) :
    Except Exn GovernanceEvaluation :=
  let reason := (getItemD event.payload "reason" (.str "")).or
    (getItemD event.payload "justification" (.str ""))
  let evidence := (strList event.evidenceRefs).or <|
    (getItem event.payload "evidence_refs").or (.list [])
  let overriddenBy := nonBlank ((getItem event.payload "overridden_by").or (.str event.actor))
  let approvedBy := nonBlank (getItem event.payload "approved_by")
  let authorizedActors := authority.raci.toList.flatMap fun entry =>
    if PythonText.casefold (stripText entry.1) ∈ authorizedOverrideRoles then entry.2 else []
  let evidenceCheck : Except Exn (Option GovernanceEvaluation) :=
    if authority.historical then
      match evidence with
      | .list [] => .ok (some (refusal .requireEvidence event "MISSING_OVERRIDE_EVIDENCE"))
      | .list refs => do
          let unresolved ← unresolvedRefs refs authority.attachedEvidence
          refuseUnresolved event "OVERRIDE_EVIDENCE_NOT_CANONICAL" unresolved
      | _ => .ok (some (refusal .requireEvidence event "MISSING_OVERRIDE_EVIDENCE"))
    else .ok none
  unlessRefused (refuseIf (authority.historical ∧ authority.raciAccountableCardinalityValid = false)
    (refusal .deny event "RACI_ACCOUNTABLE_CARDINALITY_VIOLATION")) <|
  unlessRefused (refuseIf (authority.historical ∧ authority.accountableActor = none)
    (refusal .deny event "RACI_ACCOUNTABLE_REQUIRED_FOR_OVERRIDE")) <|
  unlessRefused evidenceCheck <|
  unlessRefused (refuseIf (overriddenBy = none)
    (refusal .deny event "MISSING_OVERRIDE_ACTOR")) <|
  unlessRefused (refuseIf (reason.truthy = false ∨ stripText (pyStr reason) = "")
    (refusal .deny event "MISSING_OVERRIDE_REASON")) <|
  unlessRefused (refuseIf (approvedBy = none)
    (refusal .deny event "MISSING_OVERRIDE_APPROVAL")) <|
  unlessRefused (refuseIf (stripText (overriddenBy.getD "") ∉ authorizedActors)
    (refusal .deny event "UNAUTHORIZED_OVERRIDE_ACTOR")) <|
  unlessRefused (refuseIf (¬ (stripText (approvedBy.getD "") = authority.accountableActor.getD "" ∨
      stripText (approvedBy.getD "") ∈ authority.approvedDecisionIds))
    (refusal .deny event "OVERRIDE_APPROVAL_NOT_CANONICAL")) <|
  .ok ⟨.allow, ["GATE_OVERRIDE_AUTHORIZED"], [event.eventId], []⟩

/-- `payload.get("gate") or payload.get("gate_name")` -/
def overrideGate (event : ProjectEvent) : Value :=
  (getItem event.payload "gate").or (getItem event.payload "gate_name")

/-- `evaluate_gate_override` -/
def evaluateGateOverride (event : ProjectEvent) (authority : Option AuthorityContext) :
    Except Exn GovernanceEvaluation :=
  unlessRefused (refuseIf (isUntrustedEvent event)
    (refusal .deny event "UNTRUSTED_MODEL_OVERRIDE_PROHIBITED")) <|
  unlessRefused (refuseIf ((overrideGate event).truthy = false)
    (refusal .deny event "MISSING_OVERRIDE_GATE_NAME")) <|
  match authority with
  | some authority => evaluateCanonicalOverride event authority
  | none => do
      let reason := (getItemD event.payload "reason" (.str "")).or
        (getItemD event.payload "justification" (.str ""))
      let role ← hashKey (getItemD event.payload "role" (.str ""))
      unlessRefused (refuseIf (role.all (· ∉ authorizedOverrideRoles) ∧
          event.actor ∉ authorizedOverrideRoles)
        (refusal .deny event "UNAUTHORIZED_OVERRIDE_ACTOR")) <|
      unlessRefused (refuseIf (reason.truthy = false ∨ stripText (pyStr reason) = "")
        (refusal .deny event "MISSING_OVERRIDE_REASON")) <|
      .ok ⟨.allow, ["GATE_OVERRIDE_AUTHORIZED"], [event.eventId], []⟩

end

/-! ## Health -/

/-- `evaluate_health_flags` -/
def evaluateHealthFlags (state : ProjectState) (cycles : List (List String)) : List String :=
  let highRisk (riskId : String) : Bool := (state.risks.entities[riskId]?).any fun risk =>
    decide (risk.text "impact" ∈ ["critical", "high"]) && risk.text "status" = "identified"
  sortedSet (
    (if state.issues.listed.any state.blockingIssue then ["BLOCKING_ISSUES_PRESENT"] else []) ++
    (if state.risks.listed.any highRisk then ["HIGH_RISKS_OPEN"] else []) ++
    (if cycles ≠ [] then ["CIRCULAR_DEPENDENCY_DETECTED"] else []) ++
    (if state.blockedTasks ≠ [] then ["BLOCKED_TASKS_PRESENT"] else []) ++
    if state.requiredApprovals ≠ [] then ["UNRESOLVED_GOVERNANCE_REQUIREMENTS"] else [])

end PowerFramework.State
