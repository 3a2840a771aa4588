import Mathlib.Data.List.Sort
import PowerFramework.Ledger.Acceptance
/-!
# The project lifecycle

The six phases, the seventeen legal transitions with what each of them requires, and the digest
of the governance rules that an evaluation is bound to.
-/

namespace PowerFramework.State

open Lib Lib.Json Ledger

/-- `ProjectPhase` -/
inductive ProjectPhase where
  | discovery | planning | execution | monitoring | closing | closed
  deriving DecidableEq, Repr

def ProjectPhase.text : ProjectPhase → String
  | .discovery => "DISCOVERY"
  | .planning => "PLANNING"
  | .execution => "EXECUTION"
  | .monitoring => "MONITORING"
  | .closing => "CLOSING"
  | .closed => "CLOSED"

def ProjectPhase.all : List ProjectPhase :=
  [.discovery, .planning, .execution, .monitoring, .closing, .closed]

/-- `ProjectPhase(text)` -/
def ProjectPhase.ofText? (text : String) : Option ProjectPhase :=
  ProjectPhase.all.find? fun phase => phase.text = text

theorem ProjectPhase.ofText?_text (phase : ProjectPhase) : ofText? phase.text = some phase := by
  cases phase <;> decide

theorem ProjectPhase.text_injective {a b : ProjectPhase} (h : a.text = b.text) : a = b := by
  have hread := congrArg ofText? h
  rw [ofText?_text, ofText?_text] at hread
  exact Option.some.inj hread

/-- The declared preconditions of the transitions. -/
inductive Precondition where
  | charterPresent | ownerAssigned | cancellationReasonProvided | dorPassedOrOverridden
  | raciAccountableAssigned | initialTasksRegistered | reversionJustificationRecorded
  | replanningJustificationRecorded | allTasksTerminal | noBlockingIssues
  | terminationReasonRecorded | closingFailureReasonRecorded | dodPassedOrOverridden
  | allDecisionsResolved | allIssuesResolvedOrWaived | reopenJustificationRecorded
  | accountableApproval
  deriving DecidableEq, Repr

def Precondition.text : Precondition → String
  | .charterPresent => "charter_present"
  | .ownerAssigned => "owner_assigned"
  | .cancellationReasonProvided => "cancellation_reason_provided"
  | .dorPassedOrOverridden => "dor_passed_or_overridden"
  | .raciAccountableAssigned => "raci_accountable_assigned"
  | .initialTasksRegistered => "initial_tasks_registered"
  | .reversionJustificationRecorded => "reversion_justification_recorded"
  | .replanningJustificationRecorded => "replanning_justification_recorded"
  | .allTasksTerminal => "all_tasks_terminal"
  | .noBlockingIssues => "no_blocking_issues"
  | .terminationReasonRecorded => "termination_reason_recorded"
  | .closingFailureReasonRecorded => "closing_failure_reason_recorded"
  | .dodPassedOrOverridden => "dod_passed_or_overridden"
  | .allDecisionsResolved => "all_decisions_resolved"
  | .allIssuesResolvedOrWaived => "all_issues_resolved_or_waived"
  | .reopenJustificationRecorded => "reopen_justification_recorded"
  | .accountableApproval => "accountable_approval"

/-- The quality gates. -/
inductive Gate where
  | dorDiscoveryToPlanning | dorPlanningToExecution | dodExecutionToClosing | dodFinalClosing
  deriving DecidableEq, Repr

def Gate.text : Gate → String
  | .dorDiscoveryToPlanning => "dor_discovery_to_planning"
  | .dorPlanningToExecution => "dor_planning_to_execution"
  | .dodExecutionToClosing => "dod_execution_to_closing"
  | .dodFinalClosing => "dod_final_closing"

/-- `"dor" in required_gate`; every other gate has `"dod"` in it. -/
def Gate.isDor : Gate → Bool
  | .dorDiscoveryToPlanning | .dorPlanningToExecution => true
  | .dodExecutionToClosing | .dodFinalClosing => false

structure TransitionSpec where
  fromPhase : ProjectPhase
  toPhase : ProjectPhase
  name : String
  preconditions : List Precondition
  requiredGate : Option Gate
  approvalRequired : Bool
  evidenceRequired : Bool
  isRollback : Bool
  deriving DecidableEq, Repr

/-- `LEGAL_TRANSITIONS` -/
def legalTransitions : List TransitionSpec := [
  ⟨.discovery, .planning, "advance_to_planning", [.charterPresent, .ownerAssigned],
    some .dorDiscoveryToPlanning, false, true, false⟩,
  ⟨.discovery, .closed, "cancel_during_discovery", [.cancellationReasonProvided],
    none, true, true, false⟩,
  ⟨.planning, .execution, "start_execution",
    [.dorPassedOrOverridden, .raciAccountableAssigned, .initialTasksRegistered],
    some .dorPlanningToExecution, true, true, false⟩,
  ⟨.planning, .discovery, "revert_to_discovery", [.reversionJustificationRecorded],
    none, true, true, true⟩,
  ⟨.planning, .closed, "cancel_during_planning", [.cancellationReasonProvided],
    none, true, true, false⟩,
  ⟨.execution, .monitoring, "enter_monitoring", [], none, false, false, false⟩,
  ⟨.execution, .planning, "replanning_from_execution", [.replanningJustificationRecorded],
    none, true, true, true⟩,
  ⟨.execution, .closing, "begin_closing", [.allTasksTerminal, .noBlockingIssues],
    some .dodExecutionToClosing, false, true, false⟩,
  ⟨.execution, .closed, "abort_execution", [.terminationReasonRecorded],
    none, true, true, false⟩,
  ⟨.monitoring, .execution, "resume_active_execution", [], none, false, false, false⟩,
  ⟨.monitoring, .planning, "replanning_from_monitoring", [.replanningJustificationRecorded],
    none, true, true, true⟩,
  ⟨.monitoring, .closing, "conclude_from_monitoring", [.allTasksTerminal, .noBlockingIssues],
    some .dodExecutionToClosing, false, true, false⟩,
  ⟨.monitoring, .closed, "terminate_from_monitoring", [.terminationReasonRecorded],
    none, true, true, false⟩,
  ⟨.closing, .execution, "reject_closing_to_execution", [.closingFailureReasonRecorded],
    none, false, true, true⟩,
  ⟨.closing, .closed, "finalize_close",
    [.dodPassedOrOverridden, .allTasksTerminal, .allDecisionsResolved, .allIssuesResolvedOrWaived],
    some .dodFinalClosing, true, true, false⟩,
  ⟨.closed, .planning, "reopen_to_planning", [.reopenJustificationRecorded, .accountableApproval],
    none, true, true, true⟩,
  ⟨.closed, .execution, "reopen_to_execution", [.reopenJustificationRecorded, .accountableApproval],
    none, true, true, true⟩]

/-- `LEGAL_TRANSITIONS.get((from_phase, to_phase))` -/
def legalTransition? (fromPhase toPhase : ProjectPhase) : Option TransitionSpec :=
  legalTransitions.find? fun spec => spec.fromPhase = fromPhase ∧ spec.toPhase = toPhase

theorem legalTransition?_some {fromPhase toPhase : ProjectPhase} {spec : TransitionSpec}
    (h : legalTransition? fromPhase toPhase = some spec) :
    spec ∈ legalTransitions ∧ spec.fromPhase = fromPhase ∧ spec.toPhase = toPhase := by
  refine ⟨List.mem_of_find?_eq_some h, ?_⟩
  simpa using List.find?_some h

/-- The phases a definition-of-ready evaluation can be about, and the others. -/
def dorPhases : List ProjectPhase := [.planning, .execution]

def dodPhases : List ProjectPhase := [.closing, .closed]

/-- A gate is of the kind of its transition's target phase. -/
theorem isDor_of_legalTransition {spec : TransitionSpec} (h : spec ∈ legalTransitions)
    {gate : Gate} (hgate : spec.requiredGate = some gate) :
    (gate.isDor = true ↔ spec.toPhase ∈ dorPhases) ∧
      (gate.isDor = false ↔ spec.toPhase ∈ dodPhases) := by
  have hall : ∀ spec ∈ legalTransitions, ∀ gate, spec.requiredGate = some gate →
      (gate.isDor = true ↔ spec.toPhase ∈ dorPhases) ∧
        (gate.isDor = false ↔ spec.toPhase ∈ dodPhases) := by
    simp only [legalTransitions, List.forall_mem_cons, List.not_mem_nil, false_implies,
      implies_true, and_true]
    refine ⟨?_, ?_, ?_, ?_, ?_, ?_, ?_, ?_, ?_, ?_, ?_, ?_, ?_, ?_, ?_, ?_, ?_⟩ <;>
      · rintro gate hgate
        cases hgate <;> decide
  exact hall spec h gate hgate

/-- `AUTHORIZED_OVERRIDE_ROLES`, sorted -/
def authorizedOverrideRoles : List String := ["accountable", "admin", "architect", "lead"]

def governanceRulesVersion : String := "1.0.0"

/-! ## The rules digest -/

def optGate : Option Gate → Value
  | none => .null
  | some gate => .str gate.text

/-- One transition in the manifest. -/
def TransitionSpec.manifest (spec : TransitionSpec) : Value := .dict (dictFrom [
  ("name", .str spec.name),
  ("from_phase", .str spec.fromPhase.text),
  ("to_phase", .str spec.toPhase.text),
  ("preconditions", strList ((spec.preconditions.map Precondition.text).insertionSort (· ≤ ·))),
  ("required_gate", optGate spec.requiredGate),
  ("approval_required", .bool spec.approvalRequired),
  ("evidence_required", .bool spec.evidenceRequired),
  ("is_rollback", .bool spec.isRollback)])

/-- The transitions in the order of the names of their phases. -/
def sortedTransitions : List TransitionSpec := legalTransitions.insertionSort fun a b =>
  a.fromPhase.text < b.fromPhase.text ∨
    (a.fromPhase.text = b.fromPhase.text ∧ a.toPhase.text ≤ b.toPhase.text)

def healthRule (condition severity : String) : Value := .dict (dictFrom [
  ("condition", .str condition), ("severity", .str severity)])

/-- `build_rules_manifest()`, whose lists `normalize_rules_manifest` sorts once more. -/
def rulesManifest : Value := .dict (dictFrom [
  ("schema_version", .str "power.governance-rules.v1"),
  ("rules_version", .str governanceRulesVersion),
  ("name", .str "POWER Project State Engine Governance Rules v1"),
  ("description", .str ("Deterministic declarative governance and quality gate rules for POWER " ++
    "3.8 PSE Phase 4.")),
  ("fsm", .dict (dictFrom [
    ("states", strList (ProjectPhase.all.map ProjectPhase.text)),
    ("transitions_count", .int legalTransitions.length),
    ("transitions", .list (sortedTransitions.map TransitionSpec.manifest))])),
  ("dor_rules", .dict (dictFrom [
    ("require_initial_tasks", .bool true),
    ("require_no_circular_dependencies", .bool true),
    ("blocking_issue_severities", strList ["blocker", "critical"])])),
  ("dod_rules", .dict (dictFrom [
    ("require_all_tasks_terminal", .bool true),
    ("require_all_decisions_resolved", .bool true),
    ("require_no_blocking_issues", .bool true),
    ("require_canonical_completion_evidence", .bool true),
    ("untrusted_model_statements_strictly_disallowed", .bool true)])),
  ("override_policy", .dict (dictFrom [
    ("authorized_roles", strList authorizedOverrideRoles),
    ("require_reason", .bool true),
    ("require_evidence", .bool true),
    ("allow_model_override", .bool false)])),
  ("health_rules", .dict (dictFrom [
    ("BLOCKING_ISSUES_PRESENT",
      healthRule "open_issues contains severity in [blocker, critical]" "CRITICAL"),
    ("HIGH_RISKS_OPEN", healthRule
      "open_risks contains impact in [critical, high] with status == identified" "HIGH"),
    ("CIRCULAR_DEPENDENCY_DETECTED",
      healthRule "directed cycle detected in task or project dependency graph" "CRITICAL"),
    ("BLOCKED_TASKS_PRESENT", healthRule "count(blocked_tasks) > 0" "MEDIUM"),
    ("UNRESOLVED_GOVERNANCE_REQUIREMENTS", healthRule "count(required_approvals) > 0" "HIGH")])),
  ("temporal_authority", .dict (dictFrom [
    ("historical_source", .str "canonical PSE evaluation evidence at or before event sequence"),
    ("current_overlay_source", .str "current TaskStore and DecisionService snapshots"),
    ("future_authority_is_invalid", .bool true)]))])

/-- `hashlib.sha256(canonical_json_bytes(manifest)).hexdigest()` of a manifest that has canonical
JSON. -/
def manifestDigest (manifest : Value) : String :=
  match sha256Canonical manifest with
  | .ok digest => digest
  | .error _ => ""

/-- `RULES_DIGEST` -/
def rulesDigest : String := manifestDigest rulesManifest

theorem canonical_bool (b : Bool) : Canonical (.bool b) := canonical_iff.mpr ⟨rfl, _, rfl⟩

theorem canonical_dictFrom {items : List (String × Value)} (h : ∀ item ∈ items, Canonical item.2) :
    Canonical (.dict (dictFrom items)) :=
  canonical_dict.mpr fun item hitem => h item (mem_dictFrom hitem)

theorem canonical_manifest (spec : TransitionSpec) : Canonical spec.manifest := by
  apply canonical_dictFrom
  simp only [List.forall_mem_cons, List.not_mem_nil, false_implies, implies_true, and_true,
    canonical_str, canonical_bool, canonical_strList, true_and]
  cases spec.requiredGate
  · exact canonical_iff.mpr ⟨rfl, _, rfl⟩
  · exact canonical_str _

theorem canonical_healthRule (condition severity : String) :
    Canonical (healthRule condition severity) := by
  apply canonical_dictFrom
  simp only [List.forall_mem_cons, List.not_mem_nil, false_implies, implies_true, and_true,
    canonical_str]

theorem canonical_rulesManifest : Canonical rulesManifest := by
  have hcount : Canonical (.int legalTransitions.length) := canonical_int.mpr (by rw [Printable]; decide)
  have hlist : Canonical (.list (sortedTransitions.map TransitionSpec.manifest)) := by
    apply canonical_list
    simp only [List.forall_mem_map, canonical_manifest, implies_true]
  apply canonical_dictFrom
  simp only [List.forall_mem_cons, List.not_mem_nil, false_implies, implies_true, and_true,
    canonical_str, true_and]
  refine ⟨?_, ?_, ?_, ?_, ?_, ?_⟩ <;>
    · apply canonical_dictFrom
      simp only [List.forall_mem_cons, List.not_mem_nil, false_implies, implies_true, and_true,
        canonical_str, canonical_bool, canonical_strList, canonical_healthRule, hcount, hlist]

theorem isHash_manifestDigest {manifest : Value} (h : Canonical manifest) :
    isHash (manifestDigest manifest) = true := by
  obtain ⟨digest, hdigest⟩ := sha256Canonical_ok h
  rw [manifestDigest, hdigest]
  exact isHash_of_sha256Canonical hdigest

theorem isHash_rulesDigest : isHash rulesDigest = true := isHash_manifestDigest canonical_rulesManifest

theorem rulesDigest_ne : rulesDigest ≠ "" := by
  intro h
  have hhash := isHash_rulesDigest
  rw [h] at hhash
  exact absurd hhash (by decide)

attribute [irreducible] rulesDigest

end PowerFramework.State
