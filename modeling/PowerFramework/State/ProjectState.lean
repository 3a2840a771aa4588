import PowerFramework.State.Entities
import PowerFramework.State.Views
/-!
# The project state

The state a ledger is reduced to.  Its dicts are tree maps, so that equal dicts are equal; its
lists are kept in the order the reducer writes them.
-/

namespace PowerFramework.State

open Lib Lib.Failure Lib.Json Ledger

abbrev Table (α : Type) := Std.ExtTreeMap String α

def tableValue {α : Type} (value : α → Value) (table : Table α) : Value :=
  .dict (table.toList.map fun entry => (entry.1, value entry.2))

/-- A dict of entities with the list of those that are open or active. -/
structure Register (fields : List Field) where
  entities : Table (Record fields)
  listed : List String

def Register.empty (fields : List Field) : Register fields := ⟨∅, []⟩

/-- The fields that `_compute_projections` derives from the others. -/
structure Projections where
  activeTasks : List String
  readyTasks : List String
  blockedTasks : List String
  validDecisions : List String
  supersededDecisions : List String
  recentChanges : List String
  requiredApprovals : List String
  stateRevision : String

/-- `ProjectState`; `risks` also has `open_risks`, `issues` has `open_issues`, `assumptions` has
`active_assumptions` and `dependencies` has `active_dependencies`. -/
structure ProjectState extends Projections where
  projectId : String
  currentPhase : ProjectPhase
  owner : Option String
  phaseHistory : List PhaseTransitionRecord
  healthFlags : List String
  rulesVersion : String
  rulesDigest : String
  lastEventSequence : Nat
  lastEventHash : String
  raci : Table (List String)
  evidenceKinds : Table String
  attachedEvidence : List String
  tasks : Table TaskAuthorityView
  decisions : Table DecisionAuthorityView
  historicalApprovedDecisions : Table Nat
  historicalTaskReceipts : Table Nat
  historicalEvaluations : List String
  historicalGateEvaluations : Table Nat
  historicalGateOrigins : Table String
  risks : Register riskFields
  issues : Register issueFields
  assumptions : Register assumptionFields
  dependencies : Register dependencyFields
  overriddenGates : List String
  contributingEvents : List String

def stateSchemaVersion : String := "power.project-state.v1"

def Projections.initial : Projections where
  activeTasks := []
  readyTasks := []
  blockedTasks := []
  validDecisions := []
  supersededDecisions := []
  recentChanges := []
  requiredApprovals := []
  stateRevision := String.ofList (List.replicate 64 '0')

/-- `ProjectState(project_id=..., current_phase=DISCOVERY, ...)` -/
def ProjectState.initial (projectId rulesVersion : String) : ProjectState where
  toProjections := .initial
  projectId := projectId
  currentPhase := .discovery
  owner := none
  phaseHistory := []
  healthFlags := []
  rulesVersion := rulesVersion
  rulesDigest := State.rulesDigest
  lastEventSequence := 0
  lastEventHash := ""
  raci := ∅
  evidenceKinds := ∅
  attachedEvidence := []
  tasks := ∅
  decisions := ∅
  historicalApprovedDecisions := ∅
  historicalTaskReceipts := ∅
  historicalEvaluations := []
  historicalGateEvaluations := ∅
  historicalGateOrigins := ∅
  risks := .empty _
  issues := .empty _
  assumptions := .empty _
  dependencies := .empty _
  overriddenGates := []
  contributingEvents := []

/-- The fields of `state.model_dump()` but `state_revision`, in key order. -/
def ProjectState.revisionDump (state : ProjectState) : Dict := [
  ("active_assumptions", strList state.assumptions.listed),
  ("active_dependencies", strList state.dependencies.listed),
  ("active_tasks", strList state.activeTasks),
  ("assumptions", tableValue Record.modelDump state.assumptions.entities),
  ("attached_evidence", strList state.attachedEvidence),
  ("blocked_tasks", strList state.blockedTasks),
  ("contributing_events", strList state.contributingEvents),
  ("current_phase", .str state.currentPhase.text),
  ("decisions", tableValue (fun view => .dict view.modelDump) state.decisions),
  ("dependencies", tableValue Record.modelDump state.dependencies.entities),
  ("evidence_kinds", tableValue .str state.evidenceKinds),
  ("health_flags", strList state.healthFlags),
  ("historical_approved_decisions",
    tableValue (fun (sequence : Nat) => .int sequence) state.historicalApprovedDecisions),
  ("historical_evaluations", strList state.historicalEvaluations),
  ("historical_gate_evaluations",
    tableValue (fun (sequence : Nat) => .int sequence) state.historicalGateEvaluations),
  ("historical_gate_origins", tableValue .str state.historicalGateOrigins),
  ("historical_task_receipts",
    tableValue (fun (sequence : Nat) => .int sequence) state.historicalTaskReceipts),
  ("issues", tableValue Record.modelDump state.issues.entities),
  ("last_event_hash", .str state.lastEventHash),
  ("last_event_sequence", .int state.lastEventSequence),
  ("open_issues", strList state.issues.listed),
  ("open_risks", strList state.risks.listed),
  ("overridden_gates", strList state.overriddenGates),
  ("owner", optValue state.owner),
  ("phase_history", .list (state.phaseHistory.map fun record => .dict record.modelDump)),
  ("project_id", .str state.projectId),
  ("raci", tableValue strList state.raci),
  ("ready_tasks", strList state.readyTasks),
  ("recent_changes", strList state.recentChanges),
  ("required_approvals", strList state.requiredApprovals),
  ("risks", tableValue Record.modelDump state.risks.entities),
  ("rules_digest", .str state.rulesDigest),
  ("rules_version", .str state.rulesVersion),
  ("schema_version", .str stateSchemaVersion),
  ("superseded_decisions", strList state.supersededDecisions),
  ("tasks", tableValue (fun view => .dict view.modelDump) state.tasks),
  ("valid_decisions", strList state.validDecisions)]

/-- `compute_state_revision(state.model_dump())` -/
def computeStateRevision (state : ProjectState) : Except Exn String :=
  sha256Canonical (.dict state.revisionDump)

/-- `state.model_dump()` -/
def ProjectState.modelDump (state : ProjectState) : Dict :=
  setItem "state_revision" (.str state.stateRevision) state.revisionDump

/-- `AuthorityContext`; of the lists that stand for sets only the members matter. -/
structure AuthorityContext where
  attachedEvidence : List String
  approvedDecisionIds : List String
  raci : Table (List String)
  accountableActor : Option String
  verifiedTaskReceipts : List String
  permitAccountableApproval : Bool
  historical : Bool
  charterEvidenceRefs : List String
  raciAccountableCardinalityValid : Bool

/-- `authority is not None and authority.historical` -/
def historicalIn : Option AuthorityContext → Bool
  | some authority => authority.historical
  | none => false

/-- `text.strip()` -/
def stripText (text : String) : String := String.ofList (strip text.toList)

/-- `isinstance(value, str) and value.strip()`, with the text it then has. -/
def nonBlank : Value → Option String
  | .str s => if stripText s = "" then none else some s
  | _ => none

end PowerFramework.State
