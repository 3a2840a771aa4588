import PowerFramework.State.Phases
import PowerFramework.State.Record
/-!
# Authority views and evaluations

The projections of tasks and decisions that the state holds, the evaluation record that a
`dor.evaluated` or `dod.evaluated` event carries, and the record of a phase transition.
-/

namespace PowerFramework.State

open Lib Lib.Failure Lib.Json Ledger

/-- `sorted(texts)` -/
def sortTexts (texts : List String) : List String := texts.mergeSort (· ≤ ·)

/-- `sorted(value)` for a `list[str]` field.  What does not iterate, does not compare or is no
string is refused, by `sorted` or by the model that is given the result. -/
def sortedTexts (field : String) (value : Value) : Except Exn (List String) := do
  let items ← value.iterate
  match items.mapM strOf with
  | some texts => return sortTexts texts
  | none => .error (invalidField field)

/-- A field whose text is one of an enumeration. -/
def choiceField {α : Type} (ofText? : String → Option α) (d : Dict) (field : String) :
    Except Exn α :=
  match d.lookup field with
  | some (.str s) =>
      match ofText? s with
      | some choice => .ok choice
      | none => .error (invalidField field)
  | some _ => .error (invalidField field)
  | none => .error (missingField field)

/-- A list of models, empty by default. -/
def modelListField {α : Type} (read : Dict → Except Exn α) (d : Dict) (field : String) :
    Except Exn (List α) :=
  let readItem : Value → Except Exn α
    | .dict items => read items
    | _ => .error (invalidField field)
  match d.lookup field with
  | some (.list items) => items.mapM readItem
  | some (.tuple items) => items.mapM readItem
  | some _ => .error (invalidField field)
  | none => .ok []

/-! ## Tasks -/

/-- `TaskAuthorityView` -/
structure TaskAuthorityView where
  taskId : String
  state : String
  revision : Nat
  digest : String
  sourceIdentity : String
  dependencies : List String
  openGates : List String
  receiptIds : List String
  deriving DecidableEq, Repr

/-- `TERMINAL_STATES` -/
def terminalStates : List String := ["completed", "failed", "canceled", "rejected"]

def TaskAuthorityView.terminal (view : TaskAuthorityView) : Bool := view.state ∈ terminalStates

/-- `TaskAuthorityView.compute_digest` -/
def TaskAuthorityView.computeDigest (taskId state : Value) (revision : Int)
    (dependencies openGates receiptIds : List String) : Except Exn String :=
  sha256Canonical (.dict [
    ("dependencies", strList (sortTexts dependencies)),
    ("open_gates", strList (sortTexts openGates)),
    ("receipt_ids", strList (sortTexts receiptIds)),
    ("revision", .int revision),
    ("state", state),
    ("task_id", taskId)])

/-- The digest of the view's own fields. -/
def TaskAuthorityView.expectedDigest (view : TaskAuthorityView) : Except Exn String :=
  computeDigest (.str view.taskId) (.str view.state) view.revision view.dependencies view.openGates
    view.receiptIds

def taskViewFields : List String := ["task_id", "state", "revision", "digest", "source_identity",
  "dependencies", "open_gates", "receipt_ids"]

def TaskAuthorityView.modelDump (view : TaskAuthorityView) : Dict := [
  ("dependencies", strList view.dependencies),
  ("digest", .str view.digest),
  ("open_gates", strList view.openGates),
  ("receipt_ids", strList view.receiptIds),
  ("revision", .int view.revision),
  ("source_identity", .str view.sourceIdentity),
  ("state", .str view.state),
  ("task_id", .str view.taskId)]

/-- `TaskAuthorityView.model_validate` -/
def TaskAuthorityView.readFields [LaxInt] (d : Dict) : Except Exn TaskAuthorityView := do
  let taskId ← strField d "task_id" (lengthBetween 128)
  let state ← strField d "state" (lengthBetween 64)
  let revision ← positiveField d "revision" (some 1)
  let digest ← strField d "digest" isHash
  let sourceIdentity ← strFieldD d "source_identity" "TaskStore:v2" (lengthBetween 128)
  let dependencies ← strListField d "dependencies"
  let openGates ← strListField d "open_gates"
  let receiptIds ← strListField d "receipt_ids"
  noExtras d taskViewFields
  return { taskId, state, revision, digest, sourceIdentity, dependencies, openGates, receiptIds }

/-! ## Decisions -/

/-- `DecisionStatus` -/
inductive DecisionStatus where
  | pending | approved | rejected | expired
  deriving DecidableEq, Repr

def DecisionStatus.text : DecisionStatus → String
  | .pending => "pending"
  | .approved => "approved"
  | .rejected => "rejected"
  | .expired => "expired"

def DecisionStatus.ofText? (text : String) : Option DecisionStatus :=
  [pending, approved, rejected, expired].find? fun status => status.text = text

/-- `RESOLVED_DECISION_STATUSES` -/
def DecisionStatus.resolved : DecisionStatus → Bool
  | .pending => false
  | .approved | .rejected | .expired => true

/-- `DecisionAuthorityView` -/
structure DecisionAuthorityView where
  decisionId : String
  status : DecisionStatus
  taskId : Option String
  taskRevision : Nat
  revision : Nat
  digest : String
  sourceIdentity : String
  receiptId : Option String
  deriving DecidableEq, Repr

/-- `DecisionAuthorityView.compute_digest` -/
def DecisionAuthorityView.computeDigest (decisionId status taskId : Value)
    (taskRevision revision : Int) (receiptId : Value) : Except Exn String :=
  sha256Canonical (.dict [
    ("decision_id", decisionId),
    ("receipt_id", receiptId.or (.str "")),
    ("revision", .int revision),
    ("status", status),
    ("task_id", taskId.or (.str "")),
    ("task_revision", .int taskRevision)])

/-- The digest of the view's own fields. -/
def DecisionAuthorityView.expectedDigest (view : DecisionAuthorityView) : Except Exn String :=
  computeDigest (.str view.decisionId) (.str view.status.text) (optValue view.taskId)
    view.taskRevision view.revision (optValue view.receiptId)

def decisionViewFields : List String := ["decision_id", "status", "task_id", "task_revision",
  "revision", "digest", "source_identity", "receipt_id"]

def DecisionAuthorityView.modelDump (view : DecisionAuthorityView) : Dict := [
  ("decision_id", .str view.decisionId),
  ("digest", .str view.digest),
  ("receipt_id", optValue view.receiptId),
  ("revision", .int view.revision),
  ("source_identity", .str view.sourceIdentity),
  ("status", .str view.status.text),
  ("task_id", optValue view.taskId),
  ("task_revision", .int view.taskRevision)]

/-- `DecisionAuthorityView.model_validate` -/
def DecisionAuthorityView.readFields [LaxInt] (d : Dict) : Except Exn DecisionAuthorityView := do
  let decisionId ← strField d "decision_id" (lengthBetween 128)
  let status ← choiceField DecisionStatus.ofText? d "status"
  let taskId ← optStrField d "task_id" (lengthAtMost 128)
  let taskRevision ← positiveField d "task_revision" (some 1)
  let revision ← positiveField d "revision" (some 1)
  let digest ← strField d "digest" isHash
  let sourceIdentity ← strFieldD d "source_identity" "DecisionService:v1" (lengthBetween 128)
  let receiptId ← optStrField d "receipt_id" (lengthAtMost 128)
  noExtras d decisionViewFields
  return { decisionId, status, taskId, taskRevision, revision, digest, sourceIdentity, receiptId }

/-! ## Evaluations -/

inductive EvaluationType where
  | dor | dod
  deriving DecidableEq, Repr

def EvaluationType.text : EvaluationType → String
  | .dor => "dor"
  | .dod => "dod"

def EvaluationType.ofText? (text : String) : Option EvaluationType :=
  [dor, dod].find? fun kind => kind.text = text

inductive EvaluationResult where
  | passed | failed
  deriving DecidableEq, Repr

def EvaluationResult.text : EvaluationResult → String
  | .passed => "passed"
  | .failed => "failed"

def EvaluationResult.ofText? (text : String) : Option EvaluationResult :=
  [passed, failed].find? fun result => result.text = text

/-- `HistoricalGovernanceEvaluation` -/
structure HistoricalGovernanceEvaluation where
  evaluationType : EvaluationType
  result : EvaluationResult
  evaluatedFromPhase : ProjectPhase
  evaluatedPhase : ProjectPhase
  evaluationEventId : String
  taskViews : List TaskAuthorityView
  decisionViews : List DecisionAuthorityView
  approvedDecisionIds : List String
  verifiedTaskReceipts : List String
  requiredEvidenceRefs : List String
  accountableActor : Option String
  rulesVersion : String
  rulesDigest : String
  deriving DecidableEq, Repr

/-- `validate_bindings`; a decision view has no status outside the canonical ones. -/
def HistoricalGovernanceEvaluation.validateBindings (evaluation : HistoricalGovernanceEvaluation) :
    Except Exn HistoricalGovernanceEvaluation := do
  let taskIds := evaluation.taskViews.map TaskAuthorityView.taskId
  let decisionIds := evaluation.decisionViews.map DecisionAuthorityView.decisionId
  raiseIf (¬ ∀ id ∈ evaluation.approvedDecisionIds, id ∈ decisionIds)
    (valueError "approved_decision_ids must reference included decision views")
  raiseIf (∃ view ∈ evaluation.decisionViews,
      view.decisionId ∈ evaluation.approvedDecisionIds ∧ view.status ≠ .approved)
    (valueError "approved_decision_ids must reference approved decision views")
  raiseIf (¬ ∀ id ∈ evaluation.verifiedTaskReceipts,
      id ∈ evaluation.taskViews.flatMap TaskAuthorityView.receiptIds)
    (valueError "verified_task_receipts must reference included task views")
  raiseIf (¬ taskIds.Nodup)
    (valueError "historical task evaluation contains duplicate task IDs")
  raiseIf (¬ decisionIds.Nodup)
    (valueError "historical decision evaluation contains duplicate decision IDs")
  return evaluation

def evaluationFields : List String := ["evaluation_type", "result", "evaluated_from_phase",
  "evaluated_phase", "evaluation_event_id", "task_views", "decision_views",
  "approved_decision_ids", "verified_task_receipts", "required_evidence_refs", "accountable_actor",
  "rules_version", "rules_digest"]

/-- `HistoricalGovernanceEvaluation.model_validate` -/
def HistoricalGovernanceEvaluation.modelValidate [LaxInt] (d : Dict) :
    Except Exn HistoricalGovernanceEvaluation := do
  let evaluationType ← choiceField EvaluationType.ofText? d "evaluation_type"
  let result ← choiceField EvaluationResult.ofText? d "result"
  let evaluatedFromPhase ← choiceField ProjectPhase.ofText? d "evaluated_from_phase"
  let evaluatedPhase ← choiceField ProjectPhase.ofText? d "evaluated_phase"
  let evaluationEventId ← strField d "evaluation_event_id" isEventId
  let taskViews ← modelListField TaskAuthorityView.readFields d "task_views"
  let decisionViews ← modelListField DecisionAuthorityView.readFields d "decision_views"
  let approvedDecisionIds ← strListField d "approved_decision_ids"
  let verifiedTaskReceipts ← strListField d "verified_task_receipts"
  let requiredEvidenceRefs ← strListField d "required_evidence_refs"
  let accountableActor ← optStrField d "accountable_actor" (lengthAtMost 128)
  let rulesVersion ← strFieldD d "rules_version" governanceRulesVersion (lengthBetween 64)
  let rulesDigest ← strField d "rules_digest" isHash
  noExtras d evaluationFields
  HistoricalGovernanceEvaluation.validateBindings {
    evaluationType, result, evaluatedFromPhase, evaluatedPhase, evaluationEventId, taskViews
    decisionViews, approvedDecisionIds, verifiedTaskReceipts, requiredEvidenceRefs
    accountableActor, rulesVersion, rulesDigest }

/-! ## Phase transitions -/

/-- `PhaseTransitionRecord` -/
structure PhaseTransitionRecord where
  fromPhase : ProjectPhase
  toPhase : ProjectPhase
  name : String
  timestamp : String
  actor : String
  eventId : String
  isRollback : Bool
  reason : Option String
  gate : Option String
  evidenceRefs : List String
  approvalRefs : List String
  deriving DecidableEq, Repr

def PhaseTransitionRecord.modelDump (record : PhaseTransitionRecord) : Dict := [
  ("actor", .str record.actor),
  ("approval_refs", strList record.approvalRefs),
  ("event_id", .str record.eventId),
  ("evidence_refs", strList record.evidenceRefs),
  ("from_phase", .str record.fromPhase.text),
  ("gate", optValue record.gate),
  ("is_rollback", .bool record.isRollback),
  ("name", .str record.name),
  ("reason", optValue record.reason),
  ("timestamp", .str record.timestamp),
  ("to_phase", .str record.toPhase.text)]

end PowerFramework.State
