import PowerFramework.Lib.Text
import PowerFramework.Ledger.Schema
/-!
# Event types and identifiers

The closed list of event types, the types only the trusted writer may append, and the
patterns of project ids, event ids, timestamps and hashes.
-/

namespace PowerFramework.Ledger

open Lib Lib.Text Lib.Failure Lib.Json

/-- `PROJECT_EVENT_TYPES` -/
inductive EventType where
  | projectCreated | projectUpdated | projectRenamed | projectRelocated | projectPhaseProposed
  | projectPhaseChanged | projectArchived | projectReopened | sessionStarted | sessionEnded
  | taskAssociationRequested | taskAssociated | taskDisassociated | taskAssociationFailed
  | taskLifecycleObserved | decisionAssociationRequested | decisionAssociated
  | decisionDisassociated | decisionAssociationFailed | decisionLifecycleObserved | riskOpened
  | riskUpdated | riskClosed | assumptionCreated | assumptionUpdated | assumptionInvalidated
  | assumptionConfirmed | issueOpened | issueUpdated | issueResolved | issueClosed
  | dependencyCreated | dependencyUpdated | dependencyResolved | raciAssigned | raciRevoked
  | dorEvaluated | dodEvaluated | gateOverridden | artifactCreated | artifactUpdated
  | observationRecorded | lessonRecorded | evidenceAttached
  deriving DecidableEq, Repr

def EventType.text : EventType → String
  | .projectCreated => "project.created"
  | .projectUpdated => "project.updated"
  | .projectRenamed => "project.renamed"
  | .projectRelocated => "project.relocated"
  | .projectPhaseProposed => "project.phase.proposed"
  | .projectPhaseChanged => "project.phase.changed"
  | .projectArchived => "project.archived"
  | .projectReopened => "project.reopened"
  | .sessionStarted => "session.started"
  | .sessionEnded => "session.ended"
  | .taskAssociationRequested => "task.association.requested"
  | .taskAssociated => "task.associated"
  | .taskDisassociated => "task.disassociated"
  | .taskAssociationFailed => "task.association.failed"
  | .taskLifecycleObserved => "task.lifecycle.observed"
  | .decisionAssociationRequested => "decision.association.requested"
  | .decisionAssociated => "decision.associated"
  | .decisionDisassociated => "decision.disassociated"
  | .decisionAssociationFailed => "decision.association.failed"
  | .decisionLifecycleObserved => "decision.lifecycle.observed"
  | .riskOpened => "risk.opened"
  | .riskUpdated => "risk.updated"
  | .riskClosed => "risk.closed"
  | .assumptionCreated => "assumption.created"
  | .assumptionUpdated => "assumption.updated"
  | .assumptionInvalidated => "assumption.invalidated"
  | .assumptionConfirmed => "assumption.confirmed"
  | .issueOpened => "issue.opened"
  | .issueUpdated => "issue.updated"
  | .issueResolved => "issue.resolved"
  | .issueClosed => "issue.closed"
  | .dependencyCreated => "dependency.created"
  | .dependencyUpdated => "dependency.updated"
  | .dependencyResolved => "dependency.resolved"
  | .raciAssigned => "raci.assigned"
  | .raciRevoked => "raci.revoked"
  | .dorEvaluated => "dor.evaluated"
  | .dodEvaluated => "dod.evaluated"
  | .gateOverridden => "gate.overridden"
  | .artifactCreated => "artifact.created"
  | .artifactUpdated => "artifact.updated"
  | .observationRecorded => "observation.recorded"
  | .lessonRecorded => "lesson.recorded"
  | .evidenceAttached => "evidence.attached"

def EventType.all : List EventType := [
  .projectCreated, .projectUpdated, .projectRenamed, .projectRelocated, .projectPhaseProposed,
  .projectPhaseChanged, .projectArchived, .projectReopened, .sessionStarted, .sessionEnded,
  .taskAssociationRequested, .taskAssociated, .taskDisassociated, .taskAssociationFailed,
  .taskLifecycleObserved, .decisionAssociationRequested, .decisionAssociated,
  .decisionDisassociated, .decisionAssociationFailed, .decisionLifecycleObserved, .riskOpened,
  .riskUpdated, .riskClosed, .assumptionCreated, .assumptionUpdated, .assumptionInvalidated,
  .assumptionConfirmed, .issueOpened, .issueUpdated, .issueResolved, .issueClosed,
  .dependencyCreated, .dependencyUpdated, .dependencyResolved, .raciAssigned, .raciRevoked,
  .dorEvaluated, .dodEvaluated, .gateOverridden, .artifactCreated, .artifactUpdated,
  .observationRecorded, .lessonRecorded, .evidenceAttached]

/-- `v in PROJECT_EVENT_TYPES` -/
def EventType.ofText? (s : String) : Option EventType := EventType.all.find? fun t => t.text = s

theorem EventType.ofText?_text (t : EventType) : EventType.ofText? t.text = some t := by
  cases t <;> decide

/-- `PSE_GOVERNANCE_EVENT_TYPES` -/
def EventType.governance : EventType → Bool
  | .projectCreated | .projectUpdated | .projectPhaseChanged | .projectReopened | .raciAssigned
  | .raciRevoked | .evidenceAttached | .artifactCreated | .artifactUpdated | .taskAssociated
  | .taskDisassociated | .decisionAssociated | .decisionDisassociated | .dorEvaluated
  | .dodEvaluated | .gateOverridden => true
  | _ => false

/-- `PSE_OBSERVATION_EVENT_TYPES` -/
def EventType.observation : EventType → Bool
  | .taskLifecycleObserved | .decisionLifecycleObserved => true
  | _ => false

/-- `[a-z0-9]` -/
def isLowerAlnum (c : Char) : Bool := isLower c || isDigit c

/-- `PROJECT_ID_REGEX`, with the body of the pattern in `body`. -/
def projectIdBody : List Char → Bool
  | 'p' :: 'r' :: 'j' :: '_' :: c :: cs =>
      isLowerAlnum c && (cs.all fun c => isLowerAlnum c || c == '_' || c == '-') &&
        2 ≤ cs.length && cs.length ≤ 63
  | _ => false

def isProjectId (s : String) : Bool := projectIdBody s.toList

/-- `EVENT_ID_REGEX` -/
def isEventId (s : String) : Bool :=
  match s.toList with
  | 'e' :: 'v' :: 't' :: '_' :: c :: cs => isAlnum c && cs.all isTokenChar && cs.length ≤ 127
  | _ => false

/-- `validate_project_id`; Python's `$` also matches before a final newline. -/
def validateProjectId (projectId : String) : Except Exn String := do
  let chars := projectId.toList
  raiseIf (chars.tails.any (['.', '.'].isPrefixOf ·) ∨ '/' ∈ chars ∨ '\\' ∈ chars)
    (valueError s!"Path traversal characters forbidden in project_id: {projectId}")
  raiseIf (!(projectIdBody chars ||
      (chars.getLast? == some '\n' && projectIdBody chars.dropLast)))
    (valueError s!"Invalid project_id format: {projectId}")
  return projectId

/-- `[0-9]{4}-[0-9]{2}-[0-9]{2}T[0-9]{2}:[0-9]{2}:[0-9]{2}` as a template, `0` for a digit. -/
def matchesTemplate : List Char → List Char → Option (List Char)
  | [], rest => some rest
  | _ :: _, [] => none
  | t :: template, c :: rest =>
      if (if t = '0' then isDigit c else c == t) then matchesTemplate template rest else none

/-- `(?:\.[0-9]+)?(?:Z|\+00:00)$` -/
def isTimestampEnd (text : List Char) : Bool :=
  let zone (text : List Char) : Bool := text == ['Z'] || text == "+00:00".toList
  match text with
  | '.' :: c :: rest => isDigit c && zone (rest.dropWhile isDigit)
  | text => zone text

/-- `TIMESTAMP_REGEX` -/
def isTimestamp (s : String) : Bool :=
  match matchesTemplate "0000-00-00T00:00:00".toList s.toList with
  | some rest => isTimestampEnd rest
  | none => false

/-- `HASH_REGEX` -/
def isHash (s : String) : Bool := isDigestToken "" s

/-- `PREV_HASH_REGEX` -/
def isPrevHash (s : String) : Bool := s == "" || isHash s

end PowerFramework.Ledger
