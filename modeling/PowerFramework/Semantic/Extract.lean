import PowerFramework.Lib.PythonNumber
import PowerFramework.Semantic.Parse
/-!
# Model extraction

What a model provider makes of a text is read into candidates that stay proposed and unverified,
under ids of the compiler's own.
-/

namespace PowerFramework.Semantic

open Lib Lib.Failure Lib.Json Ledger PowerFramework.Task

/-- `extract_unstructured(text, context)` at its n-th call; a provider may answer each call as it
likes. -/
abbrev Provider := Nat → String → Dict → Except Exn Value

variable [PythonRe] [PythonText] [LaxFloat]

/-- `_has_unstructured_content` -/
def hasUnstructuredContent (eventDict : Dict) : Bool :=
  eventTypeOf eventDict = some .observationRecorded ||
    match getItemD eventDict "payload" (.dict []) with
    | .dict payload => ["text", "raw_content", "notes", "dialogue", "transcript"].any (hasItem payload)
    | _ => false

def SemanticEntityType.all : List SemanticEntityType :=
  [.fact, .decision, .assumption, .hypothesis, .risk, .issue, .dependency, .observation, .lesson]

/-- The entity type an extraction names. -/
def extractedType (extracted : Dict) : Option SemanticEntityType :=
  let given := ((getItem extracted "type").or (getItem extracted "entity_type")).or (.str "")
  let rawType := PythonText.upper (State.pyStr given)
  match SemanticEntityType.all.find? (·.value = rawType) with
  | some entityType => some entityType
  | none => if rawType = "DECISION_REFERENCE" then some .decision else none

/-- `value or other or ...` -/
def firstTruthy (d : Dict) (keys : List String) : Value :=
  keys.foldr (fun key rest => (getItem d key).or rest) (.str "")

/-- `scrub_secrets(value)`, which is given a text. -/
def scrubValue : Value → Except Exn String
  | .str s => .ok (scrubSecrets s).1
  | _ => .error (typeError "expected string or bytes-like object")

/-- The arguments of one conversion that do not depend on the extraction. -/
structure ExtractionSource where
  projectId : Value
  sourceEventId : Value
  actor : Value
  timestamp : Value
  correlationId : Value
  injectionDetected : Bool

/-- The fields of an extracted entity that its type asks for. -/
def extractedFields (src : ExtractionSource) (extracted : Dict) (entityId content : String)
    (confidence : Double) : SemanticEntityType → List (String × Value)
  | .fact => [
      ("fact_id", .str entityId),
      ("statement", .str content),
      ("category", chosen ["domain", "technical", "organizational", "environmental", "historical"]
        "technical" (getItem extracted "category"))]
  | .decision => [
      ("decision_ref_id", .str entityId),
      ("decision_id", (getItem extracted "decision_id").or
        (.str ("dec_" ++ String.ofList (entityId.toList.drop 5)))),
      ("relation", getItemD extracted "relation" (.str "governs")),
      ("status", .str "proposed"),
      ("task_id", getItem extracted "task_id")]
  | .assumption => [
      ("assumption_id", .str entityId),
      ("statement", .str content),
      ("rationale", getItemD extracted "rationale" (.str "")),
      ("confidence", .float confidence),
      ("status", .str "valid")]
  | .hypothesis => [
      ("hypothesis_id", .str entityId),
      ("statement", .str content),
      ("rationale", getItemD extracted "rationale" (.str "")),
      ("validation_criteria", getItemD extracted "validation_criteria" (.str "")),
      ("confidence", .float confidence),
      ("status", .str "proposed")]
  | .risk => [
      ("risk_id", .str entityId),
      ("title", .str content),
      ("description", getItemD extracted "description" (.str "")),
      ("probability", chosen ["low", "medium", "high"] "medium"
        (getItemD extracted "probability" (.str "medium"))),
      ("impact", chosen ["low", "medium", "high", "critical"] "medium"
        (getItemD extracted "impact" (.str "medium"))),
      ("owner", getItemD extracted "owner" src.actor),
      ("status", .str "identified"),
      ("mitigation_plan", getItemD extracted "mitigation_plan" (.str "")),
      ("updated_at", src.timestamp)]
  | .issue => [
      ("issue_id", .str entityId),
      ("title", .str content),
      ("description", getItemD extracted "description" (.str "")),
      ("severity", chosen ["minor", "major", "critical", "blocker"] "major"
        (getItemD extracted "severity" (.str "major"))),
      ("status", .str "open"),
      ("blocking_task_ids", getItemD extracted "blocking_task_ids" (.list []))]
  | .dependency => [
      ("dependency_id", .str entityId),
      ("source_id", getItemD extracted "source_id" src.projectId),
      ("target_id", getItemD extracted "target_id" (.str "external_component")),
      ("target_type", chosen ["task", "decision", "artifact", "project", "external"] "external"
        (getItem extracted "target_type")),
      ("dependency_kind", chosen ["blocks", "blocked_by", "relates_to", "requires"] "requires"
        (getItem extracted "dependency_kind")),
      ("status", .str "pending")]
  | .observation => [
      ("observation_id", .str entityId),
      ("content", .str content),
      ("context", getItemD extracted "context" (.str "model_extraction")),
      ("observer", src.actor),
      ("confidence", .float confidence),
      ("observed_at", src.timestamp)]
  | .lesson => [
      ("lesson_id", .str entityId),
      ("title", getItemD extracted "title" (.str (String.ofList (content.toList.take 128)))),
      ("summary", .str content),
      ("category", chosen
        ["process", "technical", "architecture", "coordination", "quality", "security"] "process"
        (getItemD extracted "category" (.str "process"))),
      ("recommendation", getItemD extracted "recommendation" (.str content))]

/-- The confidence of an extraction, between the bounds. -/
def clampedConfidence (injectionDetected : Bool) (claimed : Double) : Double :=
  if injectionDetected then zero else zero.pyMax (one.pyMin claimed)

/-- The candidate an extraction with a type and a content gives; one that its model refuses is
left out. -/
def convertContent (src : ExtractionSource) (extracted : Dict) (entityType : SemanticEntityType)
    (given : Value) : Except Exn (Option SemanticEntityCandidate) := do
  let content ← scrubValue given
  let entityId := generateDeterministicEntityId (State.pyStr src.projectId) entityType content
  let claimed ← toFloat (getItemD extracted "confidence" (.float threeQuarters))
  let confidence := clampedConfidence src.injectionDetected claimed
  let provenance ← makeProvenance [
    ("source_event_ids", .list [src.sourceEventId]),
    ("primary_source_event_id", src.sourceEventId),
    ("actor", src.actor),
    ("timestamp", src.timestamp),
    ("source_type", .str "agent_inference"),
    ("correlation_id", src.correlationId),
    ("confidence", .float confidence),
    ("verification_status",
      .str (if src.injectionDetected then "quarantined" else "unverified"))]
  let entityDict := dictFrom ([
    ("project_id", src.projectId),
    ("provenance", .dict provenance),
    ("created_at", src.timestamp)] ++
      extractedFields src extracted entityId content confidence entityType)
  match modelValidate entityType entityDict with
  | .error _ => return none
  | .ok entity =>
      let candidate ← SemanticEntityCandidate.make {
        entityType, entityId, entity, confidence
        verificationStatus := .proposed
        source := .modelExtraction
        metadata := [("prompt_injection", .bool src.injectionDetected)] }
      return some candidate

/-- `_convert_extracted_dict_to_candidate` -/
def convertExtracted (src : ExtractionSource) (item : Value) :
    Except Exn (Option SemanticEntityCandidate) := do
  let extracted ← asDict item
  let given := firstTruthy extracted ["statement", "title", "content", "summary", "decision_id"]
  match extractedType extracted, given.truthy with
  | some entityType, true => convertContent src extracted entityType given
  | _, _ => return none

/-- The candidates of the extractions, in their order. -/
def convertAll (src : ExtractionSource) : List Value → Except Exn (List SemanticEntityCandidate)
  | [] => .ok []
  | item :: items => do
      let candidate ← convertExtracted src item
      let rest ← convertAll src items
      return candidate.toList ++ rest

/-- The text a provider is given. -/
def isolated (text : String) : String :=
  "<<<UNTRUSTED_PROJECT_DATA>>>\n" ++ text ++ "\n<<<END_UNTRUSTED_PROJECT_DATA>>>"

/-- `_extract_from_event_unstructured` -/
def extractFromEvent (provider : String → Dict → Except Exn Value) (eventDict : Dict)
    (asOf : Value) : Except Exn (List SemanticEntityCandidate × Bool) := do
  let payload ← asDict (getItemD eventDict "payload" (.dict []))
  let textContent := firstTruthy payload ["content", "text", "raw_content", "notes"]
  if textContent.truthy = false then return ([], false)
  else do
    let scrubbedText ← scrubValue textContent
    let injectionDetected := detectPromptInjection scrubbedText
    let context := dictFrom [
      ("project_id", getItem eventDict "project_id"),
      ("event_id", getItem eventDict "event_id"),
      ("event_type", getItem eventDict "event_type"),
      ("timestamp", getItem eventDict "timestamp"),
      ("actor", getItem eventDict "actor"),
      ("prompt_boundary", .str "UNTRUSTED_CONTENT_DATA_ONLY")]
    match provider (isolated scrubbedText) context with
    | .error _ => return ([], injectionDetected)
    | .ok rawItems =>
        let items ← rawItems.iterate
        let projectId ← itemOf eventDict "project_id"
        let sourceEventId ← itemOf eventDict "event_id"
        let candidates ← convertAll {
          projectId, sourceEventId, injectionDetected
          actor := getItemD eventDict "actor" (.str "agent:model")
          timestamp := ((getItem eventDict "timestamp").or asOf).or (.str "1970-01-01T00:00:00Z")
          correlationId := getItem eventDict "correlation_id" } items
        return (candidates, injectionDetected)

end PowerFramework.Semantic
