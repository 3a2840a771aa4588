import PowerFramework.Semantic.Models
/-!
# The structured parser

A ledger event is normalized and read into at most one candidate, whose status tells whether the
batch is authorised.
-/

namespace PowerFramework.Semantic

open Lib Lib.Failure Lib.Json Ledger PowerFramework.Task

/-- `repr(value)` -/
class PythonRepr where
  repr : Value → String

/-- The functions of `re` on the text of a pattern; the flag is `re.IGNORECASE`. -/
class PythonRe where
  search : (pattern : String) → Bool → String → Bool
  sub : (pattern : String) → Bool → (replacement : String) → String → String
  findall : (pattern : String) → String → List String

/-- `repr` as far as it agrees with `str`. -/
abbrev PythonRepr.shown [PythonText] : PythonRepr where
  repr := State.pyStr

/-- `re` on texts in which nothing is found. -/
abbrev PythonRe.nowhere : PythonRe where
  search _ _ _ := false
  sub _ _ _ text := text
  findall _ _ := []

variable [PythonRe] [PythonRepr] [PythonText] [LaxFloat]

/-! ## Text screening -/

/-- `PROMPT_INJECTION_PATTERNS` -/
def promptInjectionPatterns : List String := [
  "ignore\\s+(all\\s+)?(previous\\s+)?instructions",
  "system\\s*:\\s*(grant|override|set|delete|allow|escalate)",
  "set\\s+verification_status\\s*=\\s*['\\\"]?verified['\\\"]?",
  "mark\\s+(all\\s+)?(as\\s+)?verified",
  "grant\\s+(root|admin|superuser)\\s+access",
  "bypass\\s+(verification|policy|security|gate)",
  "drop\\s+table\\s+",
  "<script[\\s>]",
  "rm\\s+-rf\\s+"]

/-- `SECRET_PATTERNS` with their names and flags. -/
def secretPatterns : List (String × String × Bool) := [
  ("github_pat", "gh[pousr]_[A-Za-z0-9_]\x7b36,255\x7d", false),
  ("generic_bearer", "Bearer\\s+[A-Za-z0-9._~+/-]+=*", true),
  ("aws_key", "(?:A3T[A-Z0-9]|AKIA|AGPA|AIDA|AROA|AIPA|ANPA|ANVA|ASIA)[A-Z0-9]\x7b16\x7d", false),
  ("private_key", "-----BEGIN\\s+[A-Z\\s]+PRIVATE\\s+KEY-----", false)]

/-- `scrub_secrets` -/
def scrubSecrets (text : String) : String × List String :=
  secretPatterns.foldl (fun (scrubbed, detected) (name, pattern, ignoreCase) =>
    if PythonRe.search pattern ignoreCase scrubbed then
      (PythonRe.sub pattern ignoreCase ("[REDACTED_" ++ PythonText.upper name ++ "]") scrubbed,
        detected ++ [name])
    else (scrubbed, detected)) (text, [])

/-- `detect_prompt_injection` -/
def detectPromptInjection (text : String) : Bool :=
  promptInjectionPatterns.any fun pattern => PythonRe.search pattern true text

/-! ## Normalization -/

/-- `normalized[key] = str(normalized[key]).strip()`, where the key is there. -/
def stripItem (key : String) (d : Dict) : Dict :=
  match d.lookup key with
  | some value => setItem key (.str (State.stripText (State.pyStr value))) d
  | none => d

/-- `_normalize_event` -/
def normalizeEvent (eventDict : Dict) : Dict :=
  let normalized := stripItem "timestamp" (stripItem "actor" (stripItem "project_id" eventDict))
  match normalized.lookup "payload" with
  | some (.dict payload) =>
      setItem "payload" (.dict (payload.map fun item =>
        match item.2 with
        | .str s => (item.1, .str (State.stripText s))
        | _ => item)) normalized
  | _ => normalized

/-! ## Parsing -/

/-- `d[key]` -/
def itemOf (d : Dict) (key : String) : Except Exn Value :=
  match d.lookup key with
  | some value => .ok value
  | none => .error ⟨"KeyError", key⟩

/-- The values the parser reads of an event before it looks at the type. -/
structure Parsing where
  eventType : Option EventType
  typeText : Value
  projectId : Value
  eventId : Value
  actor : Value
  timestamp : Value
  payload : Dict
  authorized : Bool
  provenance : Dict

def Parsing.candStatus (p : Parsing) : VerificationStatus :=
  if p.authorized then .verified else .proposed

def provStatus (authorized : Bool) : String := if authorized then "verified" else "unverified"

def confidenceOf (authorized : Bool) : Double := if authorized then one else half

def Parsing.confidence (p : Parsing) : Double := confidenceOf p.authorized

def eventTypeOf (eventDict : Dict) : Option EventType :=
  match eventDict.lookup "event_type" with
  | some (.str s) => EventType.ofText? s
  | _ => none

def parsing (eventDict : Dict) (authorized : Bool) : Except Exn Parsing := do
  let projectId ← itemOf eventDict "project_id"
  let eventId ← itemOf eventDict "event_id"
  let actor ← itemOf eventDict "actor"
  let timestamp ← itemOf eventDict "timestamp"
  let payload ← asDict (getItemD eventDict "payload" (.dict []))
  let sourceType := if (getItem eventDict "source").isText "cli" then "direct_mutation"
    else "event_replay"
  let provenance ← makeProvenance [
    ("source_event_ids", .list [eventId]),
    ("primary_source_event_id", eventId),
    ("actor", actor),
    ("timestamp", timestamp),
    ("source_type", .str sourceType),
    ("correlation_id", getItem eventDict "correlation_id"),
    ("evidence_refs", getItemD eventDict "evidence_refs" (.list [])),
    ("confidence", .float (confidenceOf authorized)),
    ("verification_status", .str (provStatus authorized))]
  return {
    eventType := eventTypeOf eventDict
    typeText := getItemD eventDict "event_type" (.str "")
    projectId, eventId, actor, timestamp, payload, authorized, provenance }

section
variable (p : Parsing)

/-- `Event <id> (<type>) ...` -/
def Parsing.complaint (message : String) : Exn :=
  valueError ("Event " ++ State.pyStr p.eventId ++ " (" ++ State.pyStr p.typeText ++ ") " ++ message)

/-- A value that must be a text and not blank. -/
def Parsing.nonBlank (value : Value) (message : String) : Except Exn String :=
  match State.nonBlank value with
  | some text => .ok text
  | none => .error (p.complaint message)

/-- A text of the payload that must not be blank. -/
def Parsing.requiredText (key message : String) : Except Exn String :=
  p.nonBlank (getItem p.payload key) message

/-- A choice of the payload that must be one of the options. -/
def Parsing.requiredChoice (key : String) (options : List String) : Except Exn Value :=
  let value := getItem p.payload key
  if State.isChoice options value then .ok value
  else .error (p.complaint ("missing or invalid '" ++ key ++ "' (expected " ++
    String.intercalate "/" options ++ ", got " ++ PythonRepr.repr value ++ ")"))

/-- `status if status in options else default` -/
def chosen (options : List String) (default : String) (value : Value) : Value :=
  if State.isChoice options value then value else .str default

/-- `COMPILED.match(s)`; Python's `$` also matches before a final newline. -/
def matchesEntityId (lead s : String) : Bool :=
  State.isEntityId lead s ||
    (s.toList.getLast? == some '\n' && State.isEntityId lead (String.ofList s.toList.dropLast))

/-- The id the payload gives, if it has the form of one, or else the one of the content. -/
def Parsing.entityId (entityType : SemanticEntityType) (key content : String) :
    Except Exn Value :=
  let generated :=
    Value.str (generateDeterministicEntityId (State.pyStr p.projectId) entityType content)
  match getItem p.payload key with
  | .str s =>
      if s ≠ "" ∧ matchesEntityId (entityType.idPrefix ++ "_") s then .ok (.str s)
      else .ok generated
  | given =>
      if given.truthy then .error (typeError "expected string or bytes-like object")
      else .ok generated

/-- A structured candidate for an entity with this provenance. -/
def structuredCandidate (entityType : SemanticEntityType) (entityId : Value) (provenance : Dict)
    (status : VerificationStatus) (confidence : Double) (metadata : Dict)
    (items : List (String × Value)) : Except Exn SemanticEntityCandidate := do
  let entity ← makeEntity entityType provenance items
  match entityId with
  | .str entityId =>
      SemanticEntityCandidate.make
        ⟨entityType, entityId, entity, status, .structuredEvent, confidence, metadata⟩
  | _ => .error (invalidField "entity_id")

def Parsing.candidate (entityType : SemanticEntityType) (entityId : Value)
    (items : List (String × Value)) : Except Exn SemanticEntityCandidate :=
  structuredCandidate entityType entityId p.provenance p.candStatus p.confidence [] items

def Parsing.get (key : String) : Value := getItem p.payload key

def Parsing.getD (key default : String) : Value := getItemD p.payload key (.str default)

def Parsing.parseRisk : Except Exn SemanticEntityCandidate := do
  let title ← p.requiredText "title" "missing required non-empty 'title'"
  let probability ← p.requiredChoice "probability" ["low", "medium", "high"]
  let impact ← p.requiredChoice "impact" ["low", "medium", "high", "critical"]
  let riskId ← p.entityId .risk "risk_id" title
  let status := match p.eventType with
    | some .riskUpdated => p.getD "status" "identified"
    | some .riskClosed => .str "retired"
    | _ => .str "identified"
  p.candidate .risk riskId [
    ("risk_id", riskId),
    ("project_id", p.projectId),
    ("title", .str title),
    ("description", p.getD "description" ""),
    ("probability", probability),
    ("impact", impact),
    ("mitigation_plan", p.getD "mitigation_plan" ""),
    ("owner", getItemD p.payload "owner" p.actor),
    ("status", chosen ["identified", "mitigated", "materialized", "retired"] "identified" status),
    ("related_task_ids", getItemD p.payload "related_task_ids" (.list [])),
    ("created_at", p.timestamp),
    ("updated_at", p.timestamp)]

def Parsing.parseAssumption : Except Exn SemanticEntityCandidate := do
  let statement ← p.requiredText "statement" "missing required non-empty 'statement'"
  let assumptionId ← p.entityId .assumption "assumption_id" statement
  let status := chosen ["valid", "invalidated", "confirmed"] "valid" (match p.eventType with
    | some .assumptionUpdated => p.getD "status" "valid"
    | some .assumptionInvalidated => .str "invalidated"
    | some .assumptionConfirmed => .str "confirmed"
    | _ => .str "valid")
  let given := p.get "invalidated_by"
  let invalidatedBy :=
    if p.eventType = some .assumptionInvalidated ∧ given.truthy = false then p.actor else given
  let confidence ← toFloat (getItemD p.payload "confidence" (.float nineTenths))
  structuredCandidate .assumption assumptionId p.provenance
    (if status.isText "invalidated" then .invalidated else p.candStatus) p.confidence [] [
    ("assumption_id", assumptionId),
    ("project_id", p.projectId),
    ("statement", .str statement),
    ("rationale", p.getD "rationale" ""),
    ("confidence", .float confidence),
    ("status", status),
    ("validated_at", p.get "validated_at"),
    ("invalidated_by", invalidatedBy),
    ("created_at", p.timestamp)]

def Parsing.parseIssue : Except Exn SemanticEntityCandidate := do
  let title ← p.requiredText "title" "missing required non-empty 'title'"
  let severity ← p.requiredChoice "severity" ["minor", "major", "critical", "blocker"]
  let issueId ← p.entityId .issue "issue_id" title
  let status := chosen ["open", "investigating", "resolved", "closed"] "open" (match p.eventType with
    | some .issueUpdated => p.getD "status" "open"
    | some .issueResolved => .str "resolved"
    | some .issueClosed => .str "closed"
    | _ => .str "open")
  p.candidate .issue issueId [
    ("issue_id", issueId),
    ("project_id", p.projectId),
    ("title", .str title),
    ("description", p.getD "description" ""),
    ("severity", severity),
    ("status", status),
    ("blocking_task_ids", getItemD p.payload "blocking_task_ids" (.list [])),
    ("resolution", p.get "resolution"),
    ("created_at", p.timestamp),
    ("resolved_at",
      if State.isChoice ["resolved", "closed"] status then p.get "resolved_at" else .null)]

def Parsing.parseDependency : Except Exn SemanticEntityCandidate := do
  let sourceId ← p.nonBlank ((p.get "source_id").or (p.get "source")) "missing required 'source_id'"
  let targetId ← p.nonBlank ((p.get "target_id").or (p.get "target")) "missing required 'target_id'"
  let kind ← p.requiredChoice "dependency_kind" ["blocks", "blocked_by", "relates_to", "requires"]
  let dependencyId ← p.entityId .dependency "dependency_id"
    (sourceId ++ ":" ++ targetId ++ ":" ++ State.pyStr kind)
  let status := if p.eventType = some .dependencyResolved then .str "satisfied"
    else p.getD "status" "pending"
  p.candidate .dependency dependencyId [
    ("dependency_id", dependencyId),
    ("project_id", p.projectId),
    ("source_id", .str sourceId),
    ("target_id", .str targetId),
    ("target_type", chosen ["task", "decision", "artifact", "project", "external"] "task"
      (p.getD "target_type" "task")),
    ("dependency_kind", kind),
    ("status", chosen ["pending", "satisfied", "broken"] "pending" status),
    ("external_ref", p.get "external_ref"),
    ("created_at", p.timestamp)]

def Parsing.parseDecision : Except Exn SemanticEntityCandidate := do
  let decisionId ← p.requiredText "decision_id" "missing required 'decision_id'"
  let decisionRefId ← p.entityId .decision "decision_ref_id" decisionId
  let status := chosen ["proposed", "pending", "accepted", "rejected", "superseded"] "accepted"
    (match p.eventType with
      | some .decisionAssociationRequested => .str "proposed"
      | some .decisionDisassociated => .str "rejected"
      | some .decisionAssociationFailed => .str "rejected"
      | some .decisionLifecycleObserved => p.getD "status" "accepted"
      | _ => .str "accepted")
  let supersedes := p.get "supersedes"
  -- assigned to the instance, so not validated
  let provenance := if supersedes.truthy then setItem "supersedes" supersedes p.provenance
    else p.provenance
  structuredCandidate .decision decisionRefId provenance
    (if status.isText "accepted" then p.candStatus
      else if status.isText "rejected" then .rejected else .proposed) p.confidence [] [
    ("decision_ref_id", decisionRefId),
    ("project_id", p.projectId),
    ("decision_id", .str decisionId),
    ("relation", p.getD "relation" "governs"),
    ("status", status),
    ("task_id", p.get "task_id"),
    ("receipt_ref", p.get "receipt_ref"),
    ("created_at", p.timestamp),
    ("updated_at", p.timestamp)]

/-- A statement that must not be blank, of a fact or a hypothesis. -/
def Parsing.statement (entity : String) (given : Value) : Except Exn String :=
  match State.nonBlank given with
  | some text => .ok text
  | none => .error (valueError ("Event " ++ State.pyStr p.eventId ++ " " ++ entity ++
      " missing required non-empty 'statement'"))

def Parsing.parseFact (given : Value) : Except Exn SemanticEntityCandidate := do
  let statement ← p.statement "fact" given
  let generated := generateDeterministicEntityId (State.pyStr p.projectId) .fact statement
  let factId := (p.get "fact_id").or (.str generated)
  p.candidate .fact factId [
    ("fact_id", factId),
    ("project_id", p.projectId),
    ("statement", .str statement),
    ("category", chosen ["domain", "technical", "organizational", "environmental", "historical"]
      "technical" (p.getD "category" "technical")),
    ("verified_at", getItemD p.payload "verified_at" p.timestamp),
    ("verification_method", p.getD "verification_method" "canonical_event"),
    ("created_at", p.timestamp)]

def Parsing.parseHypothesis (given : Value) : Except Exn SemanticEntityCandidate := do
  let statement ← p.statement "hypothesis" given
  let generated := generateDeterministicEntityId (State.pyStr p.projectId) .hypothesis statement
  let hypothesisId := (p.get "hypothesis_id").or (.str generated)
  let confidence ← toFloat (getItemD p.payload "confidence" (.float eightTenths))
  structuredCandidate .hypothesis hypothesisId p.provenance .proposed confidence [] [
    ("hypothesis_id", hypothesisId),
    ("project_id", p.projectId),
    ("statement", .str statement),
    ("rationale", p.getD "rationale" ""),
    ("validation_criteria", p.getD "validation_criteria" ""),
    ("confidence", .float confidence),
    ("status", p.getD "status" "proposed"),
    ("created_at", p.timestamp)]

/-- The confidence of an observation. -/
def Parsing.observedConfidence (injectionDetected : Bool) : Except Exn Double :=
  if injectionDetected then .ok zero
  else if p.authorized then toFloat (getItemD p.payload "confidence" (.float one))
  else .ok half

/-- An observation with the prompt injection it shows. -/
def Parsing.parseObservation : Except Exn (SemanticEntityCandidate × Bool) := do
  let content ← p.requiredText "content" "missing required non-empty 'content'"
  let observationId ← p.entityId .observation "observation_id" content
  let context := State.pyStr (p.getD "context" "")
  let injectionDetected := detectPromptInjection content || detectPromptInjection context
  let confidence ← p.observedConfidence injectionDetected
  let label := if injectionDetected then "quarantined" else provStatus p.authorized
  -- a copy with these values, which are not validated
  let provenance := setItem "verification_status" (.str label)
    (setItem "confidence" (.float confidence) p.provenance)
  let candidate ← structuredCandidate .observation observationId provenance
    (if injectionDetected then .proposed else p.candStatus) confidence
    [("prompt_injection", .bool injectionDetected)] [
    ("observation_id", observationId),
    ("project_id", p.projectId),
    ("content", .str content),
    ("context", .str context),
    ("observer", getItemD p.payload "observer" p.actor),
    ("confidence", .float confidence),
    ("observed_at", getItemD p.payload "observed_at" p.timestamp),
    ("created_at", p.timestamp)]
  return (candidate, injectionDetected)

def Parsing.parseLesson : Except Exn SemanticEntityCandidate := do
  let title ← p.requiredText "title" "missing required non-empty 'title'"
  let summary ← p.requiredText "summary" "missing required non-empty 'summary'"
  let lessonId ← p.entityId .lesson "lesson_id" title
  p.candidate .lesson lessonId [
    ("lesson_id", lessonId),
    ("project_id", p.projectId),
    ("title", .str title),
    ("summary", .str summary),
    ("category", chosen
      ["process", "technical", "architecture", "coordination", "quality", "security"] "process"
      (p.getD "category" "process")),
    ("applies_to", getItemD p.payload "applies_to" (.list [])),
    ("recommendation", getItemD p.payload "recommendation" (.str summary)),
    ("created_at", p.timestamp)]

/-- `payload.get("entity_type", "").upper()` -/
def Parsing.entityTypeUpper : Except Exn String :=
  match p.getD "entity_type" "" with
  | .str s => .ok (PythonText.upper s)
  | _ => .error ⟨"AttributeError", "object has no attribute 'upper'"⟩

/-- The branches of the parser, by the type of the event. -/
def Parsing.run : Except Exn (List SemanticEntityCandidate × Bool) :=
  let single (candidate : Except Exn SemanticEntityCandidate) :=
    candidate.map fun candidate => ([candidate], false)
  match p.eventType with
  | some .riskOpened | some .riskUpdated | some .riskClosed => single p.parseRisk
  | some .assumptionCreated | some .assumptionUpdated | some .assumptionInvalidated
  | some .assumptionConfirmed => single p.parseAssumption
  | some .issueOpened | some .issueUpdated | some .issueResolved | some .issueClosed =>
      single p.parseIssue
  | some .dependencyCreated | some .dependencyUpdated | some .dependencyResolved =>
      single p.parseDependency
  | some .decisionAssociated | some .decisionAssociationRequested | some .decisionDisassociated
  | some .decisionAssociationFailed | some .decisionLifecycleObserved => single p.parseDecision
  | some .observationRecorded =>
      let target := PythonText.upper (State.pyStr (p.getD "entity_type" "OBSERVATION"))
      let given := (p.get "statement").or (p.get "content")
      if target = "FACT" then single (p.parseFact given)
      else if target = "HYPOTHESIS" then single (p.parseHypothesis given)
      else p.parseObservation.map fun (candidate, injected) => ([candidate], injected)
  | some .lessonRecorded => single p.parseLesson
  | _ =>
      -- no type that the compiler hands to the parser gets here
      if hasItem p.payload "statement" then do
        let target ← p.entityTypeUpper
        if target = "FACT" then single (p.parseFact (p.get "statement"))
        else if target = "HYPOTHESIS" then single (p.parseHypothesis (p.get "statement"))
        else return ([], false)
      else return ([], false)

end

/-- `_parse_structured_event` -/
def parseStructuredEvent (eventDict : Dict) (isLedgerAuthorized : Bool) :
    Except Exn (List SemanticEntityCandidate × Bool) := do
  (← parsing eventDict isLedgerAuthorized).run

end PowerFramework.Semantic
