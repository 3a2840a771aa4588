import PowerFramework.Semantic.Authority
import PowerFramework.Semantic.Contradictions
/-!
# The semantic compiler

`compile_events` checks each event of a batch against the one before it, parses the events in their
order and merges what they give with the prior candidates; `compile_unstructured` does so for one
text without any authority.
-/

namespace PowerFramework.Semantic

open Lib Lib.Failure Lib.Json Lib.Grouping Ledger PowerFramework.Task

inductive EventSemanticDisposition where
  | semanticEntity | relationshipProposal | lifecycleMetadataNoop | explicitlyRejected
  deriving DecidableEq, Repr

/-- `PROJECT_EVENT_DISPATCH_REGISTRY` -/
def disposition : EventType → EventSemanticDisposition
  | .riskOpened | .riskUpdated | .riskClosed | .assumptionCreated | .assumptionUpdated
  | .assumptionInvalidated | .assumptionConfirmed | .issueOpened | .issueUpdated | .issueResolved
  | .issueClosed | .dependencyCreated | .dependencyUpdated | .dependencyResolved
  | .decisionAssociationRequested | .decisionAssociated | .decisionDisassociated
  | .decisionAssociationFailed | .decisionLifecycleObserved | .observationRecorded
  | .lessonRecorded => .semanticEntity
  | .taskAssociationRequested | .taskAssociated | .taskDisassociated | .taskAssociationFailed
  | .taskLifecycleObserved => .relationshipProposal
  | .projectCreated | .projectUpdated | .projectRenamed | .projectRelocated | .projectPhaseProposed
  | .projectPhaseChanged | .projectArchived | .projectReopened | .sessionStarted | .sessionEnded
  | .raciAssigned | .raciRevoked | .dorEvaluated | .dodEvaluated | .gateOverridden
  | .artifactCreated | .artifactUpdated | .evidenceAttached => .lifecycleMetadataNoop

structure CompilationResult where
  projectId : String
  candidates : List SemanticEntityCandidate := []
  contradictionProposals : List ContradictionProposal := []
  errors : List String := []
  compiledEventCount : Nat := 0
  duplicateCount : Nat := 0
  promptInjectionDetectedCount : Nat := 0

structure SemanticCompiler where
  modelProvider : Option Provider
  defaultProjectId : Option String

/-- `event.model_dump()`, or the dict itself. -/
def SuppliedEvent.toDict : SuppliedEvent → Dict
  | .instance event => event.modelDump
  | .dict d => d

variable [PythonRe] [PythonRepr] [PythonText] [LaxInt] [LaxFloat]

/-! ## One event -/

/-- The checks on the sequence and on the hash of the event before. -/
def linkRefusal (eventId : String) (prev d : Dict) : Except Exn (Option String) := do
  let current := getItemD d "sequence" (.int 0)
  let last := getItemD prev "sequence" (.int 0)
  let step := "(" ++ State.pyStr last ++ " -> " ++ State.pyStr current ++ ") for event " ++ eventId
  if ← current.le last then
    return some ("Untrusted batch: non-monotonic sequence " ++ step)
  else if current.same (← last.succ) = false then
    return some ("Untrusted batch: sequence gap " ++ step)
  else if (getItem d "prev_event_hash").same (getItem prev "event_hash") = false then
    return some ("Untrusted batch: broken prev_event_hash chain (" ++
      State.pyStr (getItem d "prev_event_hash") ++ " != " ++
      State.pyStr (getItem prev "event_hash") ++ ") for event " ++ eventId)
  else return none

/-- The checks on the digests of an event. -/
def digestRefusal (eventId : String) (d : Dict) : Except Exn (Option String) := do
  let untrusted := "Untrusted event " ++ eventId ++ ": "
  let calcPayloadDigest ← sha256Canonical (getItemD d "payload" (.dict []))
  if (getItem d "payload_digest").isText calcPayloadDigest = false then
    return some (untrusted ++ "payload_digest mismatch (" ++
      State.pyStr (getItem d "payload_digest") ++ " != " ++ calcPayloadDigest ++ ")")
  else do
    let calcEventHash ← computeEventHash d
    if (getItem d "event_hash").isText calcEventHash = false then
      return some (untrusted ++ "event_hash mismatch (" ++ State.pyStr (getItem d "event_hash") ++
        " != " ++ calcEventHash ++ ")")
    else return none

/-- Why an event of a batch is left out, if it is. -/
def refusal (projectId : String) (prev : Option Dict) (evt : SuppliedEvent) :
    Except Exn (Option String) := do
  let d := evt.toDict
  let id := getItemD d "event_id" (.str "")
  let eventId := State.pyStr id
  if id.truthy = false then return some ("Event missing event_id: " ++ State.pyStr (.dict d))
  else if (getItem d "project_id").isText projectId = false then
    return some ("Untrusted batch: mixed project_id '" ++ State.pyStr (getItem d "project_id") ++
      "' != '" ++ projectId ++ "' for event " ++ eventId)
  else
    match evt.validated with
    | .error exn =>
        return some ("Event " ++ eventId ++ " failed ProjectEvent schema validation: " ++
          exn.message)
    | .ok _ =>
        if (getItem d "schema_version").isText schemaVersion = false then
          return some ("Untrusted event " ++ eventId ++
            ": schema_version must be 'power.project-event.v1'")
        else
          match ← digestRefusal eventId d, prev with
          | some error, _ => return some error
          | none, some prev => linkRefusal eventId prev d
          | none, none => return none

/-- What an event adds to the compilation. -/
structure Contribution where
  candidates : List SemanticEntityCandidate
  injections : Nat
  failure : Option Exn

/-- The structured parser and, where a provider is given a text, the model extraction; what was
parsed before a failure stays. -/
def contribute (provider : Option (String → Dict → Except Exn Value)) (authorized : Bool)
    (asOf : Value) (eventDict : Dict) : Contribution :=
  let normalized := normalizeEvent eventDict
  match parseStructuredEvent normalized authorized with
  | .error exn => ⟨[], 0, some exn⟩
  | .ok (structured, injected) =>
      match provider, hasUnstructuredContent normalized with
      | some provider, true =>
          match extractFromEvent provider normalized asOf with
          | .error exn => ⟨structured, injected.toNat, some exn⟩
          | .ok (extracted, detected) =>
              ⟨structured ++ extracted, injected.toNat + detected.toNat, none⟩
      | _, _ => ⟨structured, injected.toNat, none⟩

/-! ## A batch -/

structure Compilation where
  candidates : List SemanticEntityCandidate := []
  errors : List String := []
  promptInjectionCount : Nat := 0
  prevEventDict : Option Dict := none

/-- The provider of the compiler at the n-th event. -/
def SemanticCompiler.providerAt (self : SemanticCompiler) (n : Nat) :
    Option (String → Dict → Except Exn Value) := self.modelProvider.map (· n)

def Compilation.step (self : SemanticCompiler) (projectId : String) (authorized : Bool)
    (asOf : Value) (st : Compilation) (evt : SuppliedEvent × Nat) : Except Exn Compilation := do
  match ← refusal projectId st.prevEventDict evt.1 with
  | some error => return { st with errors := st.errors ++ [error] }
  | none =>
      let d := evt.1.toDict
      let eventId := State.pyStr (getItem d "event_id")
      let st := { st with prevEventDict := some d }
      match (eventTypeOf d).map disposition with
      | some .lifecycleMetadataNoop | some .relationshipProposal => return st
      | some .semanticEntity =>
          let made := contribute (self.providerAt evt.2) authorized asOf d
          let errors := made.failure.toList.map fun exn =>
            "Event " ++ eventId ++ ": " ++ exn.kind ++ ": " ++ exn.message
          return { st with
            candidates := st.candidates ++ made.candidates
            errors := st.errors ++ errors
            promptInjectionCount := st.promptInjectionCount + made.injections }
      | _ => return { st with
          errors := st.errors ++ ["Event " ++ eventId ++ ": unrecognized or rejected event_type '" ++
            State.pyStr (getItemD d "event_type" (.str "")) ++ "'"] }

/-- `default_project_id or "prj_default"` -/
def SemanticCompiler.fallbackProjectId (self : SemanticCompiler) : String :=
  match self.defaultProjectId with
  | some id => if id = "" then "prj_default" else id
  | none => "prj_default"

/-- `validate_project_id` of a value. -/
def validatedProjectId : Value → Except Exn String
  | .str s => validateProjectId s
  | _ => .error (valueError "project_id must be a string")

def SuppliedEvent.projectId (default : String) : SuppliedEvent → Value
  | .instance event => .str event.projectId
  | .dict d => getItemD d "project_id" (.str default)

def SuppliedEvent.timestamp : SuppliedEvent → Value
  | .instance event => .str event.timestamp
  | .dict d => getItemD d "timestamp" (.str "1970-01-01T00:00:00Z")

/-- The prior candidates as an unauthorised batch may use them. -/
def existingForMerge (authorized : Bool) (existing : List SemanticEntityCandidate) :
    Except Exn (List SemanticEntityCandidate) :=
  if authorized then .ok existing else existing.mapM downgradeUntrustedExisting

/-- The project of a batch that begins with the event, the authority of the batch and the time it
is compiled as of. -/
def batchContext (self : SemanticCompiler) (first last : SuppliedEvent)
    (events : List SuppliedEvent) (asOf : Option String) (receipt : Option TrustedReplayReceipt)
    (vaultRoot : Option Vault) : Except Exn (String × Bool × Value) := do
  let projectId ← validatedProjectId (first.projectId self.fallbackProjectId)
  let authorized := canonicalReplayMatches events projectId receipt vaultRoot
  return (projectId, authorized, (asOf.map .str).getD last.timestamp)

/-- `compile_events` -/
def SemanticCompiler.compileEvents (self : SemanticCompiler) (events : List SuppliedEvent)
    (existingCandidates : List SemanticEntityCandidate) (asOf : Option String)
    (receipt : Option TrustedReplayReceipt) (vaultRoot : Option Vault) :
    Except Exn CompilationResult :=
  match events.head?, events.getLast? with
  | some first, some last => do
      let (projectId, authorized, asOf) ← batchContext self first last events asOf receipt vaultRoot
      let st ← events.zipIdx.foldlM (Compilation.step self projectId authorized asOf) {}
      let existing ← existingForMerge authorized existingCandidates
      let (deduped, duplicateCount) ← deduplicateCandidates st.candidates existing
      let proposals ← detectContradictions deduped existingCandidates asOf
      let (candidates, validationErrors) := validateCandidates deduped
      return {
        projectId, candidates, duplicateCount
        contradictionProposals := proposals
        errors := st.errors ++ validationErrors
        compiledEventCount := events.length
        promptInjectionDetectedCount := st.promptInjectionCount }
  | _, _ => .ok { projectId := self.fallbackProjectId }

/-- `compile_events` on a `VerifiedReplayBatch`, which brings its receipt. -/
def SemanticCompiler.compileVerifiedBatch (self : SemanticCompiler)
    (batch : TrustedReplayReceipt × List ProjectEvent)
    (existingCandidates : List SemanticEntityCandidate) (asOf : Option String) (vaultRoot : Vault) :
    Except Exn CompilationResult :=
  self.compileEvents (batch.2.map .instance) existingCandidates asOf (some batch.1) (some vaultRoot)

/-! ## A text -/

/-- The arguments of `compile_unstructured` that say where the text comes from. -/
structure TextSource where
  actor : String
  sourceEventId : Option String
  sessionId : Option String
  correlationId : Option String

/-- Without a provider the text is kept as an observation. -/
def preservedText (projectId scrubbedText evtId timestamp : String) (src : TextSource)
    (injectionDetected : Bool) (secretsFound : List String) :
    Except Exn SemanticEntityCandidate := do
  let confidence := if injectionDetected then zero else half
  let observationId := generateDeterministicEntityId projectId .observation scrubbedText
  let provenance ← makeProvenance [
    ("source_event_ids", strList [evtId]),
    ("primary_source_event_id", .str evtId),
    ("actor", .str src.actor),
    ("timestamp", .str timestamp),
    ("source_type", .str "agent_inference"),
    ("correlation_id", optValue src.correlationId),
    ("confidence", .float confidence),
    ("verification_status", .str (if injectionDetected then "quarantined" else "unverified"))]
  let entity ← makeEntity .observation provenance [
    ("observation_id", .str observationId),
    ("project_id", .str projectId),
    ("content", .str scrubbedText),
    ("context", .str "unstructured_text_input"),
    ("observer", .str src.actor),
    ("confidence", .float confidence),
    ("observed_at", .str timestamp),
    ("created_at", .str timestamp)]
  SemanticEntityCandidate.make {
    entityType := .observation
    entityId := observationId
    entity, confidence
    verificationStatus := .proposed
    source := .modelExtraction
    metadata := [("prompt_injection", .bool injectionDetected),
      ("scrubbed_secrets", strList secretsFound)] }

/-- The candidates converted before a failure, and the failure. -/
def convertUntil (src : ExtractionSource) : List Value → List SemanticEntityCandidate × Option Exn
  | [] => ([], none)
  | item :: items =>
      match convertExtracted src item with
      | .error exn => ([], some exn)
      | .ok candidate =>
          let (rest, failure) := convertUntil src items
          (candidate.toList ++ rest, failure)

/-- The candidates of a text and the failure of its extraction. -/
def textCandidates (provider : Option (String → Dict → Except Exn Value))
    (projectId scrubbedText evtId timestamp : String) (src : TextSource) (injectionDetected : Bool)
    (secretsFound : List String) : Except Exn (List SemanticEntityCandidate × Option Exn) :=
  match provider with
  | none => do
      let candidate ←
        preservedText projectId scrubbedText evtId timestamp src injectionDetected secretsFound
      return ([candidate], none)
  | some provider =>
      let isolatedContext := dictFrom [
        ("project_id", .str projectId),
        ("session_id", optValue src.sessionId),
        ("correlation_id", optValue src.correlationId),
        ("timestamp", .str timestamp),
        ("prompt_boundary", .str "UNTRUSTED_CONTENT_DATA_ONLY")]
      match provider (isolated scrubbedText) isolatedContext >>= Value.iterate with
      | .error exn => .ok ([], some exn)
      | .ok items => .ok (convertUntil {
          projectId := .str projectId
          sourceEventId := .str evtId
          actor := .str src.actor
          timestamp := .str timestamp
          correlationId := optValue src.correlationId
          injectionDetected } items)

/-- `compile_unstructured` -/
def SemanticCompiler.compileUnstructured (self : SemanticCompiler) (projectId text : String)
    (src : TextSource) (existingCandidates : List SemanticEntityCandidate) (asOf : Option String)
    (modelProvider : Option Provider) : Except Exn CompilationResult := do
  let _ ← validateProjectId projectId
  let (scrubbedText, secretsFound) := scrubSecrets (State.stripText text)
  let injectionDetected := detectPromptInjection scrubbedText
  let timestamp := match asOf with
    | some time => if time = "" then "1970-01-01T00:00:00Z" else time
    | none => "1970-01-01T00:00:00Z"
  let digest := Sha256.hexdigest (Utf8.encode scrubbedText.toList)
  let generated := "evt_unstructured_" ++ String.ofList (digest.toList.take 16)
  let evtId := match src.sourceEventId with
    | some id => if id = "" then generated else id
    | none => generated
  let provider := (modelProvider.or self.modelProvider).map (· 0)
  let (candidates, failure) ← textCandidates provider projectId scrubbedText evtId timestamp src
    injectionDetected secretsFound
  let existing ← existingForMerge false existingCandidates
  let (deduped, duplicateCount) ← deduplicateCandidates candidates existing
  let proposals ← detectContradictions deduped existing (.str timestamp)
  let (valid, validationErrors) := validateCandidates deduped
  return {
    projectId, duplicateCount
    candidates := valid
    contradictionProposals := proposals
    errors := failure.toList.map (fun exn =>
      "ModelProvider: " ++ exn.kind ++ ": " ++ exn.message) ++ validationErrors
    compiledEventCount := 1
    promptInjectionDetectedCount := injectionDetected.toNat }

end PowerFramework.Semantic
