import PowerFramework.Domain.Registry
import PowerFramework.Retrieval.Patterns
/-!
# The domain policy

`load_domain_policy`: the strict reader of the second version of the configuration file, and the
adapter that reads a registry of the first version as a policy.
-/

namespace PowerFramework.Domain

open Lib Lib.Failure Lib.Json Lib.Text State Search Retrieval

set_option linter.unusedSectionVars false

/-! ## Text -/

/-- The tables of the Unicode standard that `unicodedata` reads. -/
class PythonUnicode where
  /-- `unicodedata.normalize("NFKC", text)` -/
  nfkc : String → String
  /-- `unicodedata.category(char) == "Cf"` -/
  isFormat : Char → Bool

def maxSelectorValues : Nat := 64
def maxQueryKeywords : Nat := 64
def maxQueryIntents : Nat := 16
def maxPolicyList : Nat := 32
def maxPolicyText : Nat := 128
def maxDomains : Nat := 32
def maxRouterMatches : Nat := 16

/-- A check that raises a `DomainConfigError`. -/
def demand (accepted : Bool) (message : String) : Except Exn PUnit :=
  raiseIf (accepted = false) (domainConfigError message)

/-- `text.split()` -/
def splitWords (text : String) : List String :=
  ((text.toList.splitOnP Splitlines.isWhitespace).filter (· ≠ [])).map String.ofList

/-- `" ".join(text.split())` -/
def joinedWords (text : String) : String := " ".intercalate (splitWords text)

section
variable [PythonText] [PythonUnicode]

/-- `_normalize_policy_text` -/
def normalizePolicyText (value : String) (maxLength : Nat) : Except Exn String := do
  let normalized := stripText (PythonUnicode.nfkc value)
  demand (!hasControl normalized && !normalized.toList.any PythonUnicode.isFormat &&
    normalized.length ≤ maxLength) "domain policy text is invalid or unbounded"
  return joinedWords normalized

/-- `_bounded_tuple` -/
def boundedTuple (value : List String) (field : String) (maximum : Nat) : Except Exn PUnit := do
  demand (value.length ≤ maximum) (field ++ " must be a bounded tuple")
  demand (value.all fun item => item ≠ "" && item.length ≤ maxPolicyText)
    (field ++ " contains invalid text")
  demand (decide value.Nodup) (field ++ " contains duplicate values")

/-- One turn of the loop of `_bounded_string_list`. -/
def collectText (field : String) (maxLength : Nat) (result : List String) (item : Value) :
    Except Exn (List String) :=
  match item with
  | .str s => do
      let text ← normalizePolicyText s maxLength
      let normalized := PythonText.casefold text
      demand (normalized ≠ "" && normalized ∉ result)
        (field ++ " contains an empty or duplicate value")
      return result ++ [normalized]
  | _ => .error (domainConfigError (field ++ " must contain strings"))

/-- `_bounded_string_list` -/
def boundedStringList (value : Value) (field : String) (maxItems : Nat) (allowEmpty : Bool) :
    Except Exn (List String) :=
  if isNone value && allowEmpty then .ok []
  else match value with
    | .list items => do
        demand (items.length ≤ maxItems) (field ++ " must be a bounded list of strings")
        let result ← items.foldlM (collectText field maxPolicyText) []
        demand (result ≠ [] || allowEmpty) (field ++ " must contain a value")
        return result
    | _ => .error (domainConfigError (field ++ " must be a bounded list of strings"))

/-- `_bounded_integer` -/
def boundedInteger (value : Value) (field : String) (minimum maximum : Nat) : Except Exn Nat :=
  match value with
  | .int n =>
      if minimum ≤ n ∧ n ≤ maximum then .ok n.toNat
      else .error (domainConfigError (field ++ " must be a bounded integer"))
  | _ => .error (domainConfigError (field ++ " must be a bounded integer"))

/-- `_parse_probability` -/
def parseProbability (value : Value) (field : String) : Except Exn ℚ :=
  let malformed := domainConfigError (field ++ " must be a finite probability")
  match value with
  | .int n => if n = 0 ∨ n = 1 then .ok n else .error malformed
  | .float x => if !isNaN x && inUnit x then .ok (doubleValue x) else .error malformed
  | _ => .error malformed

/-- `_policy_path_pattern` -/
def policyPathPattern (value : Value) (field : String) : Except Exn String :=
  let empty := field ++ " must be a non-empty relative glob"
  match value with
  | .str s => do
      demand (stripText s ≠ "") empty
      let normalized ← normalizePolicyText s maxPolicyText
      let text := PythonText.casefold normalized
      demand (!startsWith "/" text && !isWithin "\\" text && !isDrive text &&
        !isWithin "://" text && !hasScheme text && ".." ∉ pathParts text)
        (field ++ " must be a safe vault-relative glob")
      return asPosix text
  | _ => .error (domainConfigError empty)

/-! ## Vocabulary -/

/-- `_ALLOWED_QUERY_INTENTS` -/
def allowedQueryIntents : List String := ["lookup", "project_state", "decision", "task", "code",
  "infrastructure", "research", "governance", "conversation", "log", "cross_domain", "unknown"]

/-- `_ALLOWED_RETRIEVAL_STAGES` -/
def allowedRetrievalStages : List String := ["metadata", "fts", "tf", "semantic", "rerank",
  "graph_assisted", "temporal", "noise_gate", "project_state", "decisions", "tasks",
  "lexical_match", "dense_match", "candidate_fusion", "session_metadata", "extracted_entities",
  "summary", "relevant_turns", "time_range", "structured_fields"]

/-- `_ALLOWED_TRAVERSAL_STAGES` -/
def allowedTraversalStages : List String := allowedRetrievalStages ++ ["semantic_entities",
  "event_history", "documentation_fallback", "citation_or_relation_expansion",
  "raw_transcript_fallback"]

/-- `_ALLOWED_BUDGET_CLASSES` -/
def allowedBudgetClasses : List String := ["FAST", "BALANCED", "DEEP"]

/-- `_ALLOWED_INDEX_PRIORITIES` -/
def allowedIndexPriorities : List String := ["HOT", "WARM", "COLD"]

/-- `_ALLOWED_DENSE_POLICIES` -/
def allowedDensePolicies : List String := ["eager", "batched", "deferred", "on_demand"]

/-- `_ALLOWED_NOISE_ACTIONS` -/
def allowedNoiseActions : List String :=
  ["include", "downrank", "exclude_from_retrieval", "quarantine"]

/-- `_ALLOWED_NOISE_RULES` -/
def allowedNoiseRules : List String := ["superseded", "trivial", "duplicate",
  "low_information_density", "stale", "heartbeat", "tool_boilerplate", "temporary_progress",
  "repeated_system_prompt", "status_spam", "generated_catalog"]

/-- `_ALLOWED_AUTHORITY_VALUES` -/
def allowedAuthorityValues : List String :=
  ["canonical", "verified", "curated", "proposed", "raw", "unknown"]

/-- A text of a vocabulary. -/
def choice (options : List String) (value : Value) (message : String) : Except Exn String :=
  match value with
  | .str s => if s ∈ options then .ok s else .error (domainConfigError message)
  | _ => .error (domainConfigError message)

/-- `all(item in options for item in items)` -/
def allIn (options items : List String) : Bool := items.all fun item => decide (item ∈ options)

/-! ## Domains -/

structure DomainSourceSelectors where
  paths : List String
  tags : List String
  types : List String
  deriving DecidableEq, Repr

/-- `DomainSourceSelectors(...)` -/
def domainSourceSelectors (paths tags types : List String) :
    Except Exn DomainSourceSelectors := do
  boundedTuple paths "source selector paths" maxSelectorValues
  boundedTuple tags "source selector tags" maxSelectorValues
  boundedTuple types "source selector types" maxSelectorValues
  demand (paths ≠ [] || tags ≠ [] || types ≠ []) "source selectors cannot be empty"
  let _ ← paths.mapM fun path => policyPathPattern (.str path) "source selector path"
  return ⟨paths, tags, types⟩

structure DomainQuerySignals where
  keywords : List String
  intents : List String
  deriving DecidableEq, Repr

/-- `DomainQuerySignals(...)` -/
def domainQuerySignals (keywords intents : List String) : Except Exn DomainQuerySignals := do
  boundedTuple keywords "query keywords" maxQueryKeywords
  boundedTuple intents "query intents" maxQueryIntents
  demand (allIn allowedQueryIntents intents) "query intent is invalid"
  return ⟨keywords, intents⟩

structure DomainEscalationPolicy where
  budgetClass : String
  stages : List String
  deriving DecidableEq, Repr

structure DomainRetrievalPolicy where
  stages : List String
  maxCandidates : Nat
  rerankTopK : Nat
  budgetClass : String
  escalation : Option DomainEscalationPolicy
  deriving DecidableEq, Repr

structure DomainIndexPolicy where
  priority : String
  dense : String
  deriving DecidableEq, Repr

structure DomainNoisePolicy where
  suppress : List String
  unsafeAction : String
  deriving DecidableEq, Repr

structure DomainAuthorityPolicy where
  prefer : List String
  rawCaptureDefault : Option String
  includeArchivedByDefault : Option Bool
  deriving DecidableEq, Repr

/-- `DomainPolicySpec`; the traversal policy is its stages. -/
structure DomainPolicySpec where
  name : String
  selectors : DomainSourceSelectors
  querySignals : DomainQuerySignals
  retrieval : DomainRetrievalPolicy
  traversal : List String
  index : DomainIndexPolicy
  noise : DomainNoisePolicy
  authority : DomainAuthorityPolicy
  deriving DecidableEq, Repr

/-- `_parse_source_selectors` -/
def parseSourceSelectors (raw : Value) (name : String) : Except Exn DomainSourceSelectors := do
  let fields ← checkKeys raw ["paths", "tags", "types"] ("domain " ++ name ++ " selectors")
  let rawPaths ← match getItemD fields "paths" (.list []) with
    | .list items =>
        if items.length ≤ maxSelectorValues then .ok items
        else .error (domainConfigError ("domain " ++ name ++ " selector paths must be bounded"))
    | _ => .error (domainConfigError ("domain " ++ name ++ " selector paths must be bounded"))
  let paths ← rawPaths.mapM fun item =>
    policyPathPattern item ("domain " ++ name ++ " selector path")
  let tags ← boundedStringList (getItemD fields "tags" (.list []))
    ("domain " ++ name ++ " selector tags") maxSelectorValues true
  let types ← boundedStringList (getItemD fields "types" (.list []))
    ("domain " ++ name ++ " selector types") maxSelectorValues true
  demand ((paths ≠ [] || tags ≠ [] || types ≠ []) && decide paths.Nodup)
    ("domain " ++ name ++ " source selectors are invalid")
  domainSourceSelectors paths tags types

/-- `_parse_query_signals` -/
def parseQuerySignals (raw : Value) (name : String) : Except Exn DomainQuerySignals := do
  let fields ← checkKeys raw ["keywords", "intents"] ("domain " ++ name ++ " query_signals")
  let keywords ← boundedStringList (getItemD fields "keywords" (.list []))
    ("domain " ++ name ++ " query keywords") maxQueryKeywords true
  let intents ← boundedStringList (getItemD fields "intents" (.list []))
    ("domain " ++ name ++ " query intents") maxQueryIntents true
  demand (allIn allowedQueryIntents intents) ("domain " ++ name ++ " query intent is invalid")
  domainQuerySignals keywords intents

/-- The stages of a field. -/
def parseStages (raw : Value) (field : String) (options : List String) (message : String) :
    Except Exn (List String) := do
  let stages ← boundedStringList raw field maxPolicyList false
  demand (allIn options stages) message
  return stages

/-- The escalation of a retrieval policy. -/
def parseEscalation (raw : Value) (name : String) : Except Exn (Option DomainEscalationPolicy) :=
  if isNone raw then .ok none
  else do
    let fields ← checkKeys raw ["budget_class", "stages"] ("domain " ++ name ++ " escalation")
    let budgetClass ← choice allowedBudgetClasses (getItem fields "budget_class")
      ("domain " ++ name ++ " escalation budget class is invalid")
    let stages ← parseStages (getItem fields "stages") ("domain " ++ name ++ " escalation stages")
      allowedRetrievalStages ("domain " ++ name ++ " escalation stage is invalid")
    return some ⟨budgetClass, stages⟩

/-- `_parse_retrieval_policy` -/
def parseRetrievalPolicy (raw : Value) (name : String) : Except Exn DomainRetrievalPolicy := do
  let fields ← checkKeys raw
    ["stages", "max_candidates", "rerank_top_k", "budget_class", "escalation"]
    ("domain " ++ name ++ " retrieval")
  let stages ← parseStages (getItem fields "stages") ("domain " ++ name ++ " retrieval stages")
    allowedRetrievalStages ("domain " ++ name ++ " retrieval stage is invalid")
  let maximum ← boundedInteger (getItem fields "max_candidates")
    ("domain " ++ name ++ " max_candidates") 1 10000
  let rerank ← boundedInteger (getItem fields "rerank_top_k")
    ("domain " ++ name ++ " rerank_top_k") 0 maximum
  let budgetClass ← choice allowedBudgetClasses (getItem fields "budget_class")
    ("domain " ++ name ++ " budget class is invalid")
  let escalation ← parseEscalation (getItem fields "escalation") name
  return ⟨stages, maximum, rerank, budgetClass, escalation⟩

/-- The index policy of a domain. -/
def parseIndexPolicy (raw : Value) (name : String) : Except Exn DomainIndexPolicy := do
  let message := "domain " ++ name ++ " index policy is invalid"
  let fields ← checkKeys raw ["priority", "dense"] ("domain " ++ name ++ " index")
  let priority ← choice allowedIndexPriorities (getItem fields "priority") message
  let dense ← choice allowedDensePolicies (getItem fields "dense") message
  return ⟨priority, dense⟩

/-- The noise policy of a domain. -/
def parseNoisePolicy (raw : Value) (name : String) : Except Exn DomainNoisePolicy := do
  let message := "domain " ++ name ++ " noise policy is invalid"
  let fields ← checkKeys raw ["suppress", "unsafe_action"] ("domain " ++ name ++ " noise")
  let suppress ← parseStages (getItem fields "suppress") ("domain " ++ name ++ " noise suppress")
    allowedNoiseRules message
  let unsafeAction ← choice allowedNoiseActions (getItem fields "unsafe_action") message
  return ⟨suppress, unsafeAction⟩

/-- `raw_capture_default` -/
def parseRawCapture (raw : Value) (name : String) : Except Exn (Option String) :=
  if isNone raw then .ok none
  else (choice ["RAW_ONLY"] raw ("domain " ++ name ++ " raw capture policy is invalid")).map some

/-- `include_archived_by_default` -/
def parseArchived (raw : Value) (name : String) : Except Exn (Option Bool) :=
  match raw with
  | .null => .ok none
  | .bool b => .ok (some b)
  | _ => .error (domainConfigError ("domain " ++ name ++ " archive default must be boolean"))

/-- The authority policy of a domain. -/
def parseAuthorityPolicy (raw : Value) (name : String) : Except Exn DomainAuthorityPolicy := do
  let fields ← checkKeys raw ["prefer", "raw_capture_default", "include_archived_by_default"]
    ("domain " ++ name ++ " authority")
  let prefer ← parseStages (getItem fields "prefer") ("domain " ++ name ++ " authority prefer")
    allowedAuthorityValues ("domain " ++ name ++ " authority value is invalid")
  let rawCapture ← parseRawCapture (getItem fields "raw_capture_default") name
  let archived ← parseArchived (getItem fields "include_archived_by_default") name
  return ⟨prefer, rawCapture, archived⟩

/-- `_V2_DOMAIN_FIELDS` -/
def v2DomainFields : List String := ["name", "selectors", "query_signals", "retrieval",
  "traversal", "index", "noise", "authority"]

/-- `_parse_v2_domain` -/
def parseV2Domain (raw : Value) : Except Exn DomainPolicySpec := do
  let fields ← checkKeys raw v2DomainFields "domain"
  let name ← domainName fields
  let selectors ← parseSourceSelectors (getItem fields "selectors") name
  let signals ← parseQuerySignals (getItem fields "query_signals") name
  let retrieval ← parseRetrievalPolicy (getItem fields "retrieval") name
  let traversal ← parseStages (getItem fields "traversal") ("domain " ++ name ++ " traversal")
    allowedTraversalStages ("domain " ++ name ++ " traversal declaration is invalid")
  let index ← parseIndexPolicy (getItem fields "index") name
  let noise ← parseNoisePolicy (getItem fields "noise") name
  let authority ← parseAuthorityPolicy (getItem fields "authority") name
  return ⟨name, selectors, signals, retrieval, traversal, index, noise, authority⟩

/-! ## Routing -/

/-- `DomainRoutingPolicy`; there is one tie policy. -/
structure DomainRoutingPolicy where
  keywordWeight : Nat
  intentWeight : Nat
  hintWeight : Nat
  minimumScore : ℚ
  lowConfidenceScore : ℚ
  maxMatches : Nat
  weighted : keywordWeight + intentWeight + hintWeight = 100
  deriving DecidableEq, Repr

/-- The weights of the keyword, the intent and the hint of a query. -/
def ScoreWeights := { weights : Nat × Nat × Nat // weights.1 + weights.2.1 + weights.2.2 = 100 }

/-- `score_weights` -/
def parseScoreWeights (raw : Value) : Except Exn ScoreWeights := do
  let weights ← checkKeys raw ["keyword", "intent", "hint"] "score_weights"
  let parsed ← weights.mapM fun item =>
    (boundedInteger item.2 ("score_weights." ++ item.1) 0 100).map fun weight => (item.1, weight)
  match parsed.lookup "keyword", parsed.lookup "intent", parsed.lookup "hint" with
  | some keyword, some intent, some hint =>
      if h : keyword + intent + hint = 100 then .ok ⟨(keyword, intent, hint), h⟩
      else .error (domainConfigError "score weights must be bounded integers summing to 100")
  | _, _, _ => .error (domainConfigError "score weights must be bounded integers summing to 100")

/-- `_V2_ROUTING_FIELDS` -/
def v2RoutingFields : List String :=
  ["score_weights", "minimum_score", "low_confidence_score", "max_matches", "tie_policy"]

/-- `_parse_routing_policy` -/
def parseRoutingPolicy (raw : Value) : Except Exn DomainRoutingPolicy := do
  let fields ← checkKeys raw v2RoutingFields "domain routing policy"
  let weights ← parseScoreWeights (getItem fields "score_weights")
  let minimum ← parseProbability (getItem fields "minimum_score") "minimum_score"
  let low ← parseProbability (getItem fields "low_confidence_score") "low_confidence_score"
  demand (low ≤ minimum) "low_confidence_score cannot exceed minimum_score"
  let maximum ← boundedInteger (getItem fields "max_matches") "max_matches" 1 maxRouterMatches
  let _ ← choice ["policy_order_then_domain_id"] (getItem fields "tie_policy")
    "tie_policy is not supported"
  return ⟨weights.val.1, weights.val.2.1, weights.val.2.2, minimum, low, maximum, weights.property⟩

/-- `_default_v1_routing()` -/
def defaultV1Routing : DomainRoutingPolicy where
  keywordWeight := 50
  intentWeight := 30
  hintWeight := 20
  minimumScore := doubleValue (.ofDecimal false 3 (-1))
  lowConfidenceScore := doubleValue (.ofDecimal false 2 (-1))
  maxMatches := maxRouterMatches
  weighted := rfl

/-! ## Policies -/

/-- `_POLICY_REVISION_RE.fullmatch(value)` -/
def isRevision (value : String) : Bool :=
  match value.toList with
  | [] => false
  | c :: cs => (isDigit c || isLower c) && cs.length ≤ 63 &&
      cs.all fun d => isDigit d || isLower d || d == '.' || d == '_' || d == '-'

structure DomainPolicyRegistry where
  version : Nat
  policyRevision : String
  normalizationRevision : String
  routing : DomainRoutingPolicy
  domains : List DomainPolicySpec
  deriving DecidableEq, Repr

/-- `DomainPolicyRegistry(...)` -/
def domainPolicyRegistry (version : Nat) (policyRevision normalizationRevision : String)
    (routing : DomainRoutingPolicy) (domains : List DomainPolicySpec) :
    Except Exn DomainPolicyRegistry := do
  demand ((version = 1 || version = 2) && domains.length ≤ maxDomains)
    "domain policy registry is outside its structural bounds"
  demand (decide (domains.map fun domain => domain.name).Nodup)
    "domain policy registry contains duplicate IDs"
  demand (isRevision policyRevision) "domain policy revision is invalid"
  demand (isRevision normalizationRevision) "normalization revision is invalid"
  return ⟨version, policyRevision, normalizationRevision, routing, domains⟩

/-- A revision of the policy, normalized. -/
def parseRevision (value : Value) : Except Exn String :=
  let malformed := domainConfigError "domain policy revisions are invalid"
  match value with
  | .str s =>
      if isRevision (PythonText.casefold (stripText s)) then
        .ok (PythonText.casefold (stripText s))
      else .error malformed
  | _ => .error malformed

/-- The entries of a policy. -/
def policyEntries (fields : Dict) : Except Exn (List Value) :=
  let malformed := domainConfigError "domain policy domains must be bounded and non-empty"
  match getItem fields "domains" with
  | .list entries =>
      if 0 < entries.length ∧ entries.length ≤ maxDomains then .ok entries else .error malformed
  | _ => .error malformed

/-- `_V2_ROOT_FIELDS` -/
def v2RootFields : List String :=
  ["version", "policy_revision", "normalization_revision", "routing", "domains"]

/-- `_parse_v2_policy` -/
def parseV2Policy (raw : Value) : Except Exn DomainPolicyRegistry := do
  let fields ← checkKeys raw v2RootFields "domain policy"
  demand (isVersion 2 (getItem fields "version")) "domain policy version must be 2"
  let revision ← parseRevision (getItem fields "policy_revision")
  let normalization ← parseRevision (getItem fields "normalization_revision")
  let entries ← policyEntries fields
  let domains ← entries.mapM parseV2Domain
  demand (decide (domains.map fun domain => domain.name).Nodup)
    "domain policy contains duplicate IDs"
  let routing ← parseRoutingPolicy (getItem fields "routing")
  domainPolicyRegistry 2 revision normalization routing domains

/-- A domain of the registry as a domain of a policy. -/
def adaptV1Domain (domain : RegisteredDomain) : Except Exn DomainPolicySpec := do
  let selectors ← domainSourceSelectors [PythonText.casefold domain.path ++ "/**"]
    (domain.rules.flatMap DomainRule.tags).eraseDups
    (domain.rules.flatMap DomainRule.types).eraseDups
  let signals ← domainQuerySignals (domain.rules.flatMap DomainRule.keywords).eraseDups []
  return { name := domain.name
           selectors := selectors
           querySignals := signals
           retrieval := ⟨["metadata", "fts"], 40, 0, "FAST", none⟩
           traversal := ["metadata"]
           index := ⟨"WARM", "deferred"⟩
           noise := ⟨["duplicate"], "quarantine"⟩
           authority := ⟨["canonical", "verified"], none, none⟩ }

/-- `_adapt_v1_registry` -/
def adaptV1Registry (registry : List RegisteredDomain) : Except Exn DomainPolicyRegistry := do
  let domains ← registry.mapM adaptV1Domain
  domainPolicyRegistry 1 "v1-adapter" "nfkc-casefold-tokens-v1" defaultV1Routing domains

/-- `raw["version"]` of a mapping. -/
def rawVersion : Value → Except Exn Int
  | .dict items =>
      match getItem items "version" with
      | .int n => .ok n
      | _ => .error (domainConfigError "domain policy version must be an integer")
  | _ => .error (domainConfigError "domain policy version must be an integer")

/-- The policy that a YAML value holds; a registry is read by its own loader. -/
def parsePolicy (config : DomainConfig) (raw : Value) : Except Exn DomainPolicyRegistry := do
  let version ← rawVersion raw
  if version = 1 then
    let registry ← loadDomainRegistry config
    adaptV1Registry registry
  else if version = 2 then parseV2Policy raw
  else .error (domainConfigError "unsupported domain policy version")

/-- `load_domain_policy` -/
def loadDomainPolicy (config : DomainConfig) : Except Exn DomainPolicyRegistry := do
  let explicit ← config.pathInfo
  match config.yaml with
  | none =>
      if explicit then .error (domainConfigError "explicit domain policy is missing")
      else domainPolicyRegistry 1 "v1-empty" "nfkc-casefold-tokens-v1" defaultV1Routing []
  | some yaml =>
      let raw ← loadYaml yaml "domain policy"
      parsePolicy config raw

/-! ## The two loaders -/

/-- The version of the configuration file, if it has one. -/
def DomainConfig.version (config : DomainConfig) : Option Int :=
  match config.yaml with
  | some (.ok raw) => (rawVersion raw).toOption
  | _ => none

theorem adaptV1Domain_name {domain : RegisteredDomain} {adapted : DomainPolicySpec}
    (h : adaptV1Domain domain = .ok adapted) : adapted.name = domain.name := by
  obtain ⟨selectors, -, h⟩ := bind_eq_ok.mp h
  obtain ⟨signals, -, h⟩ := bind_eq_ok.mp h
  cases h
  rfl

theorem domainPolicyRegistry_domains {version : Nat} {policyRevision normalizationRevision : String}
    {routing : DomainRoutingPolicy} {domains : List DomainPolicySpec}
    {policy : DomainPolicyRegistry}
    (h : domainPolicyRegistry version policyRevision normalizationRevision routing domains =
      .ok policy) : policy.domains = domains := by
  obtain ⟨⟨⟩, -, h⟩ := bind_eq_ok.mp h
  obtain ⟨⟨⟩, -, h⟩ := bind_eq_ok.mp h
  obtain ⟨⟨⟩, -, h⟩ := bind_eq_ok.mp h
  obtain ⟨⟨⟩, -, h⟩ := bind_eq_ok.mp h
  cases h
  rfl

/-- The adapted policy has the domains of the registry. -/
theorem adaptV1Registry_names {registry : List RegisteredDomain} {policy : DomainPolicyRegistry}
    (h : adaptV1Registry registry = .ok policy) :
    policy.domains.map (fun domain => domain.name) = registry.map fun domain => domain.name := by
  obtain ⟨domains, hdomains, h⟩ := bind_eq_ok.mp h
  rw [domainPolicyRegistry_domains h]
  exact map_of_mapM (fun _ _ => adaptV1Domain_name) hdomains

/-- A file of another version than the first is no registry. -/
theorem parseRegistry_version {config : DomainConfig} {raw : Value}
    {registry : List RegisteredDomain} (h : parseRegistry config raw = .ok registry) :
    rawVersion raw = .ok 1 := by
  obtain ⟨fields, hfields, h⟩ := bind_eq_ok.mp h
  obtain ⟨⟨⟩, hversion, -⟩ := bind_eq_ok.mp h
  rw [raiseIf_eq_ok] at hversion
  unfold checkKeys at hfields
  split at hfields
  · next items =>
    split_ifs at hfields
    cases hfields
    unfold isVersion at hversion
    split at hversion
    · next n hn =>
      rw [rawVersion, hn]
      simpa using hversion
    · exact absurd rfl hversion
  · cases hfields

theorem loadYaml_ok {yaml : Except (String → String) Value} {label : String} {raw : Value} :
    loadYaml yaml label = .ok raw ↔ yaml = .ok raw := by
  cases yaml with
  | error message =>
    constructor
    · intro h
      cases h
    · intro h
      cases h
  | ok value =>
    constructor
    · intro h
      cases h
      rfl
    · intro h
      cases h
      rfl

/-- The registry of a file that holds a YAML value. -/
theorem loadDomainRegistry_some {config : DomainConfig} {raw : Value} {explicit : Bool}
    (hinfo : config.pathInfo = .ok explicit) (hyaml : config.yaml = some (.ok raw)) :
    loadDomainRegistry config = parseRegistry config raw := by
  unfold loadDomainRegistry
  rw [hinfo, hyaml]
  rfl

/-- Where the policy loads, the registry loads exactly if the file is not of the second version,
and then they have the same domains. -/
theorem loadDomainPolicy_cases {config : DomainConfig} {policy : DomainPolicyRegistry}
    (h : loadDomainPolicy config = .ok policy) :
    (config.version = some 2 ∧ ∀ registry, loadDomainRegistry config ≠ .ok registry) ∨
      (config.version ≠ some 2 ∧ ∃ registry, loadDomainRegistry config = .ok registry ∧
        policy.domains.map (fun domain => domain.name) =
          registry.map fun domain => domain.name) := by
  obtain ⟨explicit, hinfo, hload⟩ := bind_eq_ok.mp h
  clear h
  cases hyaml : config.yaml with
  | none =>
    rw [hyaml] at hload
    cases explicit with
    | true => cases hload
    | false =>
      refine .inr ⟨by simp [DomainConfig.version, hyaml], [], ?_, ?_⟩
      · unfold loadDomainRegistry
        rw [hinfo, hyaml]
        rfl
      · rw [domainPolicyRegistry_domains hload]
        rfl
  | some yaml =>
    rw [hyaml] at hload
    obtain ⟨raw, hraw, h⟩ := bind_eq_ok.mp hload
    rw [loadYaml_ok.mp hraw] at hyaml
    clear hload hraw
    obtain ⟨version, hversion, h⟩ := bind_eq_ok.mp h
    have hconfig : config.version = some version := by
      rw [DomainConfig.version, hyaml]
      simp [hversion, Except.toOption]
    rw [hconfig]
    split_ifs at h with hone htwo
    · obtain ⟨registry, hregistry, h⟩ := bind_eq_ok.mp h
      exact .inr ⟨by simp [hone], registry, hregistry, adaptV1Registry_names h⟩
    · refine .inl ⟨by rw [htwo], fun registry hregistry => ?_⟩
      rw [loadDomainRegistry_some hinfo hyaml] at hregistry
      have hfirst := parseRegistry_version hregistry
      rw [hversion] at hfirst
      cases hfirst
      exact hone rfl

end

end PowerFramework.Domain
