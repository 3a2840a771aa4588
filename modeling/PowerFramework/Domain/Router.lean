import PowerFramework.Domain.Policy
/-!
# The domain router

`RetrievalDomainRouter.route`: which domains of a policy a query belongs to.
-/

namespace PowerFramework.Domain

open Lib Lib.Failure Lib.Json Lib.Text State Search Retrieval

set_option linter.unusedSectionVars false

section
variable [PythonText] [PythonUnicode] [PythonWord]

/-! ## Tokens -/

/-- `unicodedata.category(char) in {"Cc", "Cf"}` -/
def isInvisible (c : Char) : Bool :=
  c.toNat < 32 || 127 ≤ c.toNat && c.toNat ≤ 159 || PythonUnicode.isFormat c

/-- `_normalize_query_text` -/
def normalizeQueryText (value : String) : Except Exn String := do
  let folded := PythonText.casefold (PythonUnicode.nfkc value)
  let visible := String.ofList (folded.toList.map fun c => if isInvisible c then ' ' else c)
  let normalized := joinedWords visible
  demand (normalized ≠ "" && normalized.length ≤ 2048) "router query is empty or unbounded"
  return normalized

/-- `[^\W_]` -/
def isTokenLetter (c : Char) : Bool := PythonWord.isWord c && c != '_'

/-- `['\u2019\-]` -/
def isTokenJoint (c : Char) : Bool := c == '\'' || c == '\u2019' || c == '-'

/-- `_TOKEN_RE.findall`, behind the token that has begun. -/
def findTokens : List Char → List Char → List (List Char)
  | token, [] => if token = [] then [] else [token]
  | token, c :: rest =>
      if isTokenLetter c || isTokenJoint c && token ≠ [] && rest.head?.any isTokenLetter then
        findTokens (token ++ [c]) rest
      else if token = [] then findTokens [] rest
      else token :: findTokens [] rest

/-- `_query_tokens` -/
def queryTokens (value : String) : Except Exn (List (List Char)) :=
  (normalizeQueryText value).map fun text => findTokens [] text.toList

/-- `_contains_phrase` -/
def containsPhrase (tokens : List (List Char)) (phrase : String) : Except Exn Bool :=
  (queryTokens phrase).map fun phraseTokens =>
    phraseTokens ≠ [] && decide (phraseTokens <:+: tokens)

/-- `any(_contains_phrase(query_tokens, keyword) for keyword in keywords)` -/
def containsAny (tokens : List (List Char)) : List String → Except Exn Bool
  | [] => .ok false
  | keyword :: keywords => do
      let found ← containsPhrase tokens keyword
      if found then return true else containsAny tokens keywords

/-! ## Signals -/

/-- Which signals of a query point to a domain. -/
structure DomainSignals where
  domain : DomainPolicySpec
  keyword : Bool
  intent : Bool
  hint : Bool

/-- `units` -/
def DomainSignals.units (self : DomainSignals) (routing : DomainRoutingPolicy) : Nat :=
  (if self.keyword then routing.keywordWeight else 0) +
    (if self.intent then routing.intentWeight else 0) +
    if self.hint then routing.hintWeight else 0

/-- The signals that carry weight. -/
def DomainSignals.reasons (self : DomainSignals) (routing : DomainRoutingPolicy) : List String :=
  ([(self.keyword, routing.keywordWeight, "keyword_signal"),
    (self.intent, routing.intentWeight, "intent_signal"),
    (self.hint, routing.hintWeight, "caller_hint_signal")].filter fun signal =>
      signal.1 && 0 < signal.2.1).map fun signal => signal.2.2

/-- A hint points elsewhere than the other signals of the query. -/
def DomainSignals.conflicts (self : DomainSignals) (signals : List DomainSignals) : Bool :=
  let points := self.keyword || self.intent
  let hinted := signals.filter DomainSignals.hint
  !hinted.isEmpty &&
    (points && !self.hint && hinted.any (fun other => other.domain.name ≠ self.domain.name) ||
      self.hint && !points && signals.any fun other => other.keyword || other.intent)

/-- `units / 100.0` -/
def unitScore (units : Nat) : ℚ := doubleValue (.ofDecimal false units (-2))

/-- A domain that the query may be routed to. -/
structure Candidate where
  units : Nat
  domain : DomainPolicySpec
  reasons : List String

/-- `candidates`, in their order. -/
def candidates (routing : DomainRoutingPolicy) (signals : List DomainSignals) : List Candidate :=
  ((signals.map fun signal =>
    { units := signal.units routing
      domain := signal.domain
      reasons := signal.reasons routing ++
        if signal.conflicts signals then ["caller_hint_conflict"] else [] }).filter
      fun candidate : Candidate => candidate.reasons ≠ [] &&
        routing.minimumScore ≤ unitScore candidate.units).mergeSort
    fun a b => b.units ≤ a.units

/-- The match of a candidate. -/
def Candidate.result (self : Candidate) (routing : DomainRoutingPolicy) (top : Nat) :
    Except Exn DomainMatch :=
  domainMatch
    { domain := self.domain.name
      score := unitScore self.units
      reasons := self.reasons ++
        if unitScore self.units ≤ routing.lowConfidenceScore then
          [if self.units < top then "low_confidence_secondary" else "low_confidence_match"]
        else [] }

/-! ## `route` -/

/-- `normalized_intent` -/
def normalizedIntent (intent : String) : Except Exn String := do
  let text ← normalizePolicyText intent maxPolicyText
  demand (PythonText.casefold text ∈ allowedQueryIntents) "router intent is invalid"
  return PythonText.casefold text

/-- `normalized_hints` -/
def normalizedHints (hints : List String) : Except Exn (List String) := do
  let normalized ← hints.mapM fun hint =>
    (normalizePolicyText hint maxPolicyText).map PythonText.casefold
  demand (decide normalized.Nodup) "routing_hints contains duplicates"
  return normalized

/-- The signals of a query for a domain. -/
def domainSignals (tokens : List (List Char)) (intent : String) (hints : List String)
    (domain : DomainPolicySpec) : Except Exn DomainSignals :=
  (containsAny tokens domain.querySignals.keywords).map fun keyword =>
    ⟨domain, keyword, decide (intent ∈ domain.querySignals.intents), decide (domain.name ∈ hints)⟩

/-- `RetrievalDomainRouter.route` of a text with an intent; the budget is given by the number of
its domains. -/
def route (policy : DomainPolicyRegistry) (query intent : String) (routingHints : List String)
    (domainLimit : Nat) : Except Exn (List DomainMatch) := do
  demand (routingHints.length ≤ maxSelectorValues && routingHints.all fun hint =>
    stripText hint ≠ "") "routing_hints must contain bounded non-empty strings"
  let tokens ← queryTokens query
  let intent ← normalizedIntent intent
  let hints ← normalizedHints routingHints
  demand (1 ≤ domainLimit) "max_domains must be positive"
  let maximum := min (min maxRouterMatches policy.routing.maxMatches) domainLimit
  let signals ← policy.domains.mapM (domainSignals tokens intent hints)
  let found := candidates policy.routing signals
  let top := (found.head?.map Candidate.units).getD 0
  (found.take maximum).mapM fun candidate => candidate.result policy.routing top

/-! ## Where a query is routed -/

theorem mem_of_candidates {routing : DomainRoutingPolicy} {signals : List DomainSignals}
    {candidate : Candidate} (h : candidate ∈ candidates routing signals) :
    ∃ signal ∈ signals, signal.domain = candidate.domain := by
  unfold candidates at h
  rw [List.mem_mergeSort, List.mem_filter] at h
  obtain ⟨signal, hsignal, heq⟩ := List.mem_map.mp h.1
  exact ⟨signal, hsignal, by rw [← heq]⟩

theorem domainMatch_domain {arguments : MatchArguments} {result : DomainMatch}
    (h : domainMatch arguments = .ok result) : result.domain = arguments.domain := by
  unfold domainMatch at h
  split at h
  · cases h
    rfl
  · cases h

/-- A query is routed to domains of the policy only. -/
theorem mem_domains_of_route {policy : DomainPolicyRegistry} {query intent : String}
    {hints : List String} {limit : Nat} {results : List DomainMatch}
    (h : route policy query intent hints limit = .ok results) {result : DomainMatch}
    (hresult : result ∈ results) : ∃ domain ∈ policy.domains, domain.name = result.domain := by
  obtain ⟨⟨⟩, -, h⟩ := bind_eq_ok.mp h
  obtain ⟨tokens, -, h⟩ := bind_eq_ok.mp h
  obtain ⟨intent, -, h⟩ := bind_eq_ok.mp h
  obtain ⟨hints, -, h⟩ := bind_eq_ok.mp h
  obtain ⟨⟨⟩, -, h⟩ := bind_eq_ok.mp h
  obtain ⟨signals, hsignals, h⟩ := bind_eq_ok.mp h
  obtain ⟨candidate, hcandidate, hmatch⟩ := mem_of_mapM h hresult
  obtain ⟨signal, hsignal, hdomain⟩ := mem_of_candidates (List.mem_of_mem_take hcandidate)
  obtain ⟨domain, hmem, hmade⟩ := mem_of_mapM hsignals hsignal
  obtain ⟨keyword, -, rfl⟩ := map_eq_ok.mp hmade
  refine ⟨domain, hmem, ?_⟩
  rw [domainMatch_domain hmatch, ← hdomain]

end

end PowerFramework.Domain
