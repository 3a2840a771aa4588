import PowerFramework.Domain.Router
import PowerFramework.Retrieval.Retrieve
/-!
# Planning

`RetrievalPlanner.plan`: the caps of a budget, the domains of a query and the scope of the
search.
-/

namespace PowerFramework.Retrieval

open Lib Lib.Failure Lib.Json State Search Domain

set_option linter.unusedSectionVars false

/-! ## Caps -/

/-- `ProfileBudgetLayer`, without its source. -/
structure BudgetLayer where
  maxCandidates : Option Nat
  maxTokens : Option Nat
  maxDomains : Option Nat
  maxGraphHops : Option Nat
  deriving DecidableEq, Repr

/-- `BudgetProfile` -/
structure BudgetProfile where
  maxCandidates : Nat
  maxTokens : Nat
  maxDomains : Nat
  maxGraphHops : Nat
  modelLoad : ModelLoadPolicy
  deriving DecidableEq, Repr

/-- The layers of `RetrievalBudgetPolicy.default()` that the server selects. -/
def serverLayers : List BudgetLayer := [
  ⟨some 100, some 30000, some 4, some 3⟩,
  ⟨some 80, some 20000, some 3, some 2⟩,
  ⟨some 60, some 15000, some 2, some 1⟩]

/-- `profiles` of `RetrievalBudgetPolicy.default()`. -/
def BudgetClass.profile : BudgetClass → BudgetProfile
  | .fast => ⟨10, 4000, 1, 0, .forbidden⟩
  | .balanced => ⟨25, 12000, 2, 1, .selectedDomainOnly⟩
  | .deep => ⟨50, 30000, 4, 2, .explicitRequestOrEscalation⟩

/-- One field of `resolve_budget_caps`. -/
def resolveCap (name : String) (baseline : Nat) (layers : List (Option Nat))
    (hint : Option Nat) : Except Exn Nat :=
  let cap := (layers.filterMap id).foldl min baseline
  match hint with
  | none => .ok cap
  | some value =>
      if cap < value then
        .error ⟨"CallerBudgetEscalationError",
          "caller hint raises " ++ name ++ " above server-selected cap"⟩
      else .ok (min cap value)

/-- `resolve_budget_caps(RetrievalBudgetPolicy.default(caller_hint), budget_class)` -/
def resolveBudgetCaps (callerHint : Option BudgetLayer) (budgetClass : BudgetClass) :
    Except Exn BudgetProfile := do
  let hint := callerHint.getD ⟨none, none, none, none⟩
  let profile := budgetClass.profile
  let candidates ← resolveCap "max_candidates" profile.maxCandidates
    (serverLayers.map BudgetLayer.maxCandidates) hint.maxCandidates
  let tokens ← resolveCap "max_tokens" profile.maxTokens
    (serverLayers.map BudgetLayer.maxTokens) hint.maxTokens
  let domains ← resolveCap "max_domains" profile.maxDomains
    (serverLayers.map BudgetLayer.maxDomains) hint.maxDomains
  let hops ← resolveCap "max_graph_hops" profile.maxGraphHops
    (serverLayers.map BudgetLayer.maxGraphHops) hint.maxGraphHops
  return ⟨candidates, tokens, domains, hops, profile.modelLoad⟩

/-- The budget of a class within the caps of a profile. -/
def budgetOf (profile : BudgetProfile) (budgetClass : BudgetClass) (maxTokens : Option Nat) :
    BudgetArguments :=
  match budgetClass with
  | .fast =>
      { budgetClass := .fast
        maxCandidates := profile.maxCandidates
        maxTokens := min profile.maxTokens (maxTokens.getD 4000)
        maxDomains := profile.maxDomains
        maxGraphHops := 0
        stages := [.fts, .projectState]
        modelLoad := .forbidden
        denseAllowed := false
        rerankerAllowed := false
        graphAllowed := false
        deepExpansionAllowed := false
        rawFallbackAllowed := false }
  | .balanced =>
      { budgetClass := .balanced
        maxCandidates := profile.maxCandidates
        maxTokens := min profile.maxTokens (maxTokens.getD 12000)
        maxDomains := profile.maxDomains
        maxGraphHops := 0
        stages := [.fts, .projectState, .semantic, .rerank]
        modelLoad := .selectedDomainOnly
        denseAllowed := true
        rerankerAllowed := true
        graphAllowed := false
        deepExpansionAllowed := false
        rawFallbackAllowed := false }
  | .deep =>
      { budgetClass := .deep
        maxCandidates := profile.maxCandidates
        maxTokens := min profile.maxTokens (maxTokens.getD 30000)
        maxDomains := profile.maxDomains
        maxGraphHops := profile.maxGraphHops
        stages := [.fts, .projectState, .semantic, .graphAssisted, .rerank, .rawFallback]
        modelLoad := .explicitRequestOrEscalation
        denseAllowed := true
        rerankerAllowed := true
        graphAllowed := true
        deepExpansionAllowed := true
        rawFallbackAllowed := true }

/-- `budget_class.value` -/
def BudgetClass.value : BudgetClass → String
  | .fast => "FAST"
  | .balanced => "BALANCED"
  | .deep => "DEEP"

/-! ## The scope -/

/-- `effective_domain_ids` -/
def effectiveDomainIds (hints matched : List String) : List String :=
  if hints ≠ [] then
    if matched ≠ [] then
      let admitted := hints.filter fun hint => decide (hint ∈ matched)
      if admitted = [] then hints else admitted
    else hints
  else matched

/-- The privileged flags of the query are not granted. -/
def privilegeMissing (intent : QueryIntent) (accessPolicy : Option AccessPolicy) : Bool :=
  (intent.includeArchived || intent.includeQuarantine) && accessPolicy.all fun policy =>
    policy.rawAccess ≠ .privileged || policy.quarantineAccess ≠ .privileged

/-- The hints of a query. -/
def QueryIntent.hints (self : QueryIntent) : List String := self.domainHints.getD []

section
variable [PythonText] [PythonUnicode] [PythonWord]

/-- `_get_domain_registry`: the policy the planner was given, or that of its vault. -/
def domainPolicy (given : Option DomainPolicyRegistry) (config : DomainConfig) :
    Except Exn DomainPolicyRegistry :=
  match given with
  | some policy => .ok policy
  | none => loadDomainPolicy config

/-- `RetrievalPlanner.plan`, on the date of `today`. -/
def plan (given : Option DomainPolicyRegistry) (config : DomainConfig) (today : Temporal.Date)
    (intent : QueryIntent) (callerHint : Option BudgetLayer) (accessPolicy : Option AccessPolicy) :
    Except Exn RetrievalPlan := do
  let profile ← resolveBudgetCaps callerHint intent.budgetClass
  let budget ← retrievalBudget (budgetOf profile intent.budgetClass intent.maxTokens)
  let policy ← domainPolicy given config
  let found ← route policy intent.query intent.intent.value intent.hints budget.maxDomains
  raiseIf (intent.projectIds.getD [] ≠ []) (unsupportedDimension "project_ids")
  raiseIf (privilegeMissing intent accessPolicy) ⟨"SearchScopeAccessDeniedError",
    "privileged search scope requested without a verified privileged AccessPolicy"⟩
  let boundary := intent.temporalBoundary.getD ⟨today, false⟩
  retrievalPlan {
    stages := budget.stages
    attemptedStages := []
    skippedStages := budget.stages
    domainMatches := found
    scope := {
      domainIds := effectiveDomainIds intent.hints (found.map fun entry => entry.domain)
      pathPrefixes := []
      sourceTypes := []
      trustStates := []
      temporalBoundary := some boundary
      projectIds := intent.projectIds.getD []
      includeArchived := intent.includeArchived
      includeQuarantine := intent.includeQuarantine }
    temporalBoundary := boundary
    dated := rfl
    budget := budget
    escalationReason := "Admitted " ++ toString found.length ++ " domain(s) under " ++
      intent.budgetClass.value ++ " budget profile" }

end

end PowerFramework.Retrieval
