import PowerFramework.Search.Compile
/-!
# Context contracts

The vocabulary of the retrieval planner: identifiers and source references, the axes of evidence,
the context item that carries its validity, and the plan.
-/

namespace PowerFramework.Retrieval

open Lib Lib.Failure Lib.Json Lib.Text Search

/-! ## References -/

/-- A failed check of a pydantic model. -/
def validationError (message : String) : Exn := ⟨"ValidationError", message⟩

/-- `_CONTROL_CHARACTERS.search(value)` -/
def hasControl (value : String) : Bool := value.toList.any isControl

/-- `_WINDOWS_DRIVE.match(value)` -/
def isDrive (value : String) : Bool :=
  match value.toList with
  | c :: ':' :: _ => isUpper c || isLower c
  | _ => false

/-- `_ENCODED_REFERENCE.search(value)` -/
def isEncoded (value : String) : Bool :=
  let folded := String.ofList (value.toList.map Char.toLower)
  ["%2e", "%2f", "%3a", "%5c"].any fun escape => isWithin escape folded

/-- `any(part == ".." for part in value.split("/"))` -/
def traverses (value : String) : Bool := (value.toList.splitOn '/').any (· == ['.', '.'])

/-- `value.startswith(("/", "\\"))`, or a drive. -/
def isAbsolute (value : String) : Bool :=
  startsWith "/" value || startsWith "\\" value || isDrive value

/-- `"://" in value or "\\" in value or _ENCODED_REFERENCE.search(value)` -/
def isEscaped (value : String) : Bool :=
  isWithin "://" value || isWithin "\\" value || isEncoded value

/-- `[A-Za-z0-9._/:-]` -/
def isIdentifierChar (c : Char) : Bool := isTokenChar c || c == ':' || c == '/'

/-- `Identifier` -/
def isIdentifier (value : String) : Bool :=
  (match value.toList with
    | [] => false
    | c :: cs => isAlnum c && cs.all isIdentifierChar && cs.length ≤ 255) &&
  !isAbsolute value && !isEscaped value && !traverses value

/-- `SourceReference` -/
def isSourceReference [PythonText] (value : String) : Bool :=
  value != "" && value.length ≤ 512 && !isAbsolute value && !hasControl value &&
  !(["file:", "http:", "https:", "data:", "javascript:"].any
    fun scheme => startsWith scheme (PythonText.lower value)) &&
  !isEscaped value && !traverses value

/-! ## The axes of evidence -/

inductive QueryIntentKind where
  | lookup | projectState | decision | task | code | infrastructure | research | governance
  | conversation | log | crossDomain | unknown
  deriving DecidableEq, Repr

inductive BudgetClass where
  | fast | balanced | deep
  deriving DecidableEq, Repr

inductive TrustState where
  | raw | proposed | curated | verified | canonical | superseded | archived | quarantined | noise
  deriving DecidableEq, Repr

inductive Authority where
  | canonical | verified | curated | proposed | unverified | unknown
  deriving DecidableEq, Repr

inductive AuthorityBasis where
  | canonicalLedger | verifiedProjection | curatedNote | proposal | rawCapture | unknown
  deriving DecidableEq, Repr

inductive RetrievalStage where
  | projectState | metadata | fts | tf | semantic | graphAssisted | rrf | temporal | noiseGate
  | rerank | rawFallback | materializedView
  deriving DecidableEq, Repr

inductive Freshness where
  | current | stale | expired | future | unknown
  deriving DecidableEq, Repr

inductive ContradictionState where
  | none | unresolved | conflicted | superseded | invalidated | unknown
  deriving DecidableEq, Repr

inductive NoiseState where
  | clean | downranked | excluded | quarantined | unknown
  deriving DecidableEq, Repr

/-- `Literal["excerpt", "reference"]` -/
inductive ContentKind where
  | excerpt | reference
  deriving DecidableEq, Repr

/-- `Literal["not_applicable", "redacted", "verified_safe"]` -/
inductive RedactionStatus where
  | notApplicable | redacted | verifiedSafe
  deriving DecidableEq, Repr

/-- `_TRUST_AUTHORITY_COMPATIBILITY` -/
def trustAuthority : TrustState → List Authority
  | .raw | .quarantined | .noise => [.unknown, .proposed, .unverified]
  | .canonical => [.canonical]
  | .verified => [.verified, .canonical]
  | .curated => [.curated, .verified, .canonical]
  | .proposed => [.proposed, .unverified, .unknown]
  | .superseded | .archived => [.canonical, .verified, .curated, .proposed, .unverified, .unknown]

/-- `_AUTHORITY_BASIS_COMPATIBILITY` -/
def authorityBasis : Authority → List AuthorityBasis
  | .canonical => [.canonicalLedger, .verifiedProjection, .curatedNote]
  | .verified => [.canonicalLedger, .verifiedProjection]
  | .curated => [.curatedNote, .verifiedProjection]
  | .proposed | .unverified | .unknown => [.proposal, .rawCapture, .unknown]

/-- `_AUTHORITY_RANK_INDEX` -/
def Authority.rank : Authority → Nat
  | .canonical => 0
  | .verified => 1
  | .curated => 2
  | .proposed => 3
  | .unverified => 4
  | .unknown => 5

/-! ## Context items -/

/-- `Provenance`; the planner names no events. -/
structure Provenance where
  sourceRefs : List String
  sourceRevision : String
  authorityBasis : AuthorityBasis
  deriving DecidableEq, Repr

/-- The arguments of `ContextItem`. -/
structure Evidence where
  sourceId : String
  sourceType : String
  authority : Authority
  trustState : TrustState
  domain : String
  domains : List String
  score : ℚ
  retrievalStage : RetrievalStage
  provenance : Provenance
  freshness : Freshness
  contradictionState : ContradictionState
  noiseState : NoiseState
  tokenCost : Nat
  excerpt : String
  contentKind : ContentKind
  redactionStatus : RedactionStatus
  deriving DecidableEq, Repr

section
variable [PythonText]

/-- The checks of the fields of `Provenance`. -/
def Provenance.valid (self : Provenance) : Bool :=
  1 ≤ self.sourceRefs.length && self.sourceRefs.length ≤ 128 &&
  self.sourceRefs.all isSourceReference && decide self.sourceRefs.Nodup &&
  isIdentifier self.sourceRevision

/-- The checks of single fields. -/
def Evidence.fieldsValid (self : Evidence) : Bool :=
  isIdentifier self.sourceId && isIdentifier self.sourceType && isIdentifier self.domain &&
  1 ≤ self.domains.length && self.domains.length ≤ 64 && self.domains.all isIdentifier &&
  decide self.domains.Nodup && -1000000000 ≤ self.score && self.score ≤ 1000000000 &&
  self.provenance.valid && self.tokenCost ≤ 100000 && self.excerpt.length ≤ 12000

/-- `validate_evidence_axes` -/
def Evidence.axesValid (self : Evidence) : Bool :=
  decide (self.domain ∈ self.domains) &&
  decide (self.authority ∈ trustAuthority self.trustState) &&
  decide (self.provenance.authorityBasis ∈ authorityBasis self.authority) &&
  !(self.trustState = .quarantined &&
    (self.noiseState ≠ .quarantined || self.redactionStatus = .notApplicable)) &&
  !(self.trustState = .noise && self.noiseState ≠ .excluded && self.noiseState ≠ .downranked) &&
  !((self.trustState = .raw || self.trustState = .quarantined) &&
    self.redactionStatus = .notApplicable) &&
  !(self.contentKind = .excerpt && self.excerpt ≠ "" && self.tokenCost = 0)

/-- `ContextItem` accepts the arguments. -/
def Evidence.valid (self : Evidence) : Bool := self.fieldsValid && self.axesValid

/-- `ContextItem` -/
structure ContextItem extends Evidence where
  accepted : toEvidence.valid = true

/-- `ContextItem(...)` -/
def contextItem (evidence : Evidence) : Except Exn ContextItem :=
  if h : evidence.valid = true then .ok ⟨evidence, h⟩
  else .error (validationError "validation error for ContextItem")

theorem contextItem_eq_ok {evidence : Evidence} {item : ContextItem} :
    contextItem evidence = .ok item ↔ item.toEvidence = evidence := by
  unfold contextItem
  constructor
  · intro h
    split at h
    · cases h
      rfl
    · cases h
  · rintro rfl
    rw [dif_pos item.accepted]

end

/-- `ExcludedItem` -/
structure ExcludedItem where
  sourceId : String
  reason : String
  deriving DecidableEq, Repr

/-! ## Budgets -/

inductive ModelLoadPolicy where
  | forbidden | selectedDomainOnly | explicitRequestOrEscalation
  deriving DecidableEq, Repr

/-- The arguments of `RetrievalBudget`. -/
structure BudgetArguments where
  budgetClass : BudgetClass
  maxCandidates : Nat
  maxTokens : Nat
  maxDomains : Nat
  maxGraphHops : Nat
  stages : List RetrievalStage
  modelLoad : ModelLoadPolicy
  denseAllowed : Bool
  rerankerAllowed : Bool
  graphAllowed : Bool
  deepExpansionAllowed : Bool
  rawFallbackAllowed : Bool
  deriving DecidableEq, Repr

/-- The structural caps of a class on candidates, tokens, domains and graph hops. -/
def BudgetClass.caps : BudgetClass → Nat × Nat × Nat × Nat
  | .fast => (40, 4000, 3, 0)
  | .balanced => (120, 12000, 4, 0)
  | .deep => (400, 30000, 16, 3)

/-- The capabilities of a class. -/
def BudgetArguments.capable (self : BudgetArguments) : Bool :=
  match self.budgetClass with
  | .fast => self.modelLoad = .forbidden && !self.denseAllowed && !self.rerankerAllowed &&
      !self.graphAllowed && !self.deepExpansionAllowed && !self.rawFallbackAllowed &&
      !([.semantic, .graphAssisted, .rerank, .rawFallback] : List RetrievalStage).any
        (fun stage => decide (stage ∈ self.stages))
  | .balanced => self.modelLoad = .selectedDomainOnly && self.denseAllowed &&
      self.rerankerAllowed && !self.graphAllowed && !self.deepExpansionAllowed &&
      !self.rawFallbackAllowed && decide (RetrievalStage.graphAssisted ∉ self.stages) &&
      decide (RetrievalStage.rawFallback ∉ self.stages)
  | .deep => self.modelLoad = .explicitRequestOrEscalation && self.denseAllowed &&
      self.rerankerAllowed && self.graphAllowed && self.deepExpansionAllowed &&
      self.rawFallbackAllowed

/-- `RetrievalBudget` accepts the arguments. -/
def BudgetArguments.valid (self : BudgetArguments) : Bool :=
  let caps := self.budgetClass.caps
  1 ≤ self.maxCandidates && self.maxCandidates ≤ caps.1 && 1 ≤ self.maxTokens &&
  self.maxTokens ≤ caps.2.1 && 1 ≤ self.maxDomains && self.maxDomains ≤ caps.2.2.1 &&
  self.maxGraphHops ≤ caps.2.2.2 && 1 ≤ self.stages.length && self.stages.length ≤ 16 &&
  decide self.stages.Nodup && self.capable

/-- `RetrievalBudget` -/
structure RetrievalBudget extends BudgetArguments where
  accepted : toBudgetArguments.valid = true

/-- `RetrievalBudget(...)` -/
def retrievalBudget (arguments : BudgetArguments) : Except Exn RetrievalBudget :=
  if h : arguments.valid = true then .ok ⟨arguments, h⟩
  else .error (validationError "validation error for RetrievalBudget")

/-! ## Plans -/

/-- The arguments of `DomainMatch`. -/
structure MatchArguments where
  domain : String
  score : ℚ
  reasons : List String
  deriving DecidableEq, Repr

/-- `DomainMatch` accepts the arguments; the reasons are the router's own words. -/
def MatchArguments.valid (self : MatchArguments) : Bool :=
  isIdentifier self.domain && 0 ≤ self.score && self.score ≤ 1 && 1 ≤ self.reasons.length &&
  self.reasons.length ≤ 16 && decide self.reasons.Nodup

/-- `DomainMatch` -/
structure DomainMatch extends MatchArguments where
  accepted : toMatchArguments.valid = true

/-- `DomainMatch(...)` -/
def domainMatch (arguments : MatchArguments) : Except Exn DomainMatch :=
  if h : arguments.valid = true then .ok ⟨arguments, h⟩
  else .error (validationError "validation error for DomainMatch")

/-- The arguments of `RetrievalPlan`; a scope has its temporal boundary. -/
structure PlanArguments where
  stages : List RetrievalStage
  attemptedStages : List RetrievalStage
  skippedStages : List RetrievalStage
  domainMatches : List DomainMatch
  scope : SearchScope
  temporalBoundary : TemporalBoundary
  dated : scope.temporalBoundary = some temporalBoundary
  budget : RetrievalBudget
  escalationReason : String

/-- `validate_stage_partition` -/
def PlanArguments.partitions (self : PlanArguments) : Bool :=
  self.attemptedStages.all (fun stage => decide (stage ∈ self.stages)) &&
  self.skippedStages.all (fun stage => decide (stage ∈ self.stages)) &&
  self.attemptedStages.all (fun stage => decide (stage ∉ self.skippedStages)) &&
  self.stages.all (fun stage => decide (stage ∈ self.attemptedStages ++ self.skippedStages)) &&
  !(decide (RetrievalStage.semantic ∈ self.stages) && !self.budget.denseAllowed) &&
  !(decide (RetrievalStage.rerank ∈ self.stages) && !self.budget.rerankerAllowed) &&
  !(decide (RetrievalStage.graphAssisted ∈ self.stages) && !self.budget.graphAllowed) &&
  !(decide (RetrievalStage.rawFallback ∈ self.stages) && !self.budget.rawFallbackAllowed)

/-- `RetrievalPlan` accepts the arguments. -/
def PlanArguments.valid (self : PlanArguments) : Bool :=
  1 ≤ self.stages.length && self.stages.length ≤ 16 && self.domainMatches.length ≤ 64 &&
  self.escalationReason.length ≤ 2048 && decide self.stages.Nodup &&
  decide self.attemptedStages.Nodup && decide self.skippedStages.Nodup && self.partitions

/-- `RetrievalPlan` -/
structure RetrievalPlan extends PlanArguments where
  accepted : toPlanArguments.valid = true

/-- `RetrievalPlan(...)` -/
def retrievalPlan (arguments : PlanArguments) : Except Exn RetrievalPlan :=
  if h : arguments.valid = true then .ok ⟨arguments, h⟩
  else .error (validationError "validation error for RetrievalPlan")

/-- `QueryIntent` -/
structure QueryIntent where
  query : String
  intent : QueryIntentKind
  budgetClass : BudgetClass
  domainHints : Option (List String)
  projectIds : Option (List String)
  temporalBoundary : Option TemporalBoundary
  includeArchived : Bool
  includeQuarantine : Bool
  maxTokens : Option Nat
  deriving DecidableEq, Repr

end PowerFramework.Retrieval
