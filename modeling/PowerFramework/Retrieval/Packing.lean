import PowerFramework.Retrieval.Conclusion
/-!
# Compiling a context pack

`ContextPackCompiler.compile`: the candidates that fit the budgets, the identifiers made safe, and
the checks of a `ContextPack`.
-/

namespace PowerFramework.Retrieval

set_option linter.unusedSectionVars false

open Lib Lib.Failure Lib.Json Lib.Text State Search

/-! ## Identifiers -/

def stripSlashes (text : List Char) : List Char := text.dropWhile fun c => c = '/' || c = '\\'

/-- `cleaned.split("://")[-1]` -/
def afterScheme : List Char → List Char
  | [] => []
  | c :: cs =>
      if isWithin "://" (String.ofList cs) then afterScheme cs
      else if "://".toList.isPrefixOf (c :: cs) then (c :: cs).drop 3
      else c :: cs

/-- The drive in front is dropped. -/
def withoutDrive (text : List Char) : List Char :=
  match text with
  | _ :: ':' :: rest => stripSlashes rest
  | _ => text

/-- `_IDENTIFIER_SAFE_RE.fullmatch(cleaned)` -/
def isSafe (text : List Char) : Bool :=
  match text with
  | [] => false
  | c :: cs => isAlnum c && cs.all isIdentifierChar && cs.length ≤ 255

/-- `_safe_identifier`, given the hexadecimal digits of `uuid.uuid4()`. -/
def safeIdentifier (uuid lead val : String) : String :=
  if val = "" then lead ++ "-" ++ String.ofList (uuid.toList.take 8) else
  let parts := ((withoutDrive (afterScheme (stripSlashes val.toList))).splitOn '/').filter
    fun part => part ≠ [] ∧ part ≠ ['.', '.']
  let joined := (List.intercalate ['/'] parts).map fun c => if isIdentifierChar c then c else '_'
  let cleaned := match joined with
    | c :: cs => if isAlnum c then c :: cs else lead.toList ++ '-' :: c :: cs
    | [] => lead.toList ++ ['-']
  let short := cleaned.take 256
  if isSafe short then String.ofList short
  else lead ++ "-" ++ String.ofList ((Sha256.hexdigest val.toUTF8.data.toList).toList.take 16)

/-- The identifiers of a pack before they are made safe. -/
structure PackIds where
  requestId : String
  policyRevision : String
  generationRevision : String
  deriving DecidableEq, Repr

/-- `request_id or …`, `policy_revision or …`, `generation_revision or …` -/
def PackIds.resolve (requestId policyRevision generationRevision : Option String)
    (uuid plannerRevision : String) : PackIds where
  requestId := (requestId.filter (· ≠ "")).getD ("req-" ++ String.ofList (uuid.toList.take 16))
  policyRevision := (policyRevision.filter (· ≠ "")).getD plannerRevision
  generationRevision := (generationRevision.filter (· ≠ "")).getD "gen-v5d-active"

/-! ## Budgets -/

section
variable [PythonText]

def consumedTokens (items : List ContextItem) : Nat := (items.map fun item => item.tokenCost).sum

def excerptBytes (items : List ContextItem) : Nat :=
  (items.map fun item => item.excerpt.utf8ByteSize).sum

/-- `packed_items`, `new_excluded`, `accumulated_tokens` and `accumulated_bytes`. -/
structure Packing where
  items : List ContextItem
  excluded : List ExcludedItem
  tokens : Nat
  bytes : Nat

def Packing.exclude (self : Packing) (item : ContextItem) (reason : String) : Packing :=
  { self with excluded := self.excluded ++ [⟨item.sourceId, reason⟩] }

/-- One candidate of the loop. -/
def Packing.add (budget : RetrievalBudget) (self : Packing) (item : ContextItem) : Packing :=
  if budget.maxCandidates ≤ self.items.length then
    self.exclude item "budget_candidates_exceeded"
  else if budget.maxTokens < self.tokens + item.tokenCost then
    self.exclude item "budget_tokens_exceeded"
  else if maxContextPackBytes < self.bytes + item.excerpt.utf8ByteSize then
    self.exclude item "byte_limit_exceeded"
  else
    { self with
      items := self.items ++ [item]
      tokens := self.tokens + item.tokenCost
      bytes := self.bytes + item.excerpt.utf8ByteSize }

/-- The loop over the candidates. -/
def packCandidates (budget : RetrievalBudget) (candidates : List ContextItem) : Packing :=
  candidates.foldl (Packing.add budget) ⟨[], [], 0, 0⟩

/-! ## `ContextPack` -/

/-- `ShortText` -/
def isShortText (text : String) : Bool := 1 ≤ text.length && text.length ≤ 2048

/-- The arguments of `ContextPack`, with those of its budget and its explainability. -/
structure PackArguments where
  requestId : String
  query : String
  intent : QueryIntentKind
  budgetClass : BudgetClass
  plan : RetrievalPlan
  items : List ContextItem
  excluded : List ExcludedItem
  maxTokens : Nat
  consumedTokens : Nat
  denseUsed : Bool
  summary : String
  decisions : List String
  sourceRevisions : List String
  retrievalStatus : RetrievalStatus
  fallbackReason : String
  policyRevision : String
  generationRevision : String
  accessPolicy : AccessPolicy

/-- `ContextBudget` accepts the arguments. -/
def PackArguments.budgetValid (self : PackArguments) : Bool :=
  1 ≤ self.maxTokens && self.maxTokens ≤ 30000 && self.consumedTokens ≤ 30000 &&
  self.consumedTokens ≤ self.maxTokens

/-- `Explainability` accepts the arguments. -/
def PackArguments.explained (self : PackArguments) : Bool :=
  isShortText self.summary && self.decisions.length ≤ 64 && self.decisions.all isShortText &&
  self.sourceRevisions.length ≤ 128 && self.sourceRevisions.all isIdentifier &&
  decide self.sourceRevisions.Nodup

/-- The checks of single fields. -/
def PackArguments.fieldsValid (self : PackArguments) : Bool :=
  isIdentifier self.requestId && isShortText self.query && self.plan.domainMatches.length ≤ 64 &&
  self.items.length ≤ 1000 && self.excluded.length ≤ 1000 &&
  self.fallbackReason.length ≤ 2048 && isIdentifier self.policyRevision &&
  isIdentifier self.generationRevision

/-- The retrieval was degraded or failed. -/
def isDegraded (status : RetrievalStatus) : Bool :=
  decide (status ∈ [RetrievalStatus.degraded, .failed])

/-- `validate_pack_access` -/
def PackArguments.accessValid (self : PackArguments) : Bool :=
  !(isDegraded self.retrievalStatus && self.fallbackReason = "") &&
  self.budgetClass = self.plan.budget.budgetClass &&
  self.maxTokens ≤ self.plan.budget.maxTokens &&
  self.items.length ≤ self.plan.budget.maxCandidates &&
  Retrieval.consumedTokens self.items = self.consumedTokens &&
  excerptBytes self.items ≤ maxContextPackBytes &&
  !(self.denseUsed && !self.plan.budget.denseAllowed) &&
  !(self.items.any (fun item => item.trustState = TrustState.raw) &&
    self.accessPolicy.rawAccess ≠ .privileged) &&
  !(self.items.any (fun item => item.trustState = TrustState.quarantined) &&
    self.accessPolicy.quarantineAccess ≠ .privileged)

/-- `ContextPack` accepts the arguments. -/
def PackArguments.valid (self : PackArguments) : Bool :=
  self.budgetValid && self.explained && self.fieldsValid && self.accessValid

/-- `ContextPack` -/
structure ContextPack extends PackArguments where
  accepted : toPackArguments.valid = true

/-! ## `compile` -/

/-- `safe_revs` -/
def safeRevisions (uuid : String) (result : PlannerResult) (items : List ContextItem)
    (generation : String) : List String :=
  let raw := if result.sourceRevisions = [] then items.map fun item => item.sourceId
    else result.sourceRevisions
  let safe := ((raw.map (safeIdentifier uuid "src")).eraseDups).take 128
  if safe = [] then [generation] else safe

/-- `decisions_list` -/
def packDecisions (result : PlannerResult) : List String :=
  let decisions := (result.explainabilityDecisions.map fun text =>
    String.ofList (text.toList.take 2048)).take 64
  if decisions = [] then ["Retrieval and context compilation complete."] else decisions

/-- `summary` -/
def packSummary (items tokens domains : Nat) : String :=
  String.ofList (("Compiled " ++ toString items ++ " item(s) (" ++ toString tokens ++
    " tokens) across " ++ toString domains ++ " domain(s)").toList.take 2048)

/-- `fallback_reason` -/
def packFallback (result : PlannerResult) : String :=
  if isDegraded result.retrievalStatus ∧ result.fallbackReason = "" then
    "Retrieval completed with degraded status"
  else result.fallbackReason

/-- The arguments of the pack that is compiled. -/
def packArguments (uuid : String) (ids : PackIds) (intent : QueryIntent)
    (accessPolicy : AccessPolicy) (result : PlannerResult) : PackArguments :=
  let packing := packCandidates result.plan.budget result.candidates
  let generation := safeIdentifier uuid "gen" ids.generationRevision
  { requestId := safeIdentifier uuid "req" ids.requestId
    query := intent.query
    intent := intent.intent
    budgetClass := intent.budgetClass
    plan := result.plan
    items := packing.items
    excluded := result.excluded ++ packing.excluded
    maxTokens := result.plan.budget.maxTokens
    consumedTokens := packing.tokens
    denseUsed := result.denseUsed
    summary := packSummary packing.items.length packing.tokens result.plan.domainMatches.length
    decisions := packDecisions result
    sourceRevisions := safeRevisions uuid result packing.items generation
    retrievalStatus := result.retrievalStatus
    fallbackReason := packFallback result
    policyRevision := safeIdentifier uuid "pol" ids.policyRevision
    generationRevision := generation
    accessPolicy := accessPolicy }

/-- `ContextPackCompiler.compile` -/
def compile (uuid : String) (ids : PackIds) (intent : QueryIntent) (accessPolicy : AccessPolicy)
    (result : PlannerResult) : Except Exn ContextPack :=
  let arguments := packArguments uuid ids intent accessPolicy result
  if h : arguments.valid = true then .ok ⟨arguments, h⟩
  else .error (validationError "validation error for ContextPack")

/-! ## What fits -/

/-- The items are within the budgets of candidates, tokens and bytes. -/
structure Within (budget : RetrievalBudget) (items : List ContextItem) : Prop where
  count : items.length ≤ budget.maxCandidates
  tokens : consumedTokens items ≤ budget.maxTokens
  bytes : excerptBytes items ≤ maxContextPackBytes

/-- The items exceed the budget that the reason names. -/
def Exceeds (budget : RetrievalBudget) (items : List ContextItem) (reason : String) : Prop :=
  reason = "budget_candidates_exceeded" ∧ budget.maxCandidates < items.length ∨
  reason = "budget_tokens_exceeded" ∧ budget.maxTokens < consumedTokens items ∨
  reason = "byte_limit_exceeded" ∧ maxContextPackBytes < excerptBytes items

/-- Behind the items that are packed already, every candidate is packed that fits, and the others
are left out for a budget they would exceed. -/
inductive Packs (budget : RetrievalBudget) :
    List ContextItem → List ContextItem → List ContextItem → List ExcludedItem → Prop where
  | nil (before : List ContextItem) : Packs budget before [] [] []
  | packed {before candidates items : List ContextItem} {item : ContextItem}
      {unpacked : List ExcludedItem} (fits : Within budget (before ++ [item]))
      (rest : Packs budget (before ++ [item]) candidates items unpacked) :
      Packs budget before (item :: candidates) (item :: items) unpacked
  | leftOut {before candidates items : List ContextItem} {item : ContextItem}
      {unpacked : List ExcludedItem} {reason : String}
      (exceeds : Exceeds budget (before ++ [item]) reason)
      (rest : Packs budget before candidates items unpacked) :
      Packs budget before (item :: candidates) items (⟨item.sourceId, reason⟩ :: unpacked)

variable {budget : RetrievalBudget} {before candidates items items' : List ContextItem}
  {item : ContextItem} {unpacked unpacked' : List ExcludedItem}

theorem Packs.sublist (h : Packs budget before candidates items unpacked) :
    items.Sublist candidates := by
  induction h with
  | nil => exact List.Sublist.slnil
  | packed _ _ ih => exact ih.cons_cons _
  | leftOut _ _ ih => exact ih.cons _

/-- The items and the exclusions name the candidates, each of them once. -/
theorem Packs.perm (h : Packs budget before candidates items unpacked) :
    (items.map (fun item => item.sourceId) ++ unpacked.map ExcludedItem.sourceId).Perm
      (candidates.map fun item => item.sourceId) := by
  induction h with
  | nil => exact List.Perm.refl _
  | packed _ _ ih => exact ih.cons _
  | leftOut _ _ ih => exact List.perm_middle.trans (ih.cons _)

theorem Packs.length (h : Packs budget before candidates items unpacked) :
    items.length + unpacked.length = candidates.length := by
  simpa using h.perm.length_eq

/-- What exceeds a budget does not fit. -/
theorem Exceeds.not_within {reason : String} (h : Exceeds budget items reason) :
    ¬ Within budget items := by
  intro hwithin
  rcases h with ⟨-, hlt⟩ | ⟨-, hlt⟩ | ⟨-, hlt⟩
  · exact absurd hwithin.count (by omega)
  · exact absurd hwithin.tokens (by omega)
  · exact absurd hwithin.bytes (by omega)

theorem Packs.unique (h : Packs budget before candidates items unpacked)
    (h' : Packs budget before candidates items' unpacked') : items = items' := by
  induction h generalizing items' unpacked' with
  | nil =>
    cases h'
    rfl
  | packed fits _ ih =>
    cases h' with
    | packed _ rest' => rw [ih rest']
    | leftOut exceeds' _ => exact absurd fits exceeds'.not_within
  | leftOut exceeds _ ih =>
    cases h' with
    | packed fits' _ => exact absurd fits' exceeds.not_within
    | leftOut _ rest' => exact ih rest'

end

/-! ## What a retrieval guarantees -/

section
variable [PythonText] [PythonYaml] [PythonWord] [PythonMath] {planner : Planner}
  {plan : RetrievalPlan} {intent : QueryIntent} {accessPolicy : AccessPolicy}
  {result : PlannerResult}

end

section
variable [PythonText] {intent : QueryIntent} {accessPolicy : AccessPolicy}
  {result : PlannerResult} {uuid : String} {ids : PackIds}

/-! ## When a pack is compiled -/

end

/-! ## A plan that says nothing of its escalation -/

section

attribute [local instance] PythonText.ascii PythonWord.asciiOnly PythonYaml.quarantineTag
  PythonMath.identity

end

end PowerFramework.Retrieval
