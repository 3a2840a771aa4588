import PowerFramework.Lib.Grouping
import PowerFramework.Lib.Sha256
import PowerFramework.Retrieval.Canonical
/-!
# Retrieving

`RetrievalPlanner.retrieve`: the stages of a plan, the merging of what they found, the screening
of every item and the order of the candidates.
-/

namespace PowerFramework.Retrieval

set_option linter.unusedSectionVars false

open Lib Lib.Failure Lib.Json Lib.Loop Lib.Grouping State Search

/-! ## Search results -/

/-- `float(score)` -/
inductive Score where
  | finite (score : ℚ)
  | infinite (negative : Bool)
  | nan
  deriving DecidableEq, Repr

/-- `max(0.0001, score)`; an infinite score is no score of a `ContextItem`. -/
def Score.clamped : Score → Except Exn ℚ
  | .finite score => .ok (max (1 / 10000) score)
  | .infinite true => .ok (1 / 10000)
  | .infinite false => .error (validationError "NaN and Infinity values are forbidden")
  | .nan => .ok (1 / 10000)

/-- A result of the search function. -/
structure Hit where
  relPath : String
  snippet : String
  content : String
  score : Score
  deriving DecidableEq, Repr

/-- `getattr(r, "snippet", "") or getattr(r, "content", "")` -/
def Hit.text (self : Hit) : String := if self.snippet ≠ "" then self.snippet else self.content

/-- `source_rev` -/
def sourceRevision (content : String) : String :=
  if content ≠ "" then Sha256.hexdigest content.toUTF8.data.toList else "unknown"

/-- `raw_domain` -/
def rawDomain (plan : RetrievalPlan) : String :=
  (plan.domainMatches.head?.map fun first => first.domain).getD "general"

/-- The arguments of the `ContextItem` of a search result. -/
def Hit.evidence (self : Hit) (plan : RetrievalPlan) (stage : RetrievalStage)
    (verdict : Inspection) (score : ℚ) : Evidence where
  sourceId := self.relPath
  sourceType := verdict.sourceType
  authority := verdict.authority
  trustState := verdict.trustState
  domain := rawDomain plan
  domains := [rawDomain plan]
  score := score
  retrievalStage := stage
  provenance := ⟨[self.relPath], sourceRevision self.text, verdict.authorityBasis⟩
  freshness := verdict.freshness
  contradictionState := verdict.contradictionState
  noiseState := verdict.noiseState
  tokenCost := deterministicTokenCost self.text
  excerpt := self.text
  contentKind := if self.text ≠ "" then .excerpt else .reference
  redactionStatus := .verifiedSafe

/-! ## The planner -/

/-- What a planner works with; `search` is its search function, given the query, the limit, the
mode, the scope and the access policy. -/
structure Planner where
  vault : Vault
  files : NoteFiles
  stores : Stores
  search : String → Nat → String → SearchScope → AccessPolicy → Except Exn (List Hit)
  /-- `dense_embedding_ready()` -/
  denseReady : Bool × String
  /-- Whether `resolve_active_generation` finds one; an `ActiveGenerationError` is its message. -/
  activeGeneration : Except String Bool

section
variable [PythonText] [PythonYaml] [PythonWord]

/-- The item of a search result. -/
def noteItem (files : NoteFiles) (plan : RetrievalPlan) (stage : RetrievalStage) (hit : Hit) :
    Except Exn ContextItem := do
  let verdict ← inspectVaultNoteAuthority files hit.relPath hit.text
  let score ← hit.score.clamped
  contextItem (hit.evidence plan stage verdict score)

/-- The items of the results before the first one that fails, and the exception. -/
def noteItems (files : NoteFiles) (plan : RetrievalPlan) (stage : RetrievalStage)
    (hits : List Hit) : List (ContextItem × String) × Option Exn :=
  let results := untilFailure (noteItem files plan stage) hits
  (results.1.map fun entry => (entry.2, sourceRevision entry.1.text), results.2.map Prod.snd)

/-- The results of one search, or none when it fails. -/
def searchItems (planner : Planner) (plan : RetrievalPlan) (intent : QueryIntent)
    (accessPolicy : AccessPolicy) (stage : RetrievalStage) (mode : String) :
    List (ContextItem × String) × Option Exn :=
  match planner.search intent.query plan.budget.maxCandidates mode plan.scope accessPolicy with
  | .error exn => ([], some exn)
  | .ok hits => noteItems planner.files plan stage hits

/-- The lexical stage. -/
def ftsStage (planner : Planner) (plan : RetrievalPlan) (intent : QueryIntent)
    (accessPolicy : AccessPolicy) : Harvest :=
  let found := searchItems planner plan intent accessPolicy .fts "fts"
  { items := found.1
    decisions := (found.2.map fun exn => "FTS search encountered exception: " ++ exn.kind).toList
    status := .complete
    fallbackReason := "" }

/-- What the dense stage adds, whether it was attempted, and whether it was used. -/
structure DenseHarvest extends Harvest where
  attempted : Bool
  used : Bool

/-- A dense stage that falls back to the lexical results. -/
def DenseHarvest.fallback (items : List (ContextItem × String)) (attempted : Bool)
    (reason : String) : DenseHarvest :=
  { items := items, decisions := [reason], status := .degraded, fallbackReason := reason
    attempted := attempted, used := false }

/-- The dense stage. -/
def semanticStage (planner : Planner) (plan : RetrievalPlan) (intent : QueryIntent)
    (accessPolicy : AccessPolicy) : Except Exn DenseHarvest :=
  if plan.budget.denseAllowed = false then
    .ok { Harvest.nothing with attempted := false, used := false }
  else
    (planner.activeGeneration.mapError fun message => ⟨"ActiveGenerationError", message⟩).map
      fun active =>
        if planner.denseReady.1 && active then
          let found := searchItems planner plan intent accessPolicy .semantic "vector"
          match found.2 with
          | none =>
              { items := found.1, decisions := [], status := .complete, fallbackReason := ""
                attempted := true, used := true }
          | some exn => .fallback found.1 true
              ("dense search error (" ++ exn.kind ++ "); fallback to FTS lexical")
        else .fallback [] false ("dense model or generation unavailable (" ++
          planner.denseReady.2 ++ "); fallback to FTS lexical")

/-! ## Merging -/

/-- The domains of two items of one source. -/
def mergedDomains (existing item : ContextItem) : List String :=
  sortedSet (existing.domains ++ item.domains)

/-- The item whose authority, and then whose score, is better. -/
def winner (existing item : ContextItem) : ContextItem :=
  if existing.authority.rank < item.authority.rank then existing
  else if item.authority.rank < existing.authority.rank then item
  else if item.score ≤ existing.score then existing else item

/-- What an item makes of the one its source has already. -/
def mergeItem (held : Option ContextItem) (item : ContextItem) : Except Exn ContextItem :=
  match held with
  | none => .ok item
  | some existing =>
      contextItem { (winner existing item).toEvidence with domains := mergedDomains existing item }

/-- `deduped_items` -/
def dedupedItems (collected : List ContextItem) : Except Exn (List ContextItem) :=
  (collected.foldlM (regroup mergeItem fun item => item.sourceId) []).map
    (List.map Prod.snd)

/-! ## Screening -/

/-- `scan_text` -/
def scanText (files : NoteFiles) (item : ContextItem) : Except Exn String := do
  let present ← if item.sourceType = "vault_note" then files.present item.sourceId else .ok false
  return if present then
      match files.readText item.sourceId with
      | .ok noteText => item.excerpt ++ "\n" ++ noteText
      | .error _ => item.excerpt
    else item.excerpt

/-- `quarantined_item` -/
def quarantinedEvidence (item : ContextItem) : Evidence :=
  { item.toEvidence with
    authority := .unverified
    trustState := .quarantined
    provenance := { item.provenance with authorityBasis := .rawCapture }
    noiseState := .quarantined
    contentKind := .excerpt
    redactionStatus := .redacted }

/-- An unbacked claim of authority stands in the excerpt. -/
def claimsAuthority (item : ContextItem) : Bool :=
  decide (item.authority ∉ [Authority.canonical, .verified]) && spoofed item.excerpt

/-- `cleaned_text` -/
def cleanedText (item : ContextItem) : String :=
  if hasSecret item.excerpt then redact item.excerpt else item.excerpt

/-- `assigned_noise` -/
def assignedNoise (item : ContextItem) : NoiseState :=
  let stripped := stripText (cleanedText item)
  if stripped = "" ∨ stripped.length < 5 then .downranked else item.noiseState

/-- The item that goes on after redaction, the spoof and the noise inspection. -/
def screenedEvidence (item : ContextItem) : Evidence :=
  let claims := claimsAuthority item
  { item.toEvidence with
    authority := if claims then .unverified else item.authority
    trustState := if claims then .raw else item.trustState
    provenance := if claims then { item.provenance with authorityBasis := .rawCapture }
      else item.provenance
    noiseState := assignedNoise item
    tokenCost := deterministicTokenCost (cleanedText item)
    excerpt := cleanedText item
    redactionStatus := if hasSecret item.excerpt then .redacted else item.redactionStatus }

/-- Why evidence of a trust state is left out, if it is. -/
def exclusionReason (plan : RetrievalPlan) (accessPolicy : AccessPolicy) : TrustState → Option String
  | .raw => if accessPolicy.rawAccess ≠ .privileged then some "raw_access_denied" else none
  | .quarantined =>
      if accessPolicy.quarantineAccess ≠ .privileged then some "quarantine_policy_excluded"
      else none
  | .superseded =>
      if plan.temporalBoundary.includeHistorical = false then some "superseded_evidence_excluded"
      else none
  | .archived =>
      if plan.scope.includeArchived = false ∧ plan.temporalBoundary.includeHistorical = false then
        some "archived_evidence_excluded"
      else none
  | _ => none

/-- What screening makes of an item. -/
inductive Screened where
  | kept (item : ContextItem)
  | excluded (item : ExcludedItem)

/-- An item without injected instructions. -/
def screenClean (plan : RetrievalPlan) (accessPolicy : AccessPolicy) (item : ContextItem) :
    Except Exn Screened :=
  let evidence := screenedEvidence item
  match exclusionReason plan accessPolicy evidence.trustState with
  | some reason => .ok (.excluded ⟨item.sourceId, reason⟩)
  | none => (contextItem evidence).map .kept

/-- An item with injected instructions. -/
def screenInjected (accessPolicy : AccessPolicy) (item : ContextItem) : Except Exn Screened :=
  (contextItem (quarantinedEvidence item)).map fun quarantined =>
    if accessPolicy.quarantineAccess ≠ .privileged then
      .excluded ⟨item.sourceId, "quarantine_policy_excluded"⟩
    else .kept quarantined

/-- One turn of the noise gate. -/
def screen (files : NoteFiles) (plan : RetrievalPlan) (accessPolicy : AccessPolicy)
    (item : ContextItem) : Except Exn Screened := do
  let scan ← scanText files item
  if injected scan then screenInjected accessPolicy item
  else screenClean plan accessPolicy item

/-- The notes of the noise gate on an item. -/
def screeningDecisions (files : NoteFiles) (item : ContextItem) : List String :=
  match scanText files item with
  | .error _ => []
  | .ok scan =>
      if injected scan then
        ["Prompt injection pattern detected in " ++ item.sourceId ++ "; quarantined."]
      else
        (if hasSecret item.excerpt then
          ["Secret leakage detected and redacted in " ++ item.sourceId ++ "."] else []) ++
        (if claimsAuthority item then
          ["Unbacked authority claim detected in " ++ item.sourceId ++ "; forced to RAW."] else [])

def Screened.candidate : Screened → Option ContextItem
  | .kept item => some item
  | .excluded _ => none

def Screened.exclusion : Screened → Option ExcludedItem
  | .kept _ => none
  | .excluded item => some item

/-! ## Order -/

/-- `auth_idx`, `fresh_idx`, `super_idx`, `contra_idx` -/
def evidenceKey (item : ContextItem) : List Nat :=
  [item.authority.rank, if item.freshness = .current then 0 else 1,
    if item.contradictionState = .superseded then 1 else 0,
    if item.contradictionState = .none then 0 else 1]

/-- `_authority_first_key` -/
def authorityFirst (a b : ContextItem) : Bool :=
  decide (evidenceKey a < evidenceKey b) || evidenceKey a = evidenceKey b &&
    (b.score < a.score || a.score = b.score && decide (a.sourceId ≤ b.sourceId))

/-- `_relevance_first_key` -/
def relevanceFirst (a b : ContextItem) : Bool :=
  b.score < a.score || a.score = b.score &&
    (decide (evidenceKey a < evidenceKey b) || evidenceKey a = evidenceKey b &&
      decide (a.sourceId ≤ b.sourceId))

/-- Raw evidence stands before canonical evidence. -/
def violatesAuthorityOrder : List ContextItem → Bool
  | [] => false
  | item :: items =>
      (decide (item.authority ∈ [Authority.unverified, .unknown]) &&
        items.any fun later => decide (later.authority ∈ [Authority.canonical, .verified])) ||
      violatesAuthorityOrder items

/-- `ordered_candidates` -/
def orderedCandidates (intent : QueryIntent) (screened : List ContextItem) :
    Except Exn (List ContextItem) :=
  if authoritySensitive intent.intent then
    let ordered := screened.mergeSort authorityFirst
    if violatesAuthorityOrder ordered then
      .error (runtimeError
        "AUTHORITY_ORDER_VIOLATION: raw evidence outranked canonical evidence")
    else .ok ordered
  else .ok (screened.mergeSort relevanceFirst)

/-! ## `retrieve` -/

/-- `PlannerResult` -/
structure PlannerResult where
  plan : RetrievalPlan
  candidates : List ContextItem
  excluded : List ExcludedItem
  retrievalStatus : RetrievalStatus
  fallbackReason : String
  denseUsed : Bool
  sourceRevisions : List String
  explainabilityDecisions : List String

/-- What the stages of a plan came to. -/
structure Collection where
  items : List (ContextItem × String)
  decisions : List String
  status : RetrievalStatus
  fallbackReason : String
  denseAttempted : Bool
  denseUsed : Bool

/-- The stages that only leave a note, with their notes. -/
def idleStages : List (RetrievalStage × String) := [
  (.graphAssisted,
    "Graph-assisted stage skipped: bounded graph expansion unavailable in Phase 5D."),
  (.rerank, "Rerank stage skipped: local reranker unavailable offline."),
  (.rawFallback, "Raw fallback stage skipped: raw source fallback not invoked.")]

variable [PythonMath]

/-- The stages of a plan, one behind the other. -/
def collect (planner : Planner) (plan : RetrievalPlan) (intent : QueryIntent)
    (accessPolicy : AccessPolicy) : Except Exn Collection := do
  let canonical ← if .projectState ∈ plan.stages then canonicalStage planner.stores plan intent
    else .ok Harvest.nothing
  let lexical := if .fts ∈ plan.stages then ftsStage planner plan intent accessPolicy
    else Harvest.nothing
  let dense ← if .semantic ∈ plan.stages then semanticStage planner plan intent accessPolicy
    else .ok { Harvest.nothing with attempted := false, used := false }
  return { items := canonical.items ++ lexical.items ++ dense.items
           decisions := canonical.decisions ++ lexical.decisions ++ dense.decisions ++
             (idleStages.filter fun entry => decide (entry.1 ∈ plan.stages)).map Prod.snd
           status := if dense.status = .degraded then .degraded else canonical.status
           fallbackReason :=
             if dense.status = .degraded then dense.fallbackReason else canonical.fallbackReason
           denseAttempted := dense.attempted
           denseUsed := dense.used }

/-- `attempted_stages` -/
def attemptedStages (plan : RetrievalPlan) (collection : Collection) : List RetrievalStage :=
  ([.projectState, .fts].filter fun stage => decide (stage ∈ plan.stages)) ++
    if collection.denseAttempted then [.semantic] else []

/-- `skipped_stages`; the stages the planner knows come first. -/
def skippedStages (plan : RetrievalPlan) (attempted : List RetrievalStage) : List RetrievalStage :=
  let known := ([.semantic, .graphAssisted, .rerank, .rawFallback] : List RetrievalStage).filter
    fun stage => decide (stage ∈ plan.stages) && decide (stage ∉ attempted)
  known ++ plan.stages.filter fun stage => decide (stage ∉ attempted) && decide (stage ∉ known)

/-- `Deduplicated … duplicate source reference(s).` -/
def dedupDecisions (collected deduped : Nat) : List String :=
  if deduped < collected then
    ["Deduplicated " ++ toString (collected - deduped) ++ " duplicate source reference(s)."]
  else []

/-- `RetrievalPlanner.retrieve` -/
def retrieve (planner : Planner) (plan : RetrievalPlan) (intent : QueryIntent)
    (accessPolicy : AccessPolicy) : Except Exn PlannerResult := do
  let _ ← compileSearchScope planner.vault (some plan.scope) none .current none (some accessPolicy)
  let collection ← collect planner plan intent accessPolicy
  let deduped ← dedupedItems (collection.items.map Prod.fst)
  let screened ← deduped.mapM (screen planner.files plan accessPolicy)
  let candidates ← orderedCandidates intent (screened.filterMap Screened.candidate)
  let attempted := attemptedStages plan collection
  let executed ← retrievalPlan { plan.toPlanArguments with
    attemptedStages := attempted
    skippedStages := skippedStages plan attempted }
  return { plan := executed
           candidates := candidates
           excluded := screened.filterMap Screened.exclusion
           retrievalStatus := collection.status
           fallbackReason := collection.fallbackReason
           denseUsed := collection.denseUsed
           sourceRevisions := sortedSet (collection.items.map Prod.snd)
           explainabilityDecisions := plan.escalationReason :: collection.decisions ++
             dedupDecisions collection.items.length deduped.length ++
             deduped.flatMap (screeningDecisions planner.files) ++
             if authoritySensitive intent.intent then []
             else ["Non-authority intent: relevance-primary ordering applied; " ++
               "authority kept as tie-break only."] }

/-! ## Packing -/

/-- `MAX_CONTEXT_PACK_BYTES` -/
def maxContextPackBytes : Nat := 2000000

/-- `packed_items` of `ContextPackCompiler.compile`, with the tokens and bytes they use up. -/
def packItems (budget : RetrievalBudget) : List ContextItem → Nat → Nat → Nat → List ContextItem
  | [], _, _, _ => []
  | item :: items, count, tokens, bytes =>
      if budget.maxCandidates ≤ count ∨ budget.maxTokens < tokens + item.tokenCost ∨
          maxContextPackBytes < bytes + item.excerpt.utf8ByteSize then
        packItems budget items count tokens bytes
      else
        item :: packItems budget items (count + 1) (tokens + item.tokenCost)
          (bytes + item.excerpt.utf8ByteSize)

/-- The items of a compiled `ContextPack`. -/
def compilePack (result : PlannerResult) : List ContextItem :=
  packItems result.plan.budget result.candidates 0 0 0

theorem mem_packItems {budget : RetrievalBudget} {items : List ContextItem}
    {count tokens bytes : Nat} {item : ContextItem}
    (h : item ∈ packItems budget items count tokens bytes) : item ∈ items := by
  induction items generalizing count tokens bytes with
  | nil => exact h
  | cons first items ih =>
    rw [packItems] at h
    split at h
    · exact List.mem_cons_of_mem _ (ih h)
    · rcases List.mem_cons.mp h with rfl | h
      · exact List.mem_cons_self
      · exact List.mem_cons_of_mem _ (ih h)

end

/-! ## A retrieval taken apart -/

section
variable [PythonText] [PythonYaml] [PythonWord] [PythonMath] {planner : Planner}
  {plan : RetrievalPlan} {intent : QueryIntent} {accessPolicy : AccessPolicy}
  {result : PlannerResult}

/-- The items of the stages, one for each source. -/
def keptItems (planner : Planner) (plan : RetrievalPlan) (intent : QueryIntent)
    (accessPolicy : AccessPolicy) : Except Exn (List ContextItem) := do
  let collection ← collect planner plan intent accessPolicy
  dedupedItems (collection.items.map Prod.fst)

/-- The candidates and the exclusions are what screening makes of the kept items. -/
theorem retrieve_ok (h : retrieve planner plan intent accessPolicy = .ok result) :
    ∃ collection kept screened, collect planner plan intent accessPolicy = .ok collection ∧
      dedupedItems (collection.items.map Prod.fst) = .ok kept ∧
      kept.mapM (screen planner.files plan accessPolicy) = .ok screened ∧
      (∀ item, item ∈ result.candidates ↔ item ∈ screened.filterMap Screened.candidate) ∧
      result.excluded = screened.filterMap Screened.exclusion ∧
      result.retrievalStatus = collection.status := by
  obtain ⟨_, -, h⟩ := bind_eq_ok.mp h
  obtain ⟨collection, hcollect, h⟩ := bind_eq_ok.mp h
  obtain ⟨kept, hkept, h⟩ := bind_eq_ok.mp h
  obtain ⟨screened, hscreened, h⟩ := bind_eq_ok.mp h
  obtain ⟨candidates, hcandidates, h⟩ := bind_eq_ok.mp h
  obtain ⟨executed, -, h⟩ := bind_eq_ok.mp h
  cases h
  refine ⟨collection, kept, screened, hcollect, hkept, hscreened, fun item => ?_, rfl, rfl⟩
  unfold orderedCandidates at hcandidates
  split at hcandidates
  · simp only at hcandidates
    split at hcandidates
    · cases hcandidates
    · cases hcandidates
      exact List.mem_mergeSort
  · cases hcandidates
    exact List.mem_mergeSort

theorem keptItems_ok {kept : List ContextItem} :
    keptItems planner plan intent accessPolicy = .ok kept ↔
      ∃ collection, collect planner plan intent accessPolicy = .ok collection ∧
        dedupedItems (collection.items.map Prod.fst) = .ok kept := bind_eq_ok

/-! ## One item for each source -/

/-- The items say the same but for their domains. -/
structure SameEvidence (a b : ContextItem) : Prop where
  sourceId : a.sourceId = b.sourceId
  sourceType : a.sourceType = b.sourceType
  authority : a.authority = b.authority
  trustState : a.trustState = b.trustState
  excerpt : a.excerpt = b.excerpt
  redactionStatus : a.redactionStatus = b.redactionStatus

theorem SameEvidence.refl (item : ContextItem) : SameEvidence item item := ⟨rfl, rfl, rfl, rfl, rfl, rfl⟩

theorem SameEvidence.trans {a b c : ContextItem} (hab : SameEvidence a b) (hbc : SameEvidence b c) :
    SameEvidence a c :=
  ⟨hab.sourceId.trans hbc.sourceId, hab.sourceType.trans hbc.sourceType,
    hab.authority.trans hbc.authority, hab.trustState.trans hbc.trustState,
    hab.excerpt.trans hbc.excerpt, hab.redactionStatus.trans hbc.redactionStatus⟩

/-- Merging keeps the evidence of one of the two items. -/
theorem mergeItem_same {held : Option ContextItem} {item value : ContextItem}
    (h : mergeItem held item = .ok value) :
    SameEvidence value item ∨ ∃ existing, held = some existing ∧ SameEvidence value existing := by
  cases held with
  | none =>
    cases h
    exact .inl (SameEvidence.refl _)
  | some existing =>
    have hvalue := contextItem_eq_ok.mp h
    have hsame : SameEvidence value (winner existing item) :=
      ⟨(congrArg Evidence.sourceId hvalue).trans rfl, (congrArg Evidence.sourceType hvalue).trans rfl,
        (congrArg Evidence.authority hvalue).trans rfl, (congrArg Evidence.trustState hvalue).trans rfl,
        (congrArg Evidence.excerpt hvalue).trans rfl,
        (congrArg Evidence.redactionStatus hvalue).trans rfl⟩
    have hwinner : winner existing item = item ∨ winner existing item = existing := by
      unfold winner
      split_ifs
      · exact .inr rfl
      · exact .inl rfl
      · exact .inr rfl
      · exact .inl rfl
    rcases hwinner with hwinner | hwinner
    · exact .inl (hwinner ▸ hsame)
    · exact .inr ⟨existing, rfl, hwinner ▸ hsame⟩

variable {items kept : List ContextItem}

/-- What is kept for a source is the evidence of one of its items. -/
theorem same_of_kept (h : dedupedItems items = .ok kept) {item : ContextItem} (hitem : item ∈ kept) :
    ∃ source ∈ items, SameEvidence item source := by
  obtain ⟨d, hd, rfl⟩ := map_eq_ok.mp h
  obtain ⟨entry, hentry, rfl⟩ := List.mem_map.mp hitem
  refine forall_regrouped (P := fun item => ∃ source ∈ items, SameEvidence item source) ?_ ?_ hd
    entry hentry
  · intro held x value hx hheld hvalue
    rcases mergeItem_same hvalue with hsame | ⟨existing, hsome, hsame⟩
    · exact ⟨x, hx, hsame⟩
    · obtain ⟨source, hsource, hexisting⟩ := hheld existing hsome
      exact ⟨source, hsource, hsame.trans hexisting⟩
  · simp

/-- The entries of the dict of items stand under the ids of their sources. -/
theorem keyed_of_kept {d : List (String × ContextItem)}
    (h : items.foldlM (regroup mergeItem fun item => item.sourceId) [] = .ok d) :
    ∀ entry ∈ d, entry.2.sourceId = entry.1 := by
  refine Run.foldlM_invariant (P := fun d => ∀ entry ∈ d, entry.2.sourceId = entry.1) ?_ (by simp) h
  intro mid x next hmid hnext entry hentry
  obtain ⟨value, hvalue, rfl⟩ := map_eq_ok.mp hnext
  rcases mem_put hentry with rfl | hentry
  · rcases mergeItem_same hvalue with hsame | ⟨existing, hsome, hsame⟩
    · exact hsame.sourceId
    · exact hsame.sourceId.trans (hmid _ (mem_of_lookup hsome))
  · exact hmid entry hentry

/-- Every source has one kept item. -/
theorem kept_unique (h : dedupedItems items = .ok kept) {a b : ContextItem} (ha : a ∈ kept)
    (hb : b ∈ kept) (hid : a.sourceId = b.sourceId) : a = b := by
  obtain ⟨d, hd, rfl⟩ := map_eq_ok.mp h
  obtain ⟨⟨key, a⟩, hentry, rfl⟩ := List.mem_map.mp ha
  obtain ⟨⟨key', b⟩, hentry', rfl⟩ := List.mem_map.mp hb
  have hkeys : key = key' :=
    (keyed_of_kept hd _ hentry).symm.trans (hid.trans (keyed_of_kept hd _ hentry'))
  have hnodup := nodup_keys_regrouped (by simp) hd
  have hlookup := lookup_eq_some_of_mem hnodup hentry
  rw [hkeys, lookup_eq_some_of_mem hnodup hentry'] at hlookup
  exact (Option.some.inj hlookup).symm

/-- Nothing that was collected is without a kept item. -/
theorem kept_of_collected (h : dedupedItems items = .ok kept) {item : ContextItem}
    (hitem : item ∈ items) : ∃ other ∈ kept, other.sourceId = item.sourceId := by
  obtain ⟨d, hd, rfl⟩ := map_eq_ok.mp h
  have hkeys : ∀ xs : List ContextItem, ∀ d d' : List (String × ContextItem),
      xs.foldlM (regroup mergeItem fun item => item.sourceId) d = .ok d' →
      ∀ id, id ∈ d.map Prod.fst ∨ id ∈ xs.map (fun item => item.sourceId) → id ∈ d'.map Prod.fst := by
    intro xs
    induction xs with
    | nil =>
      intro d d' h id hid
      rw [Run.foldlM_nil_eq_ok] at h
      simpa [h] using hid
    | cons x xs ih =>
      intro d d' h id hid
      obtain ⟨mid, hx, h⟩ := Run.foldlM_cons_eq_ok.mp h
      obtain ⟨value, -, rfl⟩ := map_eq_ok.mp hx
      refine ih _ _ h id ?_
      rw [mem_keys_put]
      rw [List.map_cons, List.mem_cons] at hid
      rcases hid with hid | hid | hid
      · exact .inl (.inr hid)
      · exact .inl (.inl hid)
      · exact .inr hid
  have hkey := hkeys items [] d hd item.sourceId (.inr (List.mem_map_of_mem hitem))
  obtain ⟨entry, hentry, hid⟩ := List.mem_map.mp hkey
  exact ⟨entry.2, List.mem_map_of_mem hentry, (keyed_of_kept hd entry hentry).trans hid⟩

end

end PowerFramework.Retrieval
