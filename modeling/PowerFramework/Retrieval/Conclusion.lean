import Mathlib.Data.List.Lex
import Mathlib.Data.String.Basic
import PowerFramework.Retrieval.Screening
/-!
# From the collected items to the result

The part of `RetrievalPlanner.retrieve` behind the collection: which items are kept for the sources,
which of them can be rendered again, and when the whole part comes to its end.
-/

namespace PowerFramework.Retrieval

set_option linter.unusedSectionVars false

open Lib Lib.Failure Lib.Json Lib.Grouping Lib.Run State Search

section
variable [PythonText] [PythonYaml] [PythonWord]

/-- `retrieve`, from the deduplication of what was collected. -/
def conclude (files : NoteFiles) (plan : RetrievalPlan) (intent : QueryIntent)
    (accessPolicy : AccessPolicy) (collection : Collection) : Except Exn PlannerResult := do
  let deduped ← dedupedItems (collection.items.map Prod.fst)
  let screened ← deduped.mapM (screen files plan accessPolicy)
  let candidates ← orderedCandidates intent (screened.filterMap Screened.candidate)
  let attempted := attemptedStages plan collection
  let executed ← retrievalPlan { plan.toPlanArguments with
    attemptedStages := attempted
    skippedStages := skippedStages plan attempted }
  return { plan := executed
           candidates := candidates
           excluded := screened.filterMap Screened.exclusion
           retrievalStatus := collection.status
           fallbackReason := collection.fallbackReason
           denseUsed := collection.denseUsed
           sourceRevisions := sortedSet (collection.items.map Prod.snd)
           explainabilityDecisions := plan.escalationReason :: collection.decisions ++
             dedupDecisions collection.items.length deduped.length ++
             deduped.flatMap (screeningDecisions files) ++
             if authoritySensitive intent.intent then []
             else ["Non-authority intent: relevance-primary ordering applied; " ++
               "authority kept as tie-break only."] }

/-- A retrieval compiles its scope, collects and concludes. -/
theorem retrieve_eq_conclude [PythonMath] (planner : Planner) (plan : RetrievalPlan)
    (intent : QueryIntent) (accessPolicy : AccessPolicy) :
    retrieve planner plan intent accessPolicy =
      (compileSearchScope planner.vault (some plan.scope) none .current none
        (some accessPolicy)).bind fun _ =>
      (collect planner plan intent accessPolicy).bind
        (conclude planner.files plan intent accessPolicy) := rfl

end

/-! ## One item for each source -/

section
variable [PythonText]

/-- The domains of all items, each once. -/
def allDomains (items : List ContextItem) : List String :=
  sortedSet (items.flatMap fun item => item.domains)

/-- What the checks of a `ContextItem` say about its domains. -/
structure DomainsValid (domain : String) (domains : List String) : Prop where
  nonempty : 1 ≤ domains.length
  length_le : domains.length ≤ 64
  identifiers : domains.all isIdentifier = true
  nodup : domains.Nodup
  mem : domain ∈ domains

def Evidence.withDomains (self : Evidence) (domains : List String) : Evidence :=
  { self with domains := domains }

/-- Only the checks of the domains are new to an item with other domains. -/
theorem withDomains_valid_iff (item : ContextItem) (domains : List String) :
    (item.toEvidence.withDomains domains).valid = true ↔ DomainsValid item.domain domains := by
  have h := item.accepted
  unfold Evidence.withDomains
  simp only [Evidence.valid, Evidence.fieldsValid, Evidence.axesValid, Bool.and_eq_true,
    decide_eq_true_eq] at h ⊢
  obtain ⟨hfields, haxes⟩ := h
  simp only [hfields, haxes, true_and, and_true]
  constructor
  · rintro ⟨⟨⟨⟨hpos, hle⟩, hall⟩, hnodup⟩, hmem⟩
    exact ⟨hpos, hle, hall, hnodup, hmem⟩
  · intro hdomains
    exact ⟨⟨⟨⟨hdomains.nonempty, hdomains.length_le⟩, hdomains.identifiers⟩, hdomains.nodup⟩,
      hdomains.mem⟩

theorem ContextItem.domainsValid (item : ContextItem) : DomainsValid item.domain item.domains :=
  (withDomains_valid_iff item item.domains).mp item.accepted

/-- The item says what the other says, but for its domains. -/
def Stands (leader item : ContextItem) : Prop :=
  item.toEvidence = leader.toEvidence.withDomains item.domains

theorem winner_eq (existing item : ContextItem) :
    winner existing item = existing ∨ winner existing item = item := by
  unfold winner
  split_ifs
  · exact .inl rfl
  · exact .inr rfl
  · exact .inl rfl
  · exact .inr rfl

/-- The better of two items is found by what one that stands for the first says. -/
theorem winner_of_stands {leader existing : ContextItem} (h : Stands leader existing)
    (item : ContextItem) :
    winner leader item = leader ∧ winner existing item = existing ∨
      winner leader item = item ∧ winner existing item = item := by
  have hauthority : existing.authority = leader.authority :=
    (congrArg Evidence.authority h).trans rfl
  have hscore : existing.score = leader.score := (congrArg Evidence.score h).trans rfl
  unfold winner
  rw [hauthority, hscore]
  split_ifs
  · exact .inl ⟨rfl, rfl⟩
  · exact .inr ⟨rfl, rfl⟩
  · exact .inl ⟨rfl, rfl⟩
  · exact .inr ⟨rfl, rfl⟩

theorem stands_winner {leader existing item value : ContextItem} (h : Stands leader existing)
    (hvalue : mergeItem (some existing) item = .ok value) : Stands (winner leader item) value := by
  have hsame : value.toEvidence =
      (winner existing item).toEvidence.withDomains (mergedDomains existing item) :=
    contextItem_eq_ok.mp hvalue
  have hdomains : value.domains = mergedDomains existing item :=
    (congrArg Evidence.domains hsame).trans rfl
  rw [Stands, hdomains, hsame]
  rcases winner_of_stands h item with ⟨hleader, hexisting⟩ | ⟨hleader, hexisting⟩
  · rw [hleader, hexisting, h]
    rfl
  · rw [hleader, hexisting]

/-- Two items of one source merge when they have no more than 64 domains. -/
theorem exists_mergeItem_iff {existing item : ContextItem} :
    (∃ value, mergeItem (some existing) item = .ok value) ↔
      (mergedDomains existing item).length ≤ 64 := by
  have hvalid : ((winner existing item).toEvidence.withDomains
      (mergedDomains existing item)).valid = true ↔ (mergedDomains existing item).length ≤ 64 := by
    rw [withDomains_valid_iff]
    constructor
    · intro h
      exact h.length_le
    · intro hle
      have hmem : (winner existing item).domain ∈ mergedDomains existing item := by
        rw [mergedDomains, mem_sortedSet, List.mem_append]
        rcases winner_eq existing item with hwinner | hwinner
        · rw [hwinner]
          exact .inl existing.domainsValid.mem
        · rw [hwinner]
          exact .inr item.domainsValid.mem
      refine ⟨List.length_pos_of_mem hmem, hle, ?_, nodup_sortedSet _, hmem⟩
      rw [List.all_eq_true]
      intro name hname
      rw [mergedDomains, mem_sortedSet, List.mem_append] at hname
      rcases hname with hname | hname
      · exact List.all_eq_true.mp existing.domainsValid.identifiers name hname
      · exact List.all_eq_true.mp item.domainsValid.identifiers name hname
  rw [← hvalid]
  constructor
  · rintro ⟨value, hvalue⟩
    have hsame : value.toEvidence = (winner existing item).toEvidence.withDomains
        (mergedDomains existing item) := contextItem_eq_ok.mp hvalue
    rw [← hsame]
    exact value.accepted
  · intro h
    exact ⟨⟨_, h⟩, contextItem_eq_ok.mpr rfl⟩

omit [PythonText] in
theorem length_sortedSet_le {xs ys : List String} (h : ∀ x ∈ xs, x ∈ ys) :
    (sortedSet xs).length ≤ (sortedSet ys).length :=
  (List.subperm_of_subset (nodup_sortedSet xs) fun x hx =>
    mem_sortedSet.mpr (h x (mem_sortedSet.mp hx))).length_le

/-- The items of one source merge when they have no more than 64 domains together, by induction on
the items; the domains of fewer items are no more. -/
theorem exists_merged_iff {existing : ContextItem} {rest : List ContextItem} :
    (∃ held, rest.foldlM (combine mergeItem) (some existing) = .ok held) ↔
      (allDomains (existing :: rest)).length ≤ 64 := by
  induction rest generalizing existing with
  | nil =>
    have hle : (allDomains [existing]).length ≤ existing.domains.length :=
      (List.subperm_of_subset (nodup_sortedSet _) fun name hname => by
        simpa using mem_sortedSet.mp hname).length_le
    have := existing.domainsValid.length_le
    exact ⟨fun _ => by omega, fun _ => ⟨_, rfl⟩⟩
  | cons item rest ih =>
    have hdomains : ∀ value, mergeItem (some existing) item = .ok value →
        allDomains (value :: rest) = allDomains (existing :: item :: rest) := by
      intro value hvalue
      have hvalue : value.domains = mergedDomains existing item :=
        (congrArg Evidence.domains (contextItem_eq_ok.mp hvalue)).trans rfl
      apply sortedSet_congr
      intro name
      simp [hvalue, mergedDomains, or_assoc]
    constructor
    · rintro ⟨held, hheld⟩
      obtain ⟨mid, hmid, hrest⟩ := foldlM_cons_eq_ok.mp hheld
      obtain ⟨value, hvalue, rfl⟩ := map_eq_ok.mp hmid
      rw [← hdomains value hvalue]
      exact ih.mp ⟨held, hrest⟩
    · intro hle
      have hmerged : (mergedDomains existing item).length ≤
          (allDomains (existing :: item :: rest)).length := by
        apply length_sortedSet_le
        intro name hname
        rw [List.mem_append] at hname
        simp only [List.flatMap_cons, List.mem_append]
        rcases hname with hname | hname
        · exact .inl hname
        · exact .inr (.inl hname)
      obtain ⟨value, hvalue⟩ := exists_mergeItem_iff.mpr (hmerged.trans hle)
      rw [← hdomains value hvalue] at hle
      obtain ⟨held, hheld⟩ := ih.mpr hle
      exact ⟨held, foldlM_cons_eq_ok.mpr ⟨some value, map_eq_ok.mpr ⟨value, hvalue, rfl⟩, hheld⟩⟩

/-- What is left of the items of a source stands for the best of them. -/
theorem stands_merged {leader existing : ContextItem} {rest : List ContextItem}
    {held : Option ContextItem} (h : Stands leader existing)
    (hheld : rest.foldlM (combine mergeItem) (some existing) = .ok held) :
    ∃ value, held = some value ∧ Stands (rest.foldl winner leader) value := by
  induction rest generalizing leader existing with
  | nil =>
    cases hheld
    exact ⟨existing, rfl, h⟩
  | cons item rest ih =>
    obtain ⟨mid, hmid, hrest⟩ := foldlM_cons_eq_ok.mp hheld
    obtain ⟨value, hvalue, rfl⟩ := map_eq_ok.mp hmid
    exact ih (stands_winner h hvalue) hrest

/-- The items of a source. -/
def ofSource (items : List ContextItem) (sourceId : String) : List ContextItem :=
  items.filter fun item => item.sourceId = sourceId

/-- The best of the items of a source. -/
def leading (items : List ContextItem) (sourceId : String) : Option ContextItem :=
  match ofSource items sourceId with
  | [] => none
  | item :: rest => some (rest.foldl winner item)

variable {items kept : List ContextItem} {sourceId : String} {leader : ContextItem}

theorem foldl_winner_mem (item : ContextItem) (rest : List ContextItem) :
    rest.foldl winner item ∈ item :: rest := by
  induction rest generalizing item with
  | nil => exact List.mem_cons_self
  | cons next rest ih =>
    rw [List.foldl_cons]
    rcases winner_eq item next with hwinner | hwinner
    · rw [hwinner]
      rcases List.mem_cons.mp (ih item) with h | h
      · rw [h]
        exact List.mem_cons_self
      · exact List.mem_cons_of_mem _ (List.mem_cons_of_mem _ h)
    · rw [hwinner]
      exact List.mem_cons_of_mem _ (ih next)

/-- The best of the items of a source is one of them. -/
theorem leading_mem (h : leading items sourceId = some leader) :
    leader ∈ items ∧ leader.sourceId = sourceId := by
  unfold leading at h
  cases hsource : ofSource items sourceId with
  | nil => simp [hsource] at h
  | cons item rest =>
    simp only [hsource, Option.some.injEq] at h
    have hmem : leader ∈ ofSource items sourceId := by
      rw [hsource, ← h]
      exact foldl_winner_mem item rest
    unfold ofSource at hmem
    simpa using hmem

/-- A source that has an item has a best one. -/
theorem exists_leading {item : ContextItem} (h : item ∈ items) :
    ∃ leader, leading items item.sourceId = some leader := by
  have hmem : item ∈ ofSource items item.sourceId := by
    unfold ofSource
    simpa using h
  unfold leading
  cases hsource : ofSource items item.sourceId with
  | nil =>
    rw [hsource] at hmem
    cases hmem
  | cons first rest => exact ⟨_, rfl⟩

/-- The deduplication fails for the number of domains of a source alone. -/
theorem exists_deduped_iff : (∃ kept, dedupedItems items = .ok kept) ↔
    ∀ item ∈ items, (allDomains (ofSource items item.sourceId)).length ≤ 64 := by
  have hfold : (∃ kept, dedupedItems items = .ok kept) ↔
      ∃ d, items.foldlM (regroup mergeItem fun item => item.sourceId) [] = .ok d := by
    constructor
    · rintro ⟨kept, h⟩
      obtain ⟨d, hd, -⟩ := map_eq_ok.mp h
      exact ⟨d, hd⟩
    · rintro ⟨d, hd⟩
      exact ⟨_, map_eq_ok.mpr ⟨d, hd, rfl⟩⟩
  rw [hfold, exists_regrouped_iff]
  have hsource : ∀ sourceId, (∃ held, (ofSource items sourceId).foldlM (combine mergeItem) none =
      .ok held) ↔ (allDomains (ofSource items sourceId)).length ≤ 64 := by
    intro sourceId
    cases ofSource items sourceId with
    | nil => exact ⟨fun _ => by simp [allDomains, sortedSet_eq_nil.mpr], fun _ => ⟨none, rfl⟩⟩
    | cons item rest => exact exists_merged_iff
  constructor
  · intro h item hitem
    exact (hsource item.sourceId).mp (h item.sourceId)
  · intro h sourceId
    cases hitems : ofSource items sourceId with
    | nil =>
      unfold ofSource at hitems
      rw [hitems]
      exact ⟨none, rfl⟩
    | cons item rest =>
      have hmem : item ∈ ofSource items sourceId := by simp [hitems]
      unfold ofSource at hmem
      rw [List.mem_filter, decide_eq_true_eq] at hmem
      obtain ⟨hitem, rfl⟩ := hmem
      exact (hsource item.sourceId).mpr (h item hitem)

end

section
variable [PythonText] [PythonYaml] [PythonWord] [PythonMath] {items kept : List ContextItem}

/-- What is kept stands for the best items of the sources. -/
theorem stands_of_kept (h : dedupedItems items = .ok kept) :
    (∀ value ∈ kept, ∃ leader, leading items value.sourceId = some leader ∧ Stands leader value) ∧
      ∀ item ∈ items, ∃ leader, leading items item.sourceId = some leader ∧
        ∃ value ∈ kept, Stands leader value := by
  obtain ⟨d, hd, rfl⟩ := map_eq_ok.mp h
  have hentry : ∀ key value, d.lookup key = some value →
      ∃ leader, leading items key = some leader ∧ Stands leader value := by
    intro key value hvalue
    have hmerged := lookup_regrouped hd key
    rw [hvalue] at hmerged
    unfold leading ofSource
    cases hitems : items.filter fun item => item.sourceId = key with
    | nil =>
      rw [hitems] at hmerged
      cases hmerged
    | cons item rest =>
      rw [hitems] at hmerged
      obtain ⟨mid, hmid, hrest⟩ := foldlM_cons_eq_ok.mp hmerged
      cases hmid
      obtain ⟨value', hvalue', hstands⟩ := @stands_merged _ item _ _ _ rfl hrest
      cases hvalue'
      exact ⟨_, rfl, hstands⟩
  constructor
  · intro value hvalue
    obtain ⟨⟨key, value⟩, hmem, rfl⟩ := List.mem_map.mp hvalue
    have hkey := keyed_of_kept hd _ hmem
    obtain ⟨leader, hleader, hstands⟩ :=
      hentry key value (lookup_eq_some_of_mem (nodup_keys_regrouped (by simp) hd) hmem)
    exact ⟨leader, by rw [hkey]; exact hleader, hstands⟩
  · intro item hitem
    obtain ⟨value, hvalue, hid⟩ := kept_of_collected h hitem
    obtain ⟨⟨key, value⟩, hmem, rfl⟩ := List.mem_map.mp hvalue
    have hkey := keyed_of_kept hd _ hmem
    obtain ⟨leader, hleader, hstands⟩ :=
      hentry key value (lookup_eq_some_of_mem (nodup_keys_regrouped (by simp) hd) hmem)
    refine ⟨leader, ?_, value, hvalue, hstands⟩
    rw [← hid, hkey]
    exact hleader

end

/-! ## Building an item again -/

section
variable [PythonText] [PythonWord]

/-- An item can be built again behind the redaction, the spoof and the noise inspection. -/
structure Renewable (item : ContextItem) : Prop where
  short : (cleanedText item).length ≤ 12000
  quarantined : item.trustState = .quarantined → claimsAuthority item = false →
    5 ≤ (stripText (cleanedText item)).length
  claimed : claimsAuthority item = true → hasSecret item.excerpt = false →
    item.redactionStatus ≠ .notApplicable

omit [PythonText] [PythonWord] in
theorem tokenCost_le {text : String} (h : text.length ≤ 12000) :
    deterministicTokenCost text ≤ 100000 := by
  have hbytes := Utf8.utf8ByteSize_le text
  unfold deterministicTokenCost
  split_ifs
  · omega
  · omega

omit [PythonText] [PythonWord] in
theorem tokenCost_pos {text : String} (h : text ≠ "") : deterministicTokenCost text ≠ 0 := by
  unfold deterministicTokenCost
  rw [if_neg h]
  omega

omit [PythonWord] in
/-- An item in quarantine needs the token cost of an excerpt. -/
theorem quarantinedEvidence_valid_iff (item : ContextItem) :
    (quarantinedEvidence item).valid = true ↔ (item.excerpt ≠ "" → item.tokenCost ≠ 0) := by
  have h := item.accepted
  unfold quarantinedEvidence
  simp only [Evidence.valid, Evidence.fieldsValid, Evidence.axesValid, Provenance.valid,
    Bool.and_eq_true, decide_eq_true_eq] at h ⊢
  obtain ⟨hfields, haxes⟩ := h
  simp only [hfields, haxes, true_and]
  simp [trustAuthority, authorityBasis, or_iff_not_imp_left]

theorem assignedNoise_eq_quarantined {item : ContextItem} (h : item.noiseState = .quarantined) :
    assignedNoise item = .quarantined ↔ 5 ≤ (stripText (cleanedText item)).length := by
  unfold assignedNoise
  simp only [h]
  split_ifs with hnear
  · simp only [false_iff]
    rcases hnear with hempty | hshort
    · rw [hempty]
      decide
    · omega
  · rw [not_or] at hnear
    simp only [true_iff]
    omega

/-- `validate_evidence_axes`, check by check. -/
structure AxesValid (evidence : Evidence) : Prop where
  domain : evidence.domain ∈ evidence.domains
  authority : evidence.authority ∈ trustAuthority evidence.trustState
  basis : evidence.provenance.authorityBasis ∈ authorityBasis evidence.authority
  quarantined : evidence.trustState = .quarantined →
    evidence.noiseState = .quarantined ∧ evidence.redactionStatus ≠ .notApplicable
  noise : evidence.trustState = .noise →
    evidence.noiseState = .excluded ∨ evidence.noiseState = .downranked
  raw : evidence.trustState = .raw → evidence.redactionStatus ≠ .notApplicable
  priced : evidence.contentKind = .excerpt → evidence.excerpt ≠ "" → evidence.tokenCost ≠ 0

omit [PythonText] [PythonWord] in
theorem axesValid_iff (evidence : Evidence) : evidence.axesValid = true ↔ AxesValid evidence := by
  simp only [Evidence.axesValid, Bool.and_eq_true, Bool.not_eq_true', Bool.and_eq_false_iff,
    Bool.or_eq_false_iff, decide_eq_true_eq, decide_eq_false_iff_not, ne_eq, not_not]
  constructor
  · rintro ⟨⟨⟨⟨⟨⟨hdomain, hauthority⟩, hbasis⟩, hquarantined⟩, hnoise⟩, hraw⟩, hpriced⟩
    refine ⟨hdomain, hauthority, hbasis, fun htrust => ?_, fun htrust => ?_, fun htrust => ?_,
      fun hkind hexcerpt hcost => ?_⟩
    · exact hquarantined.resolve_left fun hne => hne htrust
    · rcases hnoise with (hne | hexcluded) | hdownranked
      · exact absurd htrust hne
      · exact .inl hexcluded
      · exact .inr hdownranked
    · exact hraw.resolve_left fun hne => hne.1 htrust
    · rcases hpriced with (hne | hempty) | hne
      · exact hne hkind
      · exact hexcerpt hempty
      · exact hne hcost
  · intro h
    refine ⟨⟨⟨⟨⟨⟨h.domain, h.authority⟩, h.basis⟩, ?_⟩, ?_⟩, ?_⟩, ?_⟩
    · exact or_iff_not_imp_left.mpr fun htrust => h.quarantined (not_not.mp htrust)
    · by_cases htrust : evidence.trustState = .noise
      · rcases h.noise htrust with hexcluded | hdownranked
        · exact .inl (.inr hexcluded)
        · exact .inr hdownranked
      · exact .inl (.inl htrust)
    · by_cases hraw : evidence.trustState = .raw
      · exact .inr (h.raw hraw)
      · by_cases hquarantined : evidence.trustState = .quarantined
        · exact .inr (h.quarantined hquarantined).2
        · exact .inl ⟨hraw, hquarantined⟩
    · by_cases hkind : evidence.contentKind = .excerpt
      · by_cases hexcerpt : evidence.excerpt = ""
        · exact .inl (.inr hexcerpt)
        · exact .inr (h.priced hkind hexcerpt)
      · exact .inl (.inl hkind)

omit [PythonWord] in
theorem ContextItem.axesValid (item : ContextItem) : AxesValid item.toEvidence :=
  (axesValid_iff _).mp (Bool.and_eq_true_iff.mp item.accepted).2

/-- What is left to check of a screened item that was accepted before. -/
theorem screenedEvidence_valid_iff_checks (item : ContextItem) :
    (screenedEvidence item).valid = true ↔
      deterministicTokenCost (cleanedText item) ≤ 100000 ∧ (cleanedText item).length ≤ 12000 ∧
        (screenedEvidence item).axesValid = true := by
  have h := item.accepted
  unfold Evidence.valid at h ⊢
  rw [Bool.and_eq_true] at h ⊢
  have hfields : (screenedEvidence item).fieldsValid = true ↔
      deterministicTokenCost (cleanedText item) ≤ 100000 ∧ (cleanedText item).length ≤ 12000 := by
    have hprovenance : (screenedEvidence item).provenance.valid = item.provenance.valid := by
      unfold screenedEvidence
      cases claimsAuthority item <;> rfl
    have hitem := h.1
    unfold Evidence.fieldsValid at hitem ⊢
    rw [hprovenance]
    simp only [screenedEvidence, Bool.and_eq_true, decide_eq_true_eq] at hitem ⊢
    simp only [hitem, true_and]
  rw [hfields, and_assoc]

theorem screenedEvidence_noiseState (item : ContextItem) :
    (screenedEvidence item).noiseState = assignedNoise item := by
  simp only [screenedEvidence]

theorem assignedNoise_of_noise {item : ContextItem}
    (h : item.noiseState = .excluded ∨ item.noiseState = .downranked) :
    assignedNoise item = .excluded ∨ assignedNoise item = .downranked := by
  unfold assignedNoise
  simp only
  split_ifs
  · exact .inr rfl
  · exact h

/-- An item can be built again when its text is short enough, when a quarantined one has some text
left, and when one that is forced to be raw is marked as safe. -/
theorem screenedEvidence_valid_iff (item : ContextItem) :
    (screenedEvidence item).valid = true ↔ Renewable item := by
  have haxes := item.axesValid
  rw [screenedEvidence_valid_iff_checks, axesValid_iff]
  constructor
  · rintro ⟨-, hshort, hscreened⟩
    refine ⟨hshort, fun htrust hclaims => ?_, fun hclaims hsecret => ?_⟩
    · have hnoise := (hscreened.quarantined (by simp [screenedEvidence, hclaims, htrust])).1
      rw [screenedEvidence_noiseState] at hnoise
      exact (assignedNoise_eq_quarantined (haxes.quarantined htrust).1).mp hnoise
    · simpa [screenedEvidence, hsecret] using
        hscreened.raw (by simp [screenedEvidence, hclaims])
  · intro h
    refine ⟨tokenCost_le h.short, h.short, ?_⟩
    have hmark : (item.redactionStatus ≠ .notApplicable ∨ hasSecret item.excerpt = true) →
        (screenedEvidence item).redactionStatus ≠ .notApplicable := by
      rintro (hne | hsecret)
      · unfold screenedEvidence
        simp only
        split_ifs
        · decide
        · exact hne
      · simp [screenedEvidence, hsecret]
    have hpriced : cleanedText item ≠ "" → deterministicTokenCost (cleanedText item) ≠ 0 :=
      tokenCost_pos
    cases hclaims : claimsAuthority item with
    | true =>
      have hraw : (screenedEvidence item).redactionStatus ≠ .notApplicable := by
        apply hmark
        cases hsecret : hasSecret item.excerpt with
        | true => exact .inr rfl
        | false => exact .inl (h.claimed hclaims hsecret)
      refine ⟨haxes.domain, ?_, ?_, ?_, ?_, fun _ => hraw, fun _ => hpriced⟩
      all_goals simp [screenedEvidence, hclaims, trustAuthority, authorityBasis]
    | false =>
      have hsame : (screenedEvidence item).trustState = item.trustState := by
        simp [screenedEvidence, hclaims]
      refine ⟨haxes.domain, ?_, ?_, fun htrust => ?_, fun htrust => ?_, fun htrust => ?_,
        fun _ => hpriced⟩
      · simpa [screenedEvidence, hclaims] using haxes.authority
      · simpa [screenedEvidence, hclaims] using haxes.basis
      · rw [hsame] at htrust
        obtain ⟨hnoise, hstatus⟩ := haxes.quarantined htrust
        rw [screenedEvidence_noiseState]
        exact ⟨(assignedNoise_eq_quarantined hnoise).mpr (h.quarantined htrust hclaims),
          hmark (.inl hstatus)⟩
      · rw [hsame] at htrust
        rw [screenedEvidence_noiseState]
        exact assignedNoise_of_noise (haxes.noise htrust)
      · rw [hsame] at htrust
        exact hmark (.inl (haxes.raw htrust))

end

/-! ## Order -/

section
variable [PythonText]

theorem authorityFirst_iff (a b : ContextItem) : authorityFirst a b = true ↔
    evidenceKey a < evidenceKey b ∨ evidenceKey a = evidenceKey b ∧
      (b.score < a.score ∨ a.score = b.score ∧ a.sourceId ≤ b.sourceId) := by
  simp only [authorityFirst, Bool.or_eq_true, Bool.and_eq_true, decide_eq_true_eq]

theorem authorityFirst_total (a b : ContextItem) :
    (authorityFirst a b || authorityFirst b a) = true := by
  rw [Bool.or_eq_true, authorityFirst_iff, authorityFirst_iff]
  rcases lt_trichotomy (evidenceKey a) (evidenceKey b) with hlt | heq | hlt
  · exact .inl (.inl hlt)
  · rcases lt_trichotomy a.score b.score with hscore | hscore | hscore
    · exact .inr (.inr ⟨heq.symm, .inl hscore⟩)
    · rcases le_total a.sourceId b.sourceId with hid | hid
      · exact .inl (.inr ⟨heq, .inr ⟨hscore, hid⟩⟩)
      · exact .inr (.inr ⟨heq.symm, .inr ⟨hscore.symm, hid⟩⟩)
    · exact .inl (.inr ⟨heq, .inl hscore⟩)
  · exact .inr (.inl hlt)

theorem authorityFirst_trans (a b c : ContextItem) (hab : authorityFirst a b = true)
    (hbc : authorityFirst b c = true) : authorityFirst a c = true := by
  rw [authorityFirst_iff] at hab hbc ⊢
  rcases hab with hlt | ⟨heq, hab⟩
  · rcases hbc with hlt' | ⟨heq', -⟩
    · exact .inl (hlt.trans hlt')
    · exact .inl (heq' ▸ hlt)
  · rcases hbc with hlt' | ⟨heq', hbc⟩
    · exact .inl (heq ▸ hlt')
    · refine .inr ⟨heq.trans heq', ?_⟩
      rcases hab with hscore | ⟨hscore, hid⟩
      · rcases hbc with hscore' | ⟨hscore', -⟩
        · exact .inl (hscore'.trans hscore)
        · exact .inl (hscore' ▸ hscore)
      · rcases hbc with hscore' | ⟨hscore', hid'⟩
        · exact .inl (hscore ▸ hscore')
        · exact .inr ⟨hscore.trans hscore', hid.trans hid'⟩

theorem rank_le_of_authorityFirst {a b : ContextItem} (h : authorityFirst a b = true) :
    a.authority.rank ≤ b.authority.rank := by
  rw [authorityFirst_iff] at h
  unfold evidenceKey at h
  rcases h with hlt | ⟨heq, -⟩
  · rw [List.cons_lt_cons_iff] at hlt
    rcases hlt with hlt | ⟨heq, -⟩
    · exact hlt.le
    · exact heq.le
  · exact (List.cons.inj heq).1.le

/-- Where no authority stands in front of a better one, raw evidence does not. -/
theorem violates_of_sorted {items : List ContextItem}
    (h : items.Pairwise fun a b => a.authority.rank ≤ b.authority.rank) :
    violatesAuthorityOrder items = false := by
  induction items with
  | nil => rfl
  | cons item items ih =>
    obtain ⟨hitem, hrest⟩ := List.pairwise_cons.mp h
    rw [violatesAuthorityOrder, ih hrest, Bool.or_false, Bool.and_eq_false_iff,
      decide_eq_false_iff_not, List.any_eq_false]
    by_cases hraw : item.authority ∈ [Authority.unverified, .unknown]
    · refine .inr fun later hlater => ?_
      have hle := hitem later hlater
      have hfour : 4 ≤ item.authority.rank := by
        rcases List.mem_pair.mp hraw with h | h <;> rw [h] <;> decide
      rw [decide_eq_true_eq]
      intro hbacked
      have hone : later.authority.rank ≤ 1 := by
        rcases List.mem_pair.mp hbacked with h | h <;> rw [h] <;> decide
      omega
    · exact .inl hraw

/-- The audit of the order never finds a violation. -/
theorem exists_orderedCandidates (intent : QueryIntent) (screened : List ContextItem) :
    ∃ candidates, orderedCandidates intent screened = .ok candidates := by
  unfold orderedCandidates
  split_ifs with hsensitive
  · have hsorted := List.pairwise_mergeSort authorityFirst_trans authorityFirst_total screened
    have hnone := violates_of_sorted (hsorted.imp fun h => rank_le_of_authorityFirst h)
    simp only [hnone, Bool.false_eq_true, if_false]
    exact ⟨_, rfl⟩
  · exact ⟨_, rfl⟩

end

/-! ## The executed plan -/

section
variable [PythonText] {plan : RetrievalPlan} {collection : Collection}

theorem attemptedStages_subset
    (hdense : collection.denseAttempted = true → RetrievalStage.semantic ∈ plan.stages) :
    ∀ stage ∈ attemptedStages plan collection, stage ∈ plan.stages := by
  intro stage hstage
  rw [attemptedStages, List.mem_append, List.mem_filter, decide_eq_true_eq] at hstage
  rcases hstage with hstage | hstage
  · exact hstage.2
  · split_ifs at hstage with hused
    · rw [List.mem_singleton.mp hstage]
      exact hdense hused
    · cases hstage

theorem nodup_attemptedStages (plan : RetrievalPlan) (collection : Collection) :
    (attemptedStages plan collection).Nodup := by
  rw [attemptedStages, List.nodup_append]
  refine ⟨List.Nodup.filter _ (by decide), ?_, ?_⟩
  · split_ifs
    · exact List.nodup_singleton _
    · exact List.nodup_nil
  · intro a ha b hb heq
    split_ifs at hb
    · rw [List.mem_singleton.mp hb] at heq
      rw [heq] at ha
      exact absurd (List.mem_of_mem_filter ha) (by decide)
    · cases hb

omit [PythonText] in
theorem mem_skippedStages {attempted : List RetrievalStage} {stage : RetrievalStage} :
    stage ∈ skippedStages plan attempted ↔ stage ∈ plan.stages ∧ stage ∉ attempted := by
  unfold skippedStages
  simp only [List.mem_append, List.mem_filter, Bool.and_eq_true, decide_eq_true_eq]
  constructor
  · rintro (⟨-, hplanned, hnot⟩ | ⟨hplanned, hnot, -⟩)
    · exact ⟨hplanned, hnot⟩
    · exact ⟨hplanned, hnot⟩
  · rintro ⟨hplanned, hnot⟩
    by_cases hknown : stage ∈ ([.semantic, .graphAssisted, .rerank, .rawFallback] :
        List RetrievalStage)
    · exact .inl ⟨hknown, hplanned, hnot⟩
    · exact .inr ⟨hplanned, hnot, fun h => hknown h.1⟩

omit [PythonText] in
theorem nodup_skippedStages (hplan : plan.stages.Nodup) (attempted : List RetrievalStage) :
    (skippedStages plan attempted).Nodup := by
  unfold skippedStages
  rw [List.nodup_append]
  refine ⟨List.Nodup.filter _ (by decide), hplan.filter _, ?_⟩
  rintro a ha b hb rfl
  rw [List.mem_filter, Bool.and_eq_true, decide_eq_true_eq, decide_eq_true_eq] at hb
  exact hb.2.2 ha

/-- What was attempted and what was skipped make up the stages of the plan. -/
theorem exists_executed
    (hdense : collection.denseAttempted = true → RetrievalStage.semantic ∈ plan.stages) :
    ∃ executed, retrievalPlan { plan.toPlanArguments with
      attemptedStages := attemptedStages plan collection
      skippedStages := skippedStages plan (attemptedStages plan collection) } = .ok executed := by
  have h := plan.accepted
  simp only [PlanArguments.valid, PlanArguments.partitions, Bool.and_eq_true, decide_eq_true_eq,
    List.all_eq_true] at h
  obtain ⟨⟨⟨⟨⟨⟨⟨hpos, hle⟩, hmatches⟩, hreason⟩, hnodup⟩, -⟩, -⟩,
    ⟨⟨⟨⟨-, hsemantic⟩, hrerank⟩, hgraph⟩, hraw⟩⟩ := h
  unfold retrievalPlan
  rw [dif_pos]
  · exact ⟨_, rfl⟩
  · simp only [PlanArguments.valid, PlanArguments.partitions, Bool.and_eq_true, decide_eq_true_eq,
      List.all_eq_true]
    refine ⟨⟨⟨⟨⟨⟨⟨hpos, hle⟩, hmatches⟩, hreason⟩, hnodup⟩, nodup_attemptedStages plan collection⟩,
      nodup_skippedStages hnodup _⟩,
      ⟨⟨⟨⟨⟨⟨⟨attemptedStages_subset hdense, ?_⟩, ?_⟩, ?_⟩, hsemantic⟩, hrerank⟩, hgraph⟩, hraw⟩⟩
    · intro stage hstage
      exact (mem_skippedStages.mp hstage).1
    · intro stage hstage hskipped
      exact (mem_skippedStages.mp hskipped).2 hstage
    · intro stage hstage
      rw [List.mem_append, mem_skippedStages]
      by_cases hattempted : stage ∈ attemptedStages plan collection
      · exact .inl hattempted
      · exact .inr ⟨hstage, hattempted⟩

end

/-! ## The whole part -/

section
variable [PythonText] [PythonYaml] [PythonWord] [PythonMath] {files : NoteFiles} {plan : RetrievalPlan}
  {intent : QueryIntent} {accessPolicy : AccessPolicy} {item leader : ContextItem}

/-- An item goes through the screening. -/
def Screenable (files : NoteFiles) (plan : RetrievalPlan) (accessPolicy : AccessPolicy)
    (item : ContextItem) : Prop :=
  ∃ scan, scanText files item = .ok scan ∧
    (injected scan = true → item.excerpt ≠ "" → item.tokenCost ≠ 0) ∧
    (injected scan = false → Grants plan accessPolicy (screenedTrust scan item) → Renewable item)

theorem exists_contextItem_iff {evidence : Evidence} :
    (∃ item, contextItem evidence = .ok item) ↔ evidence.valid = true := by
  constructor
  · rintro ⟨item, hitem⟩
    rw [← contextItem_eq_ok.mp hitem]
    exact item.accepted
  · intro h
    exact ⟨⟨evidence, h⟩, contextItem_eq_ok.mpr rfl⟩

theorem exists_screenClean_iff {scan : String} (h : injected scan = false) :
    (∃ screened, screenClean plan accessPolicy item = .ok screened) ↔
      (Grants plan accessPolicy (screenedTrust scan item) → Renewable item) := by
  have htrust : screenedTrust scan item = (screenedEvidence item).trustState := by
    simp [screenedTrust, h, screenedEvidence]
  rw [htrust, ← exclusionReason_eq_none, ← screenedEvidence_valid_iff, ← exists_contextItem_iff]
  unfold screenClean
  cases hreason : exclusionReason plan accessPolicy (screenedEvidence item).trustState with
  | some reason => simp [hreason]
  | none =>
    simp only [hreason, forall_true_left]
    constructor
    · rintro ⟨screened, hscreened⟩
      obtain ⟨candidate, hcandidate, -⟩ := map_eq_ok.mp hscreened
      exact ⟨candidate, hcandidate⟩
    · rintro ⟨candidate, hcandidate⟩
      exact ⟨_, map_eq_ok.mpr ⟨candidate, hcandidate, rfl⟩⟩

theorem exists_screenInjected_iff :
    (∃ screened, screenInjected accessPolicy item = .ok screened) ↔
      (item.excerpt ≠ "" → item.tokenCost ≠ 0) := by
  rw [← quarantinedEvidence_valid_iff, ← exists_contextItem_iff]
  constructor
  · rintro ⟨screened, h⟩
    obtain ⟨quarantined, hitem, -⟩ := map_eq_ok.mp h
    exact ⟨quarantined, hitem⟩
  · rintro ⟨quarantined, hitem⟩
    exact ⟨_, map_eq_ok.mpr ⟨quarantined, hitem, rfl⟩⟩

theorem exists_screen_iff :
    (∃ screened, screen files plan accessPolicy item = .ok screened) ↔
      Screenable files plan accessPolicy item := by
  constructor
  · rintro ⟨screened, h⟩
    obtain ⟨scan, hscan, h⟩ := bind_eq_ok.mp h
    refine ⟨scan, hscan, fun hinjected => ?_, fun hclean => ?_⟩
    · rw [if_pos hinjected] at h
      exact exists_screenInjected_iff.mp ⟨screened, h⟩
    · rw [if_neg (by simp [hclean])] at h
      exact (exists_screenClean_iff hclean).mp ⟨screened, h⟩
  · rintro ⟨scan, hscan, hquarantined, hclean⟩
    by_cases hinjected : injected scan = true
    · obtain ⟨screened, h⟩ :=
        (@exists_screenInjected_iff _ _ _ _ accessPolicy item).mpr (hquarantined hinjected)
      refine ⟨screened, bind_eq_ok.mpr ⟨scan, hscan, ?_⟩⟩
      rw [if_pos hinjected]
      exact h
    · have hfalse : injected scan = false := by simpa using hinjected
      obtain ⟨screened, h⟩ := (exists_screenClean_iff hfalse).mpr (hclean hfalse)
      refine ⟨screened, bind_eq_ok.mpr ⟨scan, hscan, ?_⟩⟩
      rw [if_neg hinjected]
      exact h

/-- The screening does not look at the domains. -/
theorem screenable_of_stands (h : Stands leader item) :
    Screenable files plan accessPolicy item ↔ Screenable files plan accessPolicy leader := by
  have hid : item.sourceId = leader.sourceId := (congrArg Evidence.sourceId h).trans rfl
  have htype : item.sourceType = leader.sourceType := (congrArg Evidence.sourceType h).trans rfl
  have hexcerpt : item.excerpt = leader.excerpt := (congrArg Evidence.excerpt h).trans rfl
  have hcost : item.tokenCost = leader.tokenCost := (congrArg Evidence.tokenCost h).trans rfl
  have htrust : item.trustState = leader.trustState := (congrArg Evidence.trustState h).trans rfl
  have hauthority : item.authority = leader.authority := (congrArg Evidence.authority h).trans rfl
  have hstatus : item.redactionStatus = leader.redactionStatus :=
    (congrArg Evidence.redactionStatus h).trans rfl
  have hscan : scanText files item = scanText files leader := by
    unfold scanText
    rw [hid, htype, hexcerpt]
  have hclaims : claimsAuthority item = claimsAuthority leader := by
    unfold claimsAuthority
    rw [hauthority, hexcerpt]
  have hcleaned : cleanedText item = cleanedText leader := by
    unfold cleanedText
    rw [hexcerpt]
  have hrenewable : Renewable item ↔ Renewable leader := by
    constructor
    · rintro ⟨hshort, hquarantined, hclaimed⟩
      rw [hcleaned] at hshort
      rw [hcleaned, htrust, hclaims] at hquarantined
      rw [hclaims, hexcerpt, hstatus] at hclaimed
      exact ⟨hshort, hquarantined, hclaimed⟩
    · rintro ⟨hshort, hquarantined, hclaimed⟩
      rw [← hcleaned] at hshort
      rw [← hcleaned, ← htrust, ← hclaims] at hquarantined
      rw [← hclaims, ← hexcerpt, ← hstatus] at hclaimed
      exact ⟨hshort, hquarantined, hclaimed⟩
  unfold Screenable screenedTrust
  rw [hscan, hexcerpt, hcost, hclaims, htrust, hrenewable]

/-- Every source has at most 64 domains, and its best item goes through the screening. -/
structure Concludable (files : NoteFiles) (plan : RetrievalPlan) (accessPolicy : AccessPolicy)
    (items : List ContextItem) : Prop where
  domains : ∀ item ∈ items, (allDomains (ofSource items item.sourceId)).length ≤ 64
  screenable : ∀ item ∈ items, leading items item.sourceId = some item →
    Screenable files plan accessPolicy item

/-- What a collection says about the dense stage is what the stage came to. -/
theorem collect_dense {planner : Planner} {collection : Collection}
    (h : collect planner plan intent accessPolicy = .ok collection) :
    ∃ dense, (if .semantic ∈ plan.stages then semanticStage planner plan intent accessPolicy
        else .ok { Harvest.nothing with attempted := false, used := false }) = .ok dense ∧
      collection.denseAttempted = dense.attempted ∧ collection.denseUsed = dense.used := by
  unfold collect at h
  by_cases hcanonical : RetrievalStage.projectState ∈ plan.stages <;>
    by_cases hsemantic : RetrievalStage.semantic ∈ plan.stages <;>
    simp only [hcanonical, hsemantic, if_true, if_false] at h ⊢
  all_goals
    obtain ⟨canonical, -, h⟩ := bind_eq_ok.mp h
    obtain ⟨dense, hdense, h⟩ := bind_eq_ok.mp h
    cases h
    exact ⟨dense, hdense, rfl, rfl⟩

/-- The stages attempt the dense stage only when it is planned. -/
theorem semantic_of_denseAttempted {planner : Planner} {collection : Collection}
    (h : collect planner plan intent accessPolicy = .ok collection)
    (hdense : collection.denseAttempted = true) : RetrievalStage.semantic ∈ plan.stages := by
  obtain ⟨dense, hstage, hattempted, -⟩ := collect_dense h
  by_contra hplanned
  rw [if_neg hplanned] at hstage
  cases hstage
  rw [hattempted] at hdense
  cases hdense

/-- What was collected is concluded without an exception exactly when every source has at most 64
domains and the best item of every source can be built again. -/
theorem conclude_ok_iff (files : NoteFiles) (plan : RetrievalPlan) (intent : QueryIntent)
    (accessPolicy : AccessPolicy) (collection : Collection)
    (hdense : collection.denseAttempted = true → RetrievalStage.semantic ∈ plan.stages) :
    (∃ result, conclude files plan intent accessPolicy collection = .ok result) ↔
      Concludable files plan accessPolicy (collection.items.map Prod.fst) := by
  constructor
  · rintro ⟨result, h⟩
    obtain ⟨kept, hkept, h⟩ := bind_eq_ok.mp h
    obtain ⟨screened, hscreened, -⟩ := bind_eq_ok.mp h
    refine ⟨exists_deduped_iff.mp ⟨kept, hkept⟩, fun item hitem hleading => ?_⟩
    obtain ⟨leader, hleader, value, hvalue, hstands⟩ := (stands_of_kept hkept).2 item hitem
    rw [hleading] at hleader
    cases hleader
    obtain ⟨outcome, -, hscreen⟩ := exists_of_mapM hscreened hvalue
    exact (screenable_of_stands hstands).mp (exists_screen_iff.mp ⟨outcome, hscreen⟩)
  · intro h
    obtain ⟨kept, hkept⟩ := exists_deduped_iff.mpr h.domains
    obtain ⟨screened, hscreened⟩ : ∃ screened,
        kept.mapM (screen files plan accessPolicy) = .ok screened := by
      apply exists_mapM
      intro value hvalue
      obtain ⟨leader, hleader, hstands⟩ := (stands_of_kept hkept).1 value hvalue
      obtain ⟨hmem, hid⟩ := leading_mem hleader
      rw [exists_screen_iff, screenable_of_stands hstands]
      exact h.screenable leader hmem (hid ▸ hleader)
    obtain ⟨candidates, hcandidates⟩ :=
      exists_orderedCandidates intent (screened.filterMap Screened.candidate)
    obtain ⟨executed, hexecuted⟩ := exists_executed hdense
    exact ⟨_, bind_eq_ok.mpr ⟨kept, hkept, bind_eq_ok.mpr ⟨screened, hscreened,
      bind_eq_ok.mpr ⟨candidates, hcandidates, bind_eq_ok.mpr ⟨executed, hexecuted, rfl⟩⟩⟩⟩⟩

end

/-! ## A quarantined note with hardly any text -/

section

attribute [local instance] PythonText.ascii PythonWord.asciiOnly PythonYaml.quarantineTag
  PythonMath.identity

/-- The item of a quarantined note with the text. -/
def quarantinedNote (text : String) : Evidence where
  sourceId := "notes/a.md"
  sourceType := "vault_note"
  authority := .unverified
  trustState := .quarantined
  domain := "general"
  domains := ["general"]
  score := 1
  retrievalStage := .fts
  provenance := ⟨["notes/a.md"], "unknown", .rawCapture⟩
  freshness := .current
  contradictionState := .none
  noiseState := .quarantined
  tokenCost := deterministicTokenCost text
  excerpt := text
  contentKind := .excerpt
  redactionStatus := .verifiedSafe

/-- What a lexical stage collected. -/
def collectedItem (item : ContextItem) : Collection :=
  ⟨[(item, "unknown")], [], .complete, "", false, false⟩

/-- With enough text left the note goes through the screening. -/
theorem concludable_plain : Concludable (oneNote "notes/a.md" plainNote) fastPlan quarantineCaller
    [⟨quarantinedNote plainNote, by decide +kernel⟩] :=
  (conclude_ok_iff (oneNote "notes/a.md" plainNote) fastPlan (lookupIntent "deploy")
    quarantineCaller (collectedItem ⟨quarantinedNote plainNote, by decide +kernel⟩)
    (fun h => nomatch h)).mp (exists_of_isOk (by decide +kernel))

/-- A caller with access to quarantined evidence gets an exception for a note of two letters. -/
theorem conclude_nearEmpty_error : ¬ ∃ result,
    conclude (oneNote "notes/a.md" "ok") fastPlan (lookupIntent "deploy") quarantineCaller
      (collectedItem ⟨quarantinedNote "ok", by decide +kernel⟩) = .ok result := by
  have h : (conclude (oneNote "notes/a.md" "ok") fastPlan (lookupIntent "deploy") quarantineCaller
      (collectedItem ⟨quarantinedNote "ok", by decide +kernel⟩)).isOk = false := by
    decide +kernel
  rintro ⟨result, hresult⟩
  rw [hresult] at h
  cases h

end

end PowerFramework.Retrieval
