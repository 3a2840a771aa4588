import PowerFramework.Domain.Adapter
import PowerFramework.Retrieval.Execution
/-!
# What the adapter serves

Not every policy that the adapter reads can route a query: a keyword may have nothing to look for,
and the name of a domain may be no identifier.  `loadDomainPolicy_serves` says exactly which
registries are served.
-/

namespace PowerFramework.Domain

open Lib Lib.Failure Lib.Json Lib.Text State Search Retrieval

/-! ## Lists -/

/-- What stands behind `n` others is not among the first `n`. -/
theorem not_mem_take_of_before {α : Type} {L es : List α} {c : α} {n : Nat} (hL : L.Nodup)
    (hes : es.Nodup) (hbefore : ∀ e ∈ es, [e, c].Sublist L) (hn : n ≤ es.length) : c ∉ L.take n := by
  intro hc
  obtain ⟨front, back, hsplit⟩ := List.append_of_mem hc
  have hwhole : L = front ++ c :: (back ++ L.drop n) := by
    rw [← List.cons_append, ← List.append_assoc, ← hsplit, List.take_append_drop]
  have hfront : es ⊆ front := by
    intro e he
    have hpair := hbefore e he
    rw [hwhole] at hL hpair
    obtain ⟨-, hlast, hdisjoint⟩ := List.nodup_append.mp hL
    obtain ⟨first, second, heq, hfirst, hsecond⟩ := List.sublist_append_iff.mp hpair
    cases first with
    | nil =>
      -- the second `c` would stand behind the first one
      rw [List.nil_append] at heq
      rw [← heq] at hsecond
      have hagain : c ∈ back ++ L.drop n := by
        cases hsecond with
        | cons _ hrest => exact hrest.subset (by simp)
        | cons_cons _ hrest => exact hrest.subset (by simp)
      exact absurd hagain (List.nodup_cons.mp hlast).1
    | cons x rest =>
      rw [List.cons_append, List.cons.injEq] at heq
      rw [heq.1]
      exact hfirst.subset List.mem_cons_self
  have hle := (hes.subperm hfront).length_le
  have hlength := congrArg List.length hsplit
  rw [List.length_append, List.length_cons, List.length_take] at hlength
  omega

theorem mem_take_append_cons {α : Type} {front back : List α} {c : α} {n : Nat}
    (h : front.length < n) : c ∈ (front ++ c :: back).take n := by
  obtain ⟨m, rfl⟩ : ∃ m, n = front.length + (m + 1) := ⟨n - front.length - 1, by omega⟩
  rw [List.take_length_add_append, List.take_succ_cons]
  simp

/-! ## Keywords -/

section
variable [PythonText] [PythonUnicode] [PythonWord]

/-- The keywords of the domain can be looked for in a query. -/
def Searchable (domain : RegisteredDomain) : Prop :=
  ∀ keyword ∈ valuesOf DomainRule.keywords domain, ∃ text, normalizeQueryText keyword = .ok text

/-- The tokens of a keyword. -/
def phraseOf (keyword : String) : List (List Char) := (queryTokens keyword).toOption.getD []

/-- The tokens of a query have those of a keyword among them, if it has any. -/
def hasPhrase (tokens : List (List Char)) (keyword : String) : Bool :=
  phraseOf keyword ≠ [] && decide (phraseOf keyword <:+: tokens)

theorem queryTokens_phraseOf {keyword text : String} (h : normalizeQueryText keyword = .ok text) :
    queryTokens keyword = .ok (phraseOf keyword) := by
  have htokens : queryTokens keyword = .ok (findTokens [] text.toList) :=
    map_eq_ok.mpr ⟨text, h, rfl⟩
  rw [phraseOf, htokens]
  rfl

theorem containsPhrase_eq {keyword text : String} (h : normalizeQueryText keyword = .ok text)
    (tokens : List (List Char)) :
    containsPhrase tokens keyword = .ok (hasPhrase tokens keyword) := by
  rw [containsPhrase, queryTokens_phraseOf h]
  rfl

theorem containsAny_eq {tokens : List (List Char)} {keywords : List String}
    (h : ∀ keyword ∈ keywords, ∃ text, normalizeQueryText keyword = .ok text) :
    containsAny tokens keywords = .ok (keywords.any (hasPhrase tokens)) := by
  induction keywords with
  | nil => rfl
  | cons keyword keywords ih =>
    rw [List.forall_mem_cons] at h
    obtain ⟨⟨text, htext⟩, hrest⟩ := h
    have hfirst := containsPhrase_eq htext tokens
    cases hfound : hasPhrase tokens keyword with
    | true =>
      rw [hfound] at hfirst
      rw [List.any_cons, hfound]
      exact bind_eq_ok.mpr ⟨true, hfirst, rfl⟩
    | false =>
      rw [hfound] at hfirst
      rw [List.any_cons, hfound]
      exact bind_eq_ok.mpr ⟨false, hfirst, ih hrest⟩

/-- A query without tokens is compared with every keyword. -/
theorem searchable_of_containsAny {keywords : List String} {found : Bool}
    (h : containsAny [] keywords = .ok found) :
    ∀ keyword ∈ keywords, ∃ text, normalizeQueryText keyword = .ok text := by
  induction keywords with
  | nil => simp
  | cons keyword keywords ih =>
    obtain ⟨there, hthere, h⟩ := bind_eq_ok.mp h
    obtain ⟨tokens, htokens, -⟩ := map_eq_ok.mp hthere
    obtain ⟨text, htext, -⟩ := map_eq_ok.mp htokens
    have hnot : there = false := by
      rw [containsPhrase_eq htext] at hthere
      rw [← Except.ok.inj hthere, hasPhrase]
      simp
    rw [hnot] at h
    rw [List.forall_mem_cons]
    exact ⟨⟨text, htext⟩, ih h⟩

/-- The query has a keyword of the domain. -/
def mentions (tokens : List (List Char)) (domain : RegisteredDomain) : Bool :=
  (valuesOf DomainRule.keywords domain).any (hasPhrase tokens)

theorem mentions_iff {tokens : List (List Char)} {domain : RegisteredDomain} :
    mentions tokens domain = true ↔ ∃ keyword ∈ valuesOf DomainRule.keywords domain,
      phraseOf keyword ≠ [] ∧ phraseOf keyword <:+: tokens := by
  simp [mentions, hasPhrase]

theorem mentions_of_infix {tokens phrase : List (List Char)} {domain : RegisteredDomain}
    (h : phrase <:+: tokens) (hmentions : mentions phrase domain = true) :
    mentions tokens domain = true := by
  obtain ⟨keyword, hkeyword, hne, hinfix⟩ := mentions_iff.mp hmentions
  exact mentions_iff.mpr ⟨keyword, hkeyword, hne, hinfix.trans h⟩

/-! ## Routing -/

omit [PythonText] [PythonUnicode] [PythonWord] in
/-- The policy of a vault without a configuration. -/
def emptyPolicy : DomainPolicyRegistry :=
  ⟨1, "v1-empty", "nfkc-casefold-tokens-v1", defaultV1Routing, []⟩

/-- A query that the router takes, with its tokens, its folded intent and its folded hints. -/
structure Routable (query intent : String) (hints : List String) (limit : Nat)
    (tokens : List (List Char)) (folded : String) (named : List String) : Prop where
  bounded : hints.length ≤ maxSelectorValues ∧ ∀ hint ∈ hints, stripText hint ≠ ""
  tokens : queryTokens query = .ok tokens
  intent : normalizedIntent intent = .ok folded
  hints : normalizedHints hints = .ok named
  limit : 1 ≤ limit

variable {policy : DomainPolicyRegistry} {query intent : String} {hints : List String} {limit : Nat}
  {tokens : List (List Char)} {folded : String} {named : List String}
  {registry : List RegisteredDomain}

theorem routable_of_route {found : List DomainMatch}
    (h : route policy query intent hints limit = .ok found) :
    ∃ tokens folded named, Routable query intent hints limit tokens folded named := by
  obtain ⟨⟨⟩, hbounded, h⟩ := bind_eq_ok.mp h
  obtain ⟨tokens, htokens, h⟩ := bind_eq_ok.mp h
  obtain ⟨folded, hfolded, h⟩ := bind_eq_ok.mp h
  obtain ⟨named, hnamed, h⟩ := bind_eq_ok.mp h
  obtain ⟨⟨⟩, hlimit, -⟩ := bind_eq_ok.mp h
  rw [demand_ok] at hbounded hlimit
  exact ⟨tokens, folded, named, by simpa using hbounded, htokens, hfolded, hnamed,
    of_decide_eq_true hlimit⟩

theorem route_eq (h : Routable query intent hints limit tokens folded named)
    (policy : DomainPolicyRegistry) : route policy query intent hints limit = (do
      let signals ← policy.domains.mapM (domainSignals tokens folded named)
      let found := candidates policy.routing signals
      (found.take (min (min maxRouterMatches policy.routing.maxMatches) limit)).mapM
        fun candidate =>
          candidate.result policy.routing ((found.head?.map Candidate.units).getD 0)) := by
  have hbounded : (decide (hints.length ≤ maxSelectorValues) &&
      hints.all fun hint => decide (stripText hint ≠ "")) = true := by simpa using h.bounded
  have hlimit : decide (1 ≤ limit) = true := decide_eq_true h.limit
  simp only [route, hbounded, h.tokens, h.intent, h.hints, hlimit, demand, raiseIf,
    Bool.true_eq_false, if_false, bind, Except.bind]

/-- The signals of a query for an adapted domain, which has no intents. -/
def signalOf (tokens : List (List Char)) (named : List String) (domain : RegisteredDomain) :
    DomainSignals :=
  ⟨adapted domain, mentions tokens domain, false, decide (domain.name ∈ named)⟩

theorem domainSignals_adapted {domain : RegisteredDomain} (h : Searchable domain) :
    domainSignals tokens folded named (adapted domain) = .ok (signalOf tokens named domain) := by
  have hkeywords : ∀ keyword ∈ (adapted domain).querySignals.keywords,
      ∃ text, normalizeQueryText keyword = .ok text :=
    fun keyword hkeyword => h keyword (List.mem_eraseDups.mp hkeyword)
  have hany : (adapted domain).querySignals.keywords.any (hasPhrase tokens) =
      mentions tokens domain := by
    rw [Bool.eq_iff_iff, List.any_eq_true, mentions, List.any_eq_true]
    simp only [adapted, List.mem_eraseDups]
  rw [domainSignals, containsAny_eq hkeywords, hany]
  rfl

theorem mapM_domainSignals (h : ∀ domain ∈ registry, Searchable domain) :
    (registry.map adapted).mapM (domainSignals tokens folded named) =
      .ok (registry.map (signalOf tokens named)) := by
  induction registry with
  | nil => rfl
  | cons domain registry ih =>
    rw [List.forall_mem_cons] at h
    rw [List.map_cons, List.mapM_cons, domainSignals_adapted h.1, ih h.2]
    rfl

/-- The candidate of a domain that the query mentions. -/
def candidateOf (tokens : List (List Char)) (named : List String)
    (registry : List RegisteredDomain) (domain : RegisteredDomain) : Candidate where
  units := (signalOf tokens named domain).units defaultV1Routing
  domain := adapted domain
  reasons := (signalOf tokens named domain).reasons defaultV1Routing ++
    if (signalOf tokens named domain).conflicts (registry.map (signalOf tokens named)) then
      ["caller_hint_conflict"] else []

/-- The candidates in policy order. -/
def mentioned (tokens : List (List Char)) (named : List String)
    (registry : List RegisteredDomain) : List Candidate :=
  (registry.filter (mentions tokens)).map (candidateOf tokens named registry)

omit [PythonText] [PythonUnicode] [PythonWord] in
/-- Only a keyword lifts an adapted domain over the minimum. -/
theorem minimum_le_unitScore : ∀ keyword hint : Bool, decide (defaultV1Routing.minimumScore ≤
    unitScore ((if keyword then 50 else 0) + 0 + if hint then 20 else 0)) = keyword := by
  decide +kernel

theorem candidate_admitted (domain : RegisteredDomain) :
    ((candidateOf tokens named registry domain).reasons ≠ [] &&
      decide (defaultV1Routing.minimumScore ≤
        unitScore (candidateOf tokens named registry domain).units)) = mentions tokens domain := by
  have hminimum := minimum_le_unitScore (mentions tokens domain) (decide (domain.name ∈ named))
  have hunits : decide (defaultV1Routing.minimumScore ≤
      unitScore (candidateOf tokens named registry domain).units) = mentions tokens domain :=
    hminimum
  rw [hunits]
  cases hmentions : mentions tokens domain with
  | false => rw [Bool.and_false]
  | true =>
    rw [Bool.and_true, decide_eq_true_eq]
    unfold candidateOf DomainSignals.reasons
    simp only [signalOf, hmentions]
    exact List.cons_ne_nil _ _

theorem candidates_eq : candidates defaultV1Routing (registry.map (signalOf tokens named)) =
    (mentioned tokens named registry).mergeSort fun a b => b.units ≤ a.units := by
  unfold candidates mentioned
  rw [List.map_map, List.filter_map]
  congr 2
  refine List.filter_congr fun domain _ => ?_
  exact candidate_admitted domain

/-! ## Ranking -/

/-- The candidates as the router ranks them. -/
def ranked (tokens : List (List Char)) (named : List String) (registry : List RegisteredDomain) :
    List Candidate :=
  (mentioned tokens named registry).mergeSort fun a b => b.units ≤ a.units

/-- What the candidate of a mentioned domain is. -/
theorem candidateOf_eq (named : List String) (registry : List RegisteredDomain)
    {domain : RegisteredDomain} (h : mentions tokens domain = true) :
    ∃ conflict : Bool, candidateOf tokens named registry domain = {
      units := 50 + if decide (domain.name ∈ named) then 20 else 0
      domain := adapted domain
      reasons := "keyword_signal" :: (if decide (domain.name ∈ named) then ["caller_hint_signal"]
        else []) ++ if conflict then ["caller_hint_conflict"] else [] } := by
  refine ⟨(signalOf tokens named domain).conflicts (registry.map (signalOf tokens named)), ?_⟩
  unfold candidateOf DomainSignals.units DomainSignals.reasons
  simp only [signalOf, h]
  cases decide (domain.name ∈ named) <;> rfl

theorem candidateOf_units {domain : RegisteredDomain} (h : mentions tokens domain = true) :
    (candidateOf tokens named registry domain).units =
      50 + if domain.name ∈ named then 20 else 0 := by
  obtain ⟨conflict, hcandidate⟩ := candidateOf_eq named registry h
  rw [hcandidate]
  simp

omit [PythonText] [PythonUnicode] [PythonWord] in
theorem domainMatch_ok {arguments : MatchArguments} :
    (∃ entry, domainMatch arguments = .ok entry) ↔ arguments.valid = true := by
  unfold domainMatch
  split_ifs with hvalid
  · simp [hvalid]
  · simp [hvalid]

/-- A match takes what the router says of a mentioned domain, its name aside. -/
theorem result_ok {domain : RegisteredDomain} (h : mentions tokens domain = true) (top : Nat) :
    (∃ entry, (candidateOf tokens named registry domain).result defaultV1Routing top = .ok entry) ↔
      isIdentifier domain.name = true := by
  obtain ⟨conflict, hcandidate⟩ := candidateOf_eq named registry h
  have hscore : ∀ hint : Bool, let score := unitScore (50 + if hint then 20 else 0)
      0 ≤ score ∧ score ≤ 1 ∧ ¬ score ≤ defaultV1Routing.lowConfidenceScore := by
    decide +kernel
  obtain ⟨hzero, hone, hlow⟩ := hscore (decide (domain.name ∈ named))
  rw [hcandidate, Candidate.result, domainMatch_ok, MatchArguments.valid]
  simp only [hzero, hone, hlow, if_false]
  cases decide (domain.name ∈ named) <;> cases conflict <;> simp [adapted]

theorem mem_mentioned {candidate : Candidate} : candidate ∈ mentioned tokens named registry ↔
    ∃ domain ∈ registry, mentions tokens domain = true ∧
      candidateOf tokens named registry domain = candidate := by
  simp [mentioned, and_assoc]

theorem mem_ranked {candidate : Candidate} : candidate ∈ ranked tokens named registry ↔
    candidate ∈ mentioned tokens named registry := List.mem_mergeSort

/-- The router takes the query exactly when those at the top of the ranking have identifiers for
names. -/
theorem route_ok_iff (hdomains : policy.domains = registry.map adapted)
    (hrouting : policy.routing = defaultV1Routing)
    (hsearch : ∀ domain ∈ registry, Searchable domain)
    (h : Routable query intent hints limit tokens folded named) :
    (∃ found, route policy query intent hints limit = .ok found) ↔
      ∀ candidate ∈ (ranked tokens named registry).take (min maxRouterMatches limit),
        isIdentifier candidate.domain.name = true := by
  have hmaximum : min (min maxRouterMatches defaultV1Routing.maxMatches) limit =
      min maxRouterMatches limit := congrArg (min · limit) (min_self maxRouterMatches)
  have hroute : route policy query intent hints limit =
      ((ranked tokens named registry).take (min maxRouterMatches limit)).mapM fun candidate =>
        candidate.result defaultV1Routing
          (((ranked tokens named registry).head?.map Candidate.units).getD 0) := by
    rw [route_eq h, hdomains, hrouting, mapM_domainSignals hsearch]
    simp only [bind, Except.bind, candidates_eq, hmaximum]
    rfl
  have hresult : ∀ candidate ∈ (ranked tokens named registry).take (min maxRouterMatches limit),
      ∀ top, (∃ entry, candidate.result defaultV1Routing top = .ok entry) ↔
        isIdentifier candidate.domain.name = true := by
    intro candidate hcandidate top
    obtain ⟨domain, -, hmentions, rfl⟩ := mem_mentioned.mp
      (mem_ranked.mp (List.mem_of_mem_take hcandidate))
    exact result_ok hmentions top
  rw [hroute]
  constructor
  · rintro ⟨found, hfound⟩ candidate hcandidate
    obtain ⟨entry, -, hentry⟩ := exists_of_mapM hfound hcandidate
    exact (hresult candidate hcandidate _).mp ⟨entry, hentry⟩
  · intro hall
    exact exists_mapM fun candidate hcandidate =>
      (hresult candidate hcandidate _).mpr (hall candidate hcandidate)

/-- A hint can name the domain. -/
def Hintable (name : String) : Prop :=
  ∃ hint, stripText hint ≠ "" ∧
    (normalizePolicyText hint maxPolicyText).map PythonText.casefold = .ok name

/-- A query can be routed to the domain: it has a keyword with tokens, and a hint can name it or
fewer than sixteen of the domains in front of it have a keyword among these tokens. -/
def Reachable (before : List RegisteredDomain) (domain : RegisteredDomain) : Prop :=
  ∃ keyword ∈ valuesOf DomainRule.keywords domain, phraseOf keyword ≠ [] ∧
    (Hintable domain.name ∨
      (before.filter (mentions (phraseOf keyword))).length < maxRouterMatches)

/-- No domain whose name is no identifier can be routed to. -/
def Presentable (registry : List RegisteredDomain) : Prop :=
  ∀ before domain after, registry = before ++ domain :: after →
    isIdentifier domain.name = false → ¬ Reachable before domain

theorem named_of_routable (h : Routable query intent hints limit tokens folded named)
    {name : String} (hname : name ∈ named) : Hintable name := by
  obtain ⟨normalized, hnormalized, hnamed⟩ := bind_eq_ok.mp h.hints
  obtain ⟨⟨⟩, -, hnamed⟩ := bind_eq_ok.mp hnamed
  cases hnamed
  obtain ⟨hint, hhint, hfolded⟩ := mem_of_mapM hnormalized hname
  exact ⟨hint, h.bounded.2 hint hhint, hfolded⟩

theorem nodup_names_mentioned (h : (registry.map fun domain => domain.name).Nodup) :
    ((mentioned tokens named registry).map fun candidate => candidate.domain.name).Nodup := by
  rw [mentioned, List.map_map]
  have hsub : ((registry.filter (mentions tokens)).map fun domain => domain.name).Sublist
      (registry.map fun domain => domain.name) := List.filter_sublist.map _
  exact h.sublist hsub

theorem nodup_names_ranked (tokens : List (List Char)) (named : List String)
    (h : (registry.map fun domain => domain.name).Nodup) :
    ((ranked tokens named registry).map fun candidate => candidate.domain.name).Nodup :=
  ((List.mergeSort_perm _ _).map _).nodup_iff.mpr (nodup_names_mentioned h)

omit [PythonText] [PythonUnicode] [PythonWord] in
theorem units_trans (a b c : Candidate) (hab : decide (b.units ≤ a.units) = true)
    (hbc : decide (c.units ≤ b.units) = true) : decide (c.units ≤ a.units) = true :=
  decide_eq_true ((of_decide_eq_true hbc).trans (of_decide_eq_true hab))

omit [PythonText] [PythonUnicode] [PythonWord] in
theorem units_total (a b : Candidate) :
    (decide (b.units ≤ a.units) || decide (a.units ≤ b.units)) = true := by
  rcases Nat.le_total b.units a.units with h | h
  · simp [h]
  · simp [h]

theorem pairwise_ranked (tokens : List (List Char)) (named : List String)
    (registry : List RegisteredDomain) :
    (ranked tokens named registry).Pairwise fun a b => b.units ≤ a.units := by
  have h : (ranked tokens named registry).Pairwise fun a b => decide (b.units ≤ a.units) = true :=
    List.pairwise_mergeSort units_trans units_total _
  exact h.imp of_decide_eq_true

/-- Of two mentioned domains with one unit at least as many, the first is ranked first. -/
theorem ranked_before {before after : List RegisteredDomain} {first domain : RegisteredDomain}
    (hregistry : registry = before ++ domain :: after) (hfirst : first ∈ before)
    (hmentions : mentions tokens first = true) (hdomain : mentions tokens domain = true)
    (hunits : (candidateOf tokens named registry domain).units ≤
      (candidateOf tokens named registry first).units) :
    [candidateOf tokens named registry first, candidateOf tokens named registry domain].Sublist
      (ranked tokens named registry) := by
  have hpair : [first, domain].Sublist registry := by
    rw [hregistry]
    exact (List.singleton_sublist.mpr hfirst).append
      (List.singleton_sublist.mpr List.mem_cons_self)
  have hfilter : [first, domain].Sublist (registry.filter (mentions tokens)) := by
    have h := hpair.filter (mentions tokens)
    rwa [List.filter_cons_of_pos hmentions, List.filter_cons_of_pos hdomain, List.filter_nil] at h
  exact List.pair_sublist_mergeSort units_trans units_total (decide_eq_true hunits)
    (hfilter.map _)

/-- In a presentable registry those at the top of the ranking have identifiers for names. -/
theorem isIdentifier_of_ranked (h : Routable query intent hints limit tokens folded named)
    (hregistered : Registered registry) (hpresentable : Presentable registry)
    {candidate : Candidate} (hcandidate : candidate ∈ (ranked tokens named registry).take
      (min maxRouterMatches limit)) : isIdentifier candidate.domain.name = true := by
  have htop : candidate ∈ (ranked tokens named registry).take maxRouterMatches :=
    List.take_subset_take_left _ (min_le_left _ _) hcandidate
  obtain ⟨domain, hdomain, hmentions, rfl⟩ := mem_mentioned.mp
    (mem_ranked.mp (List.mem_of_mem_take hcandidate))
  by_contra hname
  obtain ⟨before, after, hsplit⟩ := List.append_of_mem hdomain
  have hunreachable := hpresentable before domain after hsplit (Bool.eq_false_iff.mpr hname)
  obtain ⟨keyword, hkeyword, hne, hinfix⟩ := mentions_iff.mp hmentions
  have hunnamed : domain.name ∉ named := fun hmem =>
    hunreachable ⟨keyword, hkeyword, hne, .inl (named_of_routable h hmem)⟩
  have hmany : maxRouterMatches ≤ (before.filter (mentions (phraseOf keyword))).length := by
    by_contra hfew
    exact hunreachable ⟨keyword, hkeyword, hne, .inr (by omega)⟩
  have hnames : (before.map fun domain => domain.name).Nodup := by
    have hdistinct := hregistered.distinct
    rw [hsplit, List.map_append] at hdistinct
    exact (List.nodup_append.mp hdistinct).1
  have hothers : ((before.filter (mentions (phraseOf keyword))).map
      (candidateOf tokens named registry)).Nodup := by
    refine List.Nodup.of_map (fun candidate => candidate.domain.name) ?_
    rw [List.map_map]
    exact hnames.sublist (List.filter_sublist.map _)
  have hranked : (ranked tokens named registry).Nodup :=
    List.Nodup.of_map _ (nodup_names_ranked tokens named hregistered.distinct)
  refine not_mem_take_of_before hranked hothers ?_
    (by rwa [List.length_map]) htop
  intro other hother
  obtain ⟨first, hfirst, rfl⟩ := List.mem_map.mp hother
  obtain ⟨hbefore, hphrase⟩ := List.mem_filter.mp hfirst
  have hfirst := mentions_of_infix hinfix hphrase
  refine ranked_before hsplit hbefore hfirst hmentions ?_
  rw [candidateOf_units hmentions, candidateOf_units hfirst, if_neg hunnamed]
  omega

/-- The tables of the Unicode standard on ASCII texts. -/
structure AsciiTables : Prop where
  nfkc : ∀ text : String, (∀ c ∈ text.toList, c.toNat < 128) → PythonUnicode.nfkc text = text
  casefold : ∀ text : String, (∀ c ∈ text.toList, c.toNat < 128) →
    PythonText.casefold text = String.ofList (text.toList.map Char.toLower)
  format : ∀ c : Char, c.toNat < 128 → PythonUnicode.isFormat c = false

/-- A text without words has no tokens. -/
theorem queryTokens_mark (htables : AsciiTables) : queryTokens "?" = .ok [] := by
  have hnfkc : PythonUnicode.nfkc "?" = "?" := htables.nfkc "?" (by decide)
  have hfold : PythonText.casefold "?" = "?" := by
    rw [htables.casefold "?" (by decide)]
    decide
  have hvisible : isInvisible '?' = false := by
    rw [isInvisible, htables.format '?' (by decide)]
    decide
  have hletter : isTokenLetter '?' = false := by
    rw [isTokenLetter, PythonWord.ascii '?' (by decide)]
    decide
  have hnormalized : normalizeQueryText "?" = .ok "?" := by
    unfold normalizeQueryText
    rw [hnfkc, hfold]
    simp only [show "?".toList = ['?'] by decide, List.map_cons, List.map_nil, hvisible,
      Bool.false_eq_true, if_false]
    decide
  rw [queryTokens, hnormalized]
  simp [Except.map, show "?".toList = ['?'] by decide, findTokens, hletter]

omit [PythonWord] in
theorem normalizedIntent_lookup (htables : AsciiTables) :
    normalizedIntent "lookup" = .ok "lookup" := by
  have hnfkc : PythonUnicode.nfkc "lookup" = "lookup" := htables.nfkc "lookup" (by decide)
  have hfold : PythonText.casefold "lookup" = "lookup" := by
    rw [htables.casefold "lookup" (by decide)]
    decide
  have hstrip : stripText "lookup" = "lookup" := by decide
  have hformat : "lookup".toList.any PythonUnicode.isFormat = false := by
    rw [List.any_eq_false]
    intro c hc
    have hascii : c.toNat < 128 := by
      revert c
      decide
    rw [htables.format c hascii]
    decide
  have htext : normalizePolicyText "lookup" maxPolicyText = .ok "lookup" := by
    rw [normalizePolicyText_ok, hnfkc, hstrip]
    exact ⟨by decide, hformat, by decide, by decide⟩
  unfold normalizedIntent
  rw [htext]
  simp only [bind, Except.bind, hfold]
  rfl

/-- Without domains a query is routed to none. -/
theorem route_empty (h : Routable query intent hints limit tokens folded named) :
    ∃ found, route emptyPolicy query intent hints limit = .ok found := by
  have hdomains : emptyPolicy.domains = ([] : List RegisteredDomain).map adapted := rfl
  refine (route_ok_iff hdomains rfl (by simp) h).mpr ?_
  simp [ranked, mentioned]

/-- A router that takes every query has keywords that can be looked for. -/
theorem searchable_of_routes (htables : AsciiTables)
    (hdomains : policy.domains = registry.map adapted)
    (hroutes : ∀ query intent hints limit,
      (∃ found, route emptyPolicy query intent hints limit = .ok found) →
        ∃ found, route policy query intent hints limit = .ok found) :
    ∀ domain ∈ registry, Searchable domain := by
  have hroutable : Routable "?" "lookup" [] 1 [] "lookup" [] :=
    ⟨by simp, queryTokens_mark htables, normalizedIntent_lookup htables, rfl, by decide⟩
  obtain ⟨found, hfound⟩ := hroutes _ _ _ _ (route_empty hroutable)
  rw [route_eq hroutable, hdomains] at hfound
  obtain ⟨signals, hsignals, -⟩ := bind_eq_ok.mp hfound
  intro domain hdomain keyword hkeyword
  obtain ⟨signal, -, hsignal⟩ := exists_of_mapM hsignals (List.mem_map.mpr ⟨domain, hdomain, rfl⟩)
  obtain ⟨there, hthere, -⟩ := map_eq_ok.mp hsignal
  exact searchable_of_containsAny hthere keyword (List.mem_eraseDups.mpr hkeyword)

/-- And it has no domain that it can route to without an identifier for a name. -/
theorem presentable_of_routes (htables : AsciiTables) (hregistered : Registered registry)
    (hdomains : policy.domains = registry.map adapted)
    (hrouting : policy.routing = defaultV1Routing)
    (hsearch : ∀ domain ∈ registry, Searchable domain)
    (hroutes : ∀ query intent hints limit,
      (∃ found, route emptyPolicy query intent hints limit = .ok found) →
        ∃ found, route policy query intent hints limit = .ok found) :
    Presentable registry := by
  rintro before domain after hsplit hname ⟨keyword, hkeyword, hne, hcase⟩
  have hdomain : domain ∈ registry := by simp [hsplit]
  obtain ⟨text, htext⟩ := hsearch domain hdomain keyword hkeyword
  have htokens := queryTokens_phraseOf htext
  have hmentions : mentions (phraseOf keyword) domain = true :=
    mentions_iff.mpr ⟨keyword, hkeyword, hne, List.infix_rfl⟩
  -- the keyword itself is the query that fails
  have hfails : ∀ hints named, Routable keyword "lookup" hints maxRouterMatches
      (phraseOf keyword) "lookup" named →
      candidateOf (phraseOf keyword) named registry domain ∉
        (ranked (phraseOf keyword) named registry).take maxRouterMatches := by
    intro hints named hroutable htop
    have hok := (route_ok_iff hdomains hrouting hsearch hroutable).mp
      (hroutes _ _ _ _ (route_empty hroutable)) _ (by rwa [min_self])
    rw [show (candidateOf (phraseOf keyword) named registry domain).domain.name = domain.name
      from rfl, hname] at hok
    cases hok
  have hmentioned : ∀ named, mentioned (phraseOf keyword) named registry =
      (before.filter (mentions (phraseOf keyword))).map
          (candidateOf (phraseOf keyword) named registry) ++
        candidateOf (phraseOf keyword) named registry domain ::
          (after.filter (mentions (phraseOf keyword))).map
            (candidateOf (phraseOf keyword) named registry) := by
    intro named
    conv_lhs => rw [mentioned, hsplit]
    rw [List.filter_append, List.filter_cons_of_pos hmentions, List.map_append, List.map_cons,
      ← hsplit]
  rcases hcase with ⟨hint, hblank, hhint⟩ | hfew
  · -- alone with a hint the domain is ranked first
    have hroutable : Routable keyword "lookup" [hint] maxRouterMatches (phraseOf keyword) "lookup"
        [domain.name] := by
      refine ⟨⟨by simp [maxSelectorValues], by simpa using hblank⟩, htokens,
        normalizedIntent_lookup htables, ?_, by decide⟩
      exact bind_eq_ok.mpr ⟨[domain.name], by rw [List.mapM_cons, hhint]; rfl,
        bind_eq_ok.mpr ⟨⟨⟩, demand_ok.mpr (by simp), rfl⟩⟩
    refine hfails _ _ hroutable ?_
    obtain ⟨front, back, hranked⟩ := List.append_of_mem (mem_ranked.mpr (mem_mentioned.mpr
      ⟨domain, hdomain, hmentions, rfl⟩) : candidateOf (phraseOf keyword) [domain.name] registry
        domain ∈ ranked (phraseOf keyword) [domain.name] registry)
    have hfront : front = [] := by
      by_contra hsome
      obtain ⟨candidate, hcandidate⟩ := List.exists_mem_of_ne_nil front hsome
      have hsorted := pairwise_ranked (phraseOf keyword) [domain.name] registry
      have hdistinct := nodup_names_ranked (phraseOf keyword) [domain.name] hregistered.distinct
      have hmem : candidate ∈ ranked (phraseOf keyword) [domain.name] registry := by
        rw [hranked]
        exact List.mem_append_left _ hcandidate
      obtain ⟨other, -, hother, rfl⟩ := mem_mentioned.mp (mem_ranked.mp hmem)
      rw [hranked, List.pairwise_append] at hsorted
      have hunits := hsorted.2.2 _ hcandidate _ List.mem_cons_self
      rw [candidateOf_units hmentions, candidateOf_units hother, if_pos (by simp)] at hunits
      have hsame : other.name = domain.name := by
        by_contra hother
        rw [if_neg (by simpa using hother)] at hunits
        omega
      rw [hranked, List.map_append] at hdistinct
      refine (List.nodup_append.mp hdistinct).2.2 _ (List.mem_map_of_mem hcandidate) domain.name
        List.mem_cons_self hsame
    rw [hranked, hfront, List.nil_append]
    exact List.mem_cons_self
  · -- without hints the candidates stay in policy order
    have hroutable : Routable keyword "lookup" [] maxRouterMatches (phraseOf keyword) "lookup"
        [] :=
      ⟨by simp, htokens, normalizedIntent_lookup htables, rfl, by decide⟩
    refine hfails _ _ hroutable ?_
    have hranked : ranked (phraseOf keyword) [] registry = mentioned (phraseOf keyword) [] registry := by
      refine List.mergeSort_of_pairwise (List.pairwise_of_forall_mem_list ?_)
      intro first hfirst second hsecond
      obtain ⟨d₁, -, h₁, rfl⟩ := mem_mentioned.mp hfirst
      obtain ⟨d₂, -, h₂, rfl⟩ := mem_mentioned.mp hsecond
      rw [candidateOf_units h₁, candidateOf_units h₂]
      simp
    rw [hranked, hmentioned]
    exact mem_take_append_cons (by rwa [List.length_map])

/-! ## Planning -/

/-- A vault without a configuration file. -/
def DomainConfig.absent : DomainConfig := ⟨.ok false, none, fun _ => none⟩

omit [PythonWord] in
theorem loadDomainPolicy_absent : loadDomainPolicy .absent = .ok emptyPolicy := by
  refine bind_eq_ok.mpr ⟨false, rfl, ?_⟩
  exact domainPolicyRegistry_ok (.inl rfl) (by decide) (by decide) (Nat.zero_le _) List.nodup_nil

theorem length_of_route {found : List DomainMatch}
    (h : route policy query intent hints limit = .ok found) : found.length ≤ maxRouterMatches := by
  obtain ⟨tokens, folded, named, hroutable⟩ := routable_of_route h
  rw [route_eq hroutable] at h
  obtain ⟨signals, -, h⟩ := bind_eq_ok.mp h
  rw [length_of_mapM h, List.length_take]
  omega

omit [PythonText] [PythonUnicode] [PythonWord] in
theorem retrievalPlan_iff {arguments : PlanArguments} :
    (∃ retrieval, retrievalPlan arguments = .ok retrieval) ↔ arguments.valid = true := by
  unfold retrievalPlan
  split_ifs with hvalid
  · simp [hvalid]
  · simp [hvalid]

omit [PythonText] [PythonUnicode] [PythonWord] in
/-- Other matches, if they are few, and another reason, if it is short, leave a plan valid. -/
theorem valid_of_valid {arguments changed : PlanArguments} (h : arguments.valid = true)
    (hstages : changed.stages = arguments.stages)
    (hattempted : changed.attemptedStages = arguments.attemptedStages)
    (hskipped : changed.skippedStages = arguments.skippedStages)
    (hbudget : changed.budget = arguments.budget) (hfew : changed.domainMatches.length ≤ 64)
    (hreason : changed.escalationReason.length ≤ 2048) : changed.valid = true := by
  have hpartitions : changed.partitions = arguments.partitions := by
    rw [PlanArguments.partitions, PlanArguments.partitions, hstages, hattempted, hskipped, hbudget]
  simp only [PlanArguments.valid, Bool.and_eq_true, decide_eq_true_eq] at h ⊢
  rw [hstages, hattempted, hskipped, hpartitions]
  exact ⟨⟨⟨⟨⟨⟨h.1.1.1.1.1.1, hfew⟩, hreason⟩, h.1.1.1.2⟩, h.1.1.2⟩, h.1.2⟩, h.2⟩

omit [PythonText] [PythonUnicode] [PythonWord] in
/-- The reason a planner gives is short. -/
theorem length_escalationReason {n : Nat} (hn : n ≤ maxRouterMatches) (budgetClass : BudgetClass) :
    ("Admitted " ++ toString n ++ " domain(s) under " ++ budgetClass.value ++
      " budget profile").length ≤ 2048 := by
  have hnumber : (toString n).length ≤ 2 := by
    have hall : ∀ n ≤ 16, (toString n).length ≤ 2 := by decide
    exact hall n hn
  have hclass : budgetClass.value.length ≤ 8 := by
    cases budgetClass <;> decide
  simp only [String.length_append]
  have h₁ : "Admitted ".length = 9 := by decide
  have h₂ : " domain(s) under ".length = 17 := by decide
  have h₃ : " budget profile".length = 15 := by decide
  omega

/-- Where the router takes the queries of a planner, so does the planner. -/
theorem plan_of_route {config : DomainConfig} {today : Temporal.Date} {question : QueryIntent}
    {callerHint : Option BudgetLayer} {accessPolicy : Option AccessPolicy}
    (hload : loadDomainPolicy config = .ok policy)
    (hroutes : ∀ query intent hints limit,
      (∃ found, route emptyPolicy query intent hints limit = .ok found) →
        ∃ found, route policy query intent hints limit = .ok found)
    (h : ∃ retrieval, plan none .absent today question callerHint accessPolicy = .ok retrieval) :
    ∃ retrieval, plan none config today question callerHint accessPolicy = .ok retrieval := by
  obtain ⟨retrieval, h⟩ := h
  obtain ⟨profile, hprofile, h⟩ := bind_eq_ok.mp h
  obtain ⟨budget, hbudget, h⟩ := bind_eq_ok.mp h
  obtain ⟨empty, hempty, h⟩ := bind_eq_ok.mp h
  obtain ⟨none', hnone, h⟩ := bind_eq_ok.mp h
  obtain ⟨⟨⟩, hprojects, h⟩ := bind_eq_ok.mp h
  obtain ⟨⟨⟩, hgranted, h⟩ := bind_eq_ok.mp h
  have hpolicy : empty = emptyPolicy := Except.ok.inj (hempty.symm.trans loadDomainPolicy_absent)
  rw [hpolicy] at hnone
  obtain ⟨found, hfound⟩ := hroutes _ _ _ _ ⟨none', hnone⟩
  have hfew := length_of_route hfound
  refine exists_bind_eq_ok.mpr ⟨profile, hprofile, exists_bind_eq_ok.mpr ⟨budget, hbudget, ?_⟩⟩
  refine exists_bind_eq_ok.mpr ⟨policy, hload, exists_bind_eq_ok.mpr ⟨found, hfound, ?_⟩⟩
  refine exists_bind_eq_ok.mpr ⟨⟨⟩, hprojects, exists_bind_eq_ok.mpr ⟨⟨⟩, hgranted, ?_⟩⟩
  have hvalid := retrievalPlan_iff.mp ⟨retrieval, h⟩
  exact retrievalPlan_iff.mpr (valid_of_valid hvalid rfl rfl rfl rfl (hfew.trans (by decide))
    (length_escalationReason hfew question.budgetClass))

/-! ## What the adapter serves -/

/-- The adapted domain has the values of the rules, and no others. -/
structure Unites (domain : RegisteredDomain) (spec : DomainPolicySpec) : Prop where
  keywords : ∀ v, v ∈ spec.querySignals.keywords ↔ ∃ rule ∈ domain.rules, v ∈ rule.keywords
  tags : ∀ v, v ∈ spec.selectors.tags ↔ ∃ rule ∈ domain.rules, v ∈ rule.tags
  types : ∀ v, v ∈ spec.selectors.types ↔ ∃ rule ∈ domain.rules, v ∈ rule.types

omit [PythonUnicode] [PythonWord] in
theorem unites_adapted (domain : RegisteredDomain) : Unites domain (adapted domain) where
  keywords v := by simp [adapted, valuesOf]
  tags v := by simp [adapted, valuesOf]
  types v := by simp [adapted, valuesOf]

/-- The policy of a configuration has the domains of its registry, and no query that is routed or
planned without a configuration fails with this one. -/
structure Serves (config : DomainConfig) (registry : List RegisteredDomain)
    (policy : DomainPolicyRegistry) : Prop where
  loads : loadDomainPolicy config = .ok policy
  names : policy.domains.map (fun spec => spec.name) = registry.map fun domain => domain.name
  unites : List.Forall₂ Unites registry policy.domains
  routes : ∀ query intent hints limit,
    (∃ found, route emptyPolicy query intent hints limit = .ok found) →
      ∃ found, route policy query intent hints limit = .ok found
  plans : ∀ today question callerHint accessPolicy,
    (∃ retrieval, plan none .absent today question callerHint accessPolicy = .ok retrieval) →
      ∃ retrieval, plan none config today question callerHint accessPolicy = .ok retrieval

/-- **What the adapter serves.**  A registry that loads is served by its adapted policy exactly
when each of its domains fits into a policy and has keywords that can be looked for, and none that
a query can be routed to has a name that is no identifier. -/
theorem loadDomainPolicy_serves {config : DomainConfig} (htables : AsciiTables)
    (h : loadDomainRegistry config = .ok registry) :
    (∃ policy, Serves config registry policy) ↔
      (∀ domain ∈ registry, Adaptable domain ∧ Searchable domain) ∧ Presentable registry := by
  have hregistered := registered_of_load h
  obtain ⟨hloads, hloaded⟩ := loadDomainPolicy_registry h
  constructor
  · rintro ⟨policy, hserves⟩
    obtain ⟨hdomains, hrouting⟩ := hloaded policy hserves.loads
    have hadaptable := hloads.mp ⟨policy, hserves.loads⟩
    have hsearch := searchable_of_routes htables hdomains hserves.routes
    exact ⟨fun domain hdomain => ⟨hadaptable domain hdomain, hsearch domain hdomain⟩,
      presentable_of_routes htables hregistered hdomains hrouting hsearch hserves.routes⟩
  · rintro ⟨hall, hpresentable⟩
    obtain ⟨policy, hload⟩ := hloads.mpr fun domain hdomain => (hall domain hdomain).1
    obtain ⟨hdomains, hrouting⟩ := hloaded policy hload
    have hroutes : ∀ query intent hints limit,
        (∃ found, route emptyPolicy query intent hints limit = .ok found) →
          ∃ found, route policy query intent hints limit = .ok found := by
      rintro query intent hints limit ⟨found, hfound⟩
      obtain ⟨tokens, folded, named, hroutable⟩ := routable_of_route hfound
      exact (route_ok_iff hdomains hrouting (fun domain hdomain => (hall domain hdomain).2)
        hroutable).mpr fun candidate hcandidate =>
          isIdentifier_of_ranked hroutable hregistered hpresentable hcandidate
    refine ⟨policy, hload, ?_, ?_, hroutes, fun _ _ _ _ => plan_of_route hload hroutes⟩
    · rw [hdomains, List.map_map]
      rfl
    · rw [hdomains, List.forall₂_map_right_iff, List.forall₂_same]
      exact fun domain _ => unites_adapted domain

end

/-! ## A keyword without a visible character -/

/-- Tables that know one character beyond ASCII, the zero width space. -/
abbrev PythonUnicode.zeroWidth : PythonUnicode := ⟨fun text => text, fun c => c == '\u200b'⟩

attribute [local instance] PythonText.ascii PythonUnicode.zeroWidth PythonWord.asciiOnly

theorem asciiTables : AsciiTables where
  nfkc _ _ := rfl
  casefold _ _ := rfl
  format c hc := by
    refine beq_eq_false_iff_ne.mpr ?_
    rintro rfl
    exact absurd hc (by decide)

/-- A vault with a registry of one domain with one keyword. -/
def keywordConfig (keyword : String) : DomainConfig where
  explicit := .ok false
  yaml := some (.ok (.dict [
    ("domains", .list [.dict [
      ("name", .str "deploys"),
      ("path", .str "deploys"),
      ("rules", .list [.dict [("keywords", Retrieval.texts [keyword])]]),
      ("template", .str "deploys.md")]]),
    ("version", .int 1)]))
  refusal _ := none

/-- The domain that the vault registers. -/
def keywordDomain (keyword : String) : RegisteredDomain :=
  ⟨⟨"deploys", "deploys"⟩, "deploys.md", [⟨[keyword], [], [], 1⟩], ["fts", "semantic"]⟩

/-- A vault with the keyword `deploy` is served. -/
theorem serves_deploy : ∃ policy,
    Serves (keywordConfig "deploy") [keywordDomain "deploy"] policy := by
  have hload : loadDomainRegistry (keywordConfig "deploy") = .ok [keywordDomain "deploy"] := by
    decide +kernel
  refine (loadDomainPolicy_serves asciiTables hload).mpr ⟨?_, ?_⟩
  · intro domain hdomain
    obtain rfl := List.mem_singleton.mp hdomain
    refine ⟨⟨⟨by decide, by decide, by decide, by decide, by decide, by decide, by decide,
      by decide, by decide, by decide⟩, ⟨by decide, by simp [valuesOf, keywordDomain]⟩,
      ⟨by decide, by simp [valuesOf, keywordDomain]⟩, ⟨by decide, ?_⟩⟩, ?_⟩
    · intro text htext
      obtain rfl : text = "deploy" := by simpa [valuesOf, keywordDomain] using htext
      decide
    · intro keyword hkeyword
      obtain rfl : keyword = "deploy" := by simpa [valuesOf, keywordDomain] using hkeyword
      exact exists_of_isOk (by decide +kernel)
  · intro before domain after hsplit hname
    obtain rfl : domain = keywordDomain "deploy" := by
      have hmem : domain ∈ [keywordDomain "deploy"] := by rw [hsplit]; simp
      exact List.mem_singleton.mp hmem
    exact absurd hname (by decide)

/-- One whose keyword is a zero width space is registered, but not served. -/
theorem serves_zeroWidth :
    loadDomainRegistry (keywordConfig "\u200b") = .ok [keywordDomain "\u200b"] ∧
      ¬ ∃ policy, Serves (keywordConfig "\u200b") [keywordDomain "\u200b"] policy := by
  have hload : loadDomainRegistry (keywordConfig "\u200b") = .ok [keywordDomain "\u200b"] := by
    decide +kernel
  refine ⟨hload, ?_⟩
  rintro ⟨policy, hserves⟩
  have hdomains := ((loadDomainPolicy_registry hload).2 policy hserves.loads).1
  have hsearch := searchable_of_routes asciiTables hdomains hserves.routes
  obtain ⟨text, htext⟩ := hsearch _ List.mem_cons_self "\u200b" (by simp [valuesOf, keywordDomain])
  have herror : (normalizeQueryText "\u200b").isOk = false := by decide +kernel
  rw [htext] at herror
  cases herror

end PowerFramework.Domain
