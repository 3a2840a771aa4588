import PowerFramework.Domain.Policy
import PowerFramework.Lib.Run
/-!
# Registries as policies

The constructors of a policy are stricter than the loader of a registry.  The adapter reads exactly
the registries whose domains fit into a policy (`loadDomainPolicy_registry`).
-/

namespace PowerFramework.Domain

open Lib Lib.Failure Lib.Json Lib.Text State Search Retrieval

/-! ## Bounds -/

theorem demand_ok {accepted : Bool} {message : String} {u : PUnit} :
    demand accepted message = .ok u ↔ accepted = true := by
  rw [demand, raiseIf_eq_ok, Bool.not_eq_false]

theorem boundedTuple_ok {value : List String} {field : String} {maximum : Nat}
    {u : PUnit.{1}} : boundedTuple value field maximum = .ok u ↔ value.length ≤ maximum ∧
      (∀ item ∈ value, item ≠ "" ∧ item.length ≤ maxPolicyText) ∧ value.Nodup := by
  constructor
  · intro h
    obtain ⟨⟨⟩, hfew, h⟩ := bind_eq_ok.mp h
    obtain ⟨⟨⟩, hshort, hnodup⟩ := bind_eq_ok.mp h
    rw [demand_ok] at hfew hshort hnodup
    exact ⟨of_decide_eq_true hfew, by simpa using hshort, of_decide_eq_true hnodup⟩
  · rintro ⟨hfew, hshort, hnodup⟩
    refine bind_eq_ok.mpr ⟨⟨⟩, demand_ok.mpr (decide_eq_true hfew), ?_⟩
    exact bind_eq_ok.mpr ⟨⟨⟩, demand_ok.mpr (by simpa using hshort),
      demand_ok.mpr (decide_eq_true hnodup)⟩

/-- The texts fit into a bounded tuple of their different values. -/
structure TextsFit (texts : List String) (maximum : Nat) : Prop where
  few : texts.eraseDups.length ≤ maximum
  short : ∀ text ∈ texts, text ≠ "" ∧ text.length ≤ maxPolicyText

theorem boundedTuple_eraseDups {texts : List String} {field : String} {maximum : Nat}
    {u : PUnit.{1}} : boundedTuple texts.eraseDups field maximum = .ok u ↔ TextsFit texts maximum := by
  rw [boundedTuple_ok, and_iff_left (nodup_eraseDups texts)]
  constructor
  · rintro ⟨hfew, hshort⟩
    exact ⟨hfew, fun text h => hshort text (List.mem_eraseDups.mpr h)⟩
  · rintro ⟨hfew, hshort⟩
    exact ⟨hfew, fun text h => hshort text (List.mem_eraseDups.mp h)⟩

/-! ## Paths -/

section
variable [PythonText] [PythonUnicode]

/-- The glob of a domain's path. -/
def globOf (path : String) : String := PythonText.casefold path ++ "/**"

/-- The glob as the policy normalizes it, before and after it folds the case. -/
def normalizedGlob (path : String) : String := stripText (PythonUnicode.nfkc (globOf path))

def foldedGlob (path : String) : String := PythonText.casefold (joinedWords (normalizedGlob path))

/-- The glob of the path fits into a policy. -/
structure PathFits (path : String) : Prop where
  length : (globOf path).length ≤ maxPolicyText
  control : hasControl (normalizedGlob path) = false
  format : (normalizedGlob path).toList.any PythonUnicode.isFormat = false
  normalized : (normalizedGlob path).length ≤ maxPolicyText
  relative : startsWith "/" (foldedGlob path) = false
  backslash : isWithin "\\" (foldedGlob path) = false
  drive : isDrive (foldedGlob path) = false
  url : isWithin "://" (foldedGlob path) = false
  scheme : hasScheme (foldedGlob path) = false
  inside : ".." ∉ pathParts (foldedGlob path)

omit [PythonText] [PythonUnicode] in
theorem normalizePolicyText_ok [PythonUnicode] {value result : String} {maxLength : Nat} :
    normalizePolicyText value maxLength = .ok result ↔
      hasControl (stripText (PythonUnicode.nfkc value)) = false ∧
        (stripText (PythonUnicode.nfkc value)).toList.any PythonUnicode.isFormat = false ∧
        (stripText (PythonUnicode.nfkc value)).length ≤ maxLength ∧
        joinedWords (stripText (PythonUnicode.nfkc value)) = result := by
  constructor
  · intro h
    obtain ⟨⟨⟩, hchecked, h⟩ := bind_eq_ok.mp h
    rw [demand_ok, Bool.and_eq_true, Bool.and_eq_true, Bool.not_eq_true', Bool.not_eq_true',
      decide_eq_true_eq] at hchecked
    exact ⟨hchecked.1.1, hchecked.1.2, hchecked.2, Except.ok.inj h⟩
  · rintro ⟨hcontrol, hformat, hlength, rfl⟩
    refine bind_eq_ok.mpr ⟨⟨⟩, demand_ok.mpr ?_, rfl⟩
    rw [Bool.and_eq_true, Bool.and_eq_true, Bool.not_eq_true', Bool.not_eq_true',
      decide_eq_true_eq]
    exact ⟨⟨hcontrol, hformat⟩, hlength⟩

omit [PythonText] [PythonUnicode] in
/-- A glob is more than blanks. -/
theorem stripText_glob (front : String) : stripText (front ++ "/**") ≠ "" := by
  intro h
  have hstrip : Ledger.strip (front ++ "/**").toList = [] := by
    simpa [stripText] using congrArg String.toList h
  rw [Ledger.strip, List.rdropWhile_eq_nil_iff, String.toList_append, List.dropWhile_append]
    at hstrip
  have hstar : Ledger.isPySpace '*' = true := by
    refine hstrip '*' ?_
    split_ifs
    · decide
    · exact List.mem_append_right _ (by decide)
  exact absurd hstar (by decide)

theorem policyPathPattern_glob {path label field : String} :
    (boundedTuple [globOf path] label maxSelectorValues = .ok (⟨⟩ : PUnit.{1}) ∧
      ∃ glob, policyPathPattern (.str (globOf path)) field = .ok glob) ↔ PathFits path := by
  rw [boundedTuple_ok]
  constructor
  · rintro ⟨⟨-, hshort, -⟩, glob, h⟩
    obtain ⟨⟨⟩, -, h⟩ := bind_eq_ok.mp h
    obtain ⟨normalized, hnormalized, h⟩ := bind_eq_ok.mp h
    obtain ⟨⟨⟩, hsafe, -⟩ := bind_eq_ok.mp h
    obtain ⟨hcontrol, hformat, hlength, rfl⟩ := normalizePolicyText_ok.mp hnormalized
    simp only [demand_ok, Bool.and_eq_true, Bool.not_eq_true', decide_eq_true_eq] at hsafe
    obtain ⟨⟨⟨⟨⟨hrelative, hbackslash⟩, hdrive⟩, hurl⟩, hscheme⟩, hinside⟩ := hsafe
    exact ⟨(hshort _ (by simp)).2, hcontrol, hformat, hlength, hrelative, hbackslash, hdrive, hurl,
      hscheme, hinside⟩
  · intro h
    refine ⟨⟨show 1 ≤ 64 by omega, ?_, by simp⟩, asPosix (foldedGlob path), ?_⟩
    · intro item hitem
      obtain rfl := List.mem_singleton.mp hitem
      refine ⟨fun hempty => ?_, h.length⟩
      have hlength := congrArg String.length hempty
      rw [globOf, String.length_append] at hlength
      exact absurd hlength (by simp)
    · refine bind_eq_ok.mpr ⟨⟨⟩, demand_ok.mpr (decide_eq_true (stripText_glob _)), ?_⟩
      refine bind_eq_ok.mpr ⟨_, normalizePolicyText_ok.mpr
        ⟨h.control, h.format, h.normalized, rfl⟩, ?_⟩
      refine bind_eq_ok.mpr ⟨⟨⟩, demand_ok.mpr ?_, rfl⟩
      simp only [Bool.and_eq_true, Bool.not_eq_true', decide_eq_true_eq]
      exact ⟨⟨⟨⟨⟨h.relative, h.backslash⟩, h.drive⟩, h.url⟩, h.scheme⟩, h.inside⟩

/-! ## Domains -/

/-- The values that the rules of a domain have in a field. -/
def valuesOf (field : DomainRule → List String) (domain : RegisteredDomain) : List String :=
  domain.rules.flatMap field

/-- The domain fits into a policy. -/
structure Adaptable (domain : RegisteredDomain) : Prop where
  path : PathFits domain.path
  tags : TextsFit (valuesOf DomainRule.tags domain) maxSelectorValues
  types : TextsFit (valuesOf DomainRule.types domain) maxSelectorValues
  keywords : TextsFit (valuesOf DomainRule.keywords domain) maxQueryKeywords

/-- The domain as the adapter writes it. -/
def adapted (domain : RegisteredDomain) : DomainPolicySpec where
  name := domain.name
  selectors := ⟨[globOf domain.path], (valuesOf DomainRule.tags domain).eraseDups,
    (valuesOf DomainRule.types domain).eraseDups⟩
  querySignals := ⟨(valuesOf DomainRule.keywords domain).eraseDups, []⟩
  retrieval := ⟨["metadata", "fts"], 40, 0, "FAST", none⟩
  traversal := ["metadata"]
  index := ⟨"WARM", "deferred"⟩
  noise := ⟨["duplicate"], "quarantine"⟩
  authority := ⟨["canonical", "verified"], none, none⟩

theorem domainSourceSelectors_glob {path : String} {tags types : List String}
    {selectors : DomainSourceSelectors} :
    domainSourceSelectors [globOf path] tags.eraseDups types.eraseDups = .ok selectors ↔
      (PathFits path ∧ TextsFit tags maxSelectorValues ∧ TextsFit types maxSelectorValues) ∧
        selectors = ⟨[globOf path], tags.eraseDups, types.eraseDups⟩ := by
  have hone : ∀ field (paths : List String),
      [globOf path].mapM (fun path => policyPathPattern (.str path) field) = .ok paths ↔
        ∃ glob, policyPathPattern (.str (globOf path)) field = .ok glob ∧ paths = [glob] := by
    intro field paths
    rw [List.mapM_cons, bind_eq_ok]
    constructor
    · rintro ⟨glob, hglob, h⟩
      cases h
      exact ⟨glob, hglob, rfl⟩
    · rintro ⟨glob, hglob, rfl⟩
      exact ⟨glob, hglob, rfl⟩
  constructor
  · intro h
    obtain ⟨⟨⟩, hpaths, h⟩ := bind_eq_ok.mp h
    obtain ⟨⟨⟩, htags, h⟩ := bind_eq_ok.mp h
    obtain ⟨⟨⟩, htypes, h⟩ := bind_eq_ok.mp h
    obtain ⟨⟨⟩, -, h⟩ := bind_eq_ok.mp h
    obtain ⟨globs, hglobs, h⟩ := bind_eq_ok.mp h
    obtain ⟨glob, hglob, -⟩ := (hone _ globs).mp hglobs
    have hpath := policyPathPattern_glob.mp ⟨hpaths, glob, hglob⟩
    exact ⟨⟨hpath, boundedTuple_eraseDups.mp htags, boundedTuple_eraseDups.mp htypes⟩,
      (Except.ok.inj h).symm⟩
  · rintro ⟨⟨hpath, htags, htypes⟩, rfl⟩
    obtain ⟨hpaths, glob, hglob⟩ := policyPathPattern_glob.mpr hpath
    refine bind_eq_ok.mpr ⟨⟨⟩, hpaths, bind_eq_ok.mpr ⟨⟨⟩, boundedTuple_eraseDups.mpr htags, ?_⟩⟩
    refine bind_eq_ok.mpr ⟨⟨⟩, boundedTuple_eraseDups.mpr htypes, ?_⟩
    refine bind_eq_ok.mpr ⟨⟨⟩, demand_ok.mpr (by simp), ?_⟩
    exact bind_eq_ok.mpr ⟨_, (hone _ _).mpr ⟨glob, hglob, rfl⟩, rfl⟩

omit [PythonText] [PythonUnicode] in
theorem domainQuerySignals_eraseDups {keywords : List String} {signals : DomainQuerySignals} :
    domainQuerySignals keywords.eraseDups [] = .ok signals ↔
      TextsFit keywords maxQueryKeywords ∧ signals = ⟨keywords.eraseDups, []⟩ := by
  constructor
  · intro h
    obtain ⟨⟨⟩, hkeywords, h⟩ := bind_eq_ok.mp h
    obtain ⟨⟨⟩, -, h⟩ := bind_eq_ok.mp h
    obtain ⟨⟨⟩, -, h⟩ := bind_eq_ok.mp h
    exact ⟨boundedTuple_eraseDups.mp hkeywords, (Except.ok.inj h).symm⟩
  · rintro ⟨hkeywords, rfl⟩
    refine bind_eq_ok.mpr ⟨⟨⟩, boundedTuple_eraseDups.mpr hkeywords, ?_⟩
    exact bind_eq_ok.mpr ⟨⟨⟩, boundedTuple_ok.mpr (by simp), rfl⟩

/-- The adapter reads exactly the adaptable domains. -/
theorem adaptV1Domain_ok {domain : RegisteredDomain} {spec : DomainPolicySpec} :
    adaptV1Domain domain = .ok spec ↔ Adaptable domain ∧ spec = adapted domain := by
  constructor
  · intro h
    obtain ⟨selectors, hselectors, h⟩ := bind_eq_ok.mp h
    obtain ⟨signals, hsignals, h⟩ := bind_eq_ok.mp h
    obtain ⟨⟨hpath, htags, htypes⟩, rfl⟩ := domainSourceSelectors_glob.mp hselectors
    obtain ⟨hkeywords, rfl⟩ := domainQuerySignals_eraseDups.mp hsignals
    exact ⟨⟨hpath, htags, htypes, hkeywords⟩, (Except.ok.inj h).symm⟩
  · rintro ⟨h, rfl⟩
    refine bind_eq_ok.mpr ⟨_, domainSourceSelectors_glob.mpr ⟨⟨h.path, h.tags, h.types⟩, rfl⟩, ?_⟩
    exact bind_eq_ok.mpr ⟨_, domainQuerySignals_eraseDups.mpr ⟨h.keywords, rfl⟩, rfl⟩

/-! ## Registries -/

/-- What the loader of a registry has checked of the list as a whole. -/
structure Registered (registry : List RegisteredDomain) : Prop where
  few : registry.length ≤ maxDomains
  distinct : (registry.map fun domain => domain.name).Nodup

omit [PythonUnicode] in
theorem registered_of_load {config : DomainConfig} {registry : List RegisteredDomain}
    (h : loadDomainRegistry config = .ok registry) : Registered registry := by
  obtain ⟨explicit, -, h⟩ := bind_eq_ok.mp h
  cases hyaml : config.yaml with
  | none =>
    simp only [hyaml] at h
    split_ifs at h
    cases h
    exact ⟨Nat.zero_le _, List.nodup_nil⟩
  | some yaml =>
    simp only [hyaml] at h
    obtain ⟨raw, -, h⟩ := bind_eq_ok.mp h
    obtain ⟨fields, -, h⟩ := bind_eq_ok.mp h
    obtain ⟨⟨⟩, -, h⟩ := bind_eq_ok.mp h
    obtain ⟨entries, hentries, h⟩ := bind_eq_ok.mp h
    have hfew : entries.length ≤ maxDomains := by
      unfold registryEntries at hentries
      split at hentries
      · split_ifs at hentries with hbound
        cases hentries
        exact hbound
      · cases hentries
    have hall : registry.length = entries.length ∧
        (registry.map fun domain => domain.name).Nodup := by
      refine Run.foldlM_history (P := fun before domains =>
        domains.length = before.length ∧ (domains.map fun domain => domain.name).Nodup)
        ⟨rfl, List.nodup_nil⟩ ?_ h
      rintro before domains entry next - ⟨hlength, hdistinct⟩ hentry
      obtain ⟨fields, -, hentry⟩ := bind_eq_ok.mp hentry
      obtain ⟨name, -, hentry⟩ := bind_eq_ok.mp hentry
      obtain ⟨⟨⟩, hnew, hentry⟩ := bind_eq_ok.mp hentry
      obtain ⟨path, -, hentry⟩ := bind_eq_ok.mp hentry
      obtain ⟨template, -, hentry⟩ := bind_eq_ok.mp hentry
      obtain ⟨⟨⟩, -, hentry⟩ := bind_eq_ok.mp hentry
      obtain ⟨⟨⟩, -, hentry⟩ := bind_eq_ok.mp hentry
      obtain ⟨rules, -, hentry⟩ := bind_eq_ok.mp hentry
      obtain ⟨priority, -, hentry⟩ := bind_eq_ok.mp hentry
      cases hentry
      rw [raiseIf_eq_ok] at hnew
      refine ⟨by simp [hlength], ?_⟩
      rw [List.map_append, List.nodup_append]
      refine ⟨hdistinct, by simp, ?_⟩
      rintro other hother name' hname' rfl
      rw [List.map_singleton, List.mem_singleton] at hname'
      rw [hname'] at hother
      exact hnew hother
    exact ⟨hall.1 ▸ hfew, hall.2⟩

omit [PythonText] [PythonUnicode] in
theorem domainPolicyRegistry_ok {version : Nat} {policyRevision normalizationRevision : String}
    {routing : DomainRoutingPolicy} {domains : List DomainPolicySpec}
    (hversion : version = 1 ∨ version = 2) (hpolicy : isRevision policyRevision = true)
    (hnormalization : isRevision normalizationRevision = true)
    (hfew : domains.length ≤ maxDomains)
    (hdistinct : (domains.map fun domain => domain.name).Nodup) :
    domainPolicyRegistry version policyRevision normalizationRevision routing domains =
      .ok ⟨version, policyRevision, normalizationRevision, routing, domains⟩ := by
  refine bind_eq_ok.mpr ⟨⟨⟩, demand_ok.mpr (by simpa using ⟨hversion, hfew⟩), ?_⟩
  refine bind_eq_ok.mpr ⟨⟨⟩, demand_ok.mpr (decide_eq_true hdistinct), ?_⟩
  exact bind_eq_ok.mpr ⟨⟨⟩, demand_ok.mpr hpolicy,
    bind_eq_ok.mpr ⟨⟨⟩, demand_ok.mpr hnormalization, rfl⟩⟩

/-- The adapter reads exactly the registries of adaptable domains. -/
theorem adaptV1Registry_ok {registry : List RegisteredDomain} {policy : DomainPolicyRegistry}
    (h : Registered registry) : adaptV1Registry registry = .ok policy ↔
      (∀ domain ∈ registry, Adaptable domain) ∧ policy = ⟨1, "v1-adapter",
        "nfkc-casefold-tokens-v1", defaultV1Routing, registry.map adapted⟩ := by
  have hpolicy : domainPolicyRegistry 1 "v1-adapter" "nfkc-casefold-tokens-v1" defaultV1Routing
      (registry.map adapted) = .ok ⟨1, "v1-adapter", "nfkc-casefold-tokens-v1", defaultV1Routing,
        registry.map adapted⟩ := by
    refine domainPolicyRegistry_ok (.inl rfl) (by decide) (by decide) ?_ ?_
    · rw [List.length_map]
      exact h.few
    · rw [List.map_map]
      exact h.distinct
  constructor
  · intro hadapt
    obtain ⟨domains, hdomains, hadapt⟩ := bind_eq_ok.mp hadapt
    obtain ⟨hall, rfl⟩ := (mapM_eq_ok fun _ _ => adaptV1Domain_ok).mp hdomains
    rw [hpolicy] at hadapt
    exact ⟨hall, (Except.ok.inj hadapt).symm⟩
  · rintro ⟨hall, rfl⟩
    exact bind_eq_ok.mpr ⟨_, (mapM_eq_ok fun _ _ => adaptV1Domain_ok).mpr ⟨hall, rfl⟩, hpolicy⟩

/-- Where the registry loads, the policy loads exactly if its domains are adaptable, and then it
has them as the adapter writes them. -/
theorem loadDomainPolicy_registry {config : DomainConfig} {registry : List RegisteredDomain}
    (h : loadDomainRegistry config = .ok registry) :
    ((∃ policy, loadDomainPolicy config = .ok policy) ↔ ∀ domain ∈ registry, Adaptable domain) ∧
      ∀ policy, loadDomainPolicy config = .ok policy →
        policy.domains = registry.map adapted ∧ policy.routing = defaultV1Routing := by
  have hregistered := registered_of_load h
  obtain ⟨explicit, hinfo, hload⟩ := bind_eq_ok.mp h
  cases hyaml : config.yaml with
  | none =>
    simp only [hyaml] at hload
    split_ifs at hload with hexplicit
    cases hload
    have hpolicy : loadDomainPolicy config =
        .ok ⟨1, "v1-empty", "nfkc-casefold-tokens-v1", defaultV1Routing, []⟩ := by
      unfold loadDomainPolicy
      rw [hinfo, hyaml]
      simp only [bind, Except.bind, hexplicit, Bool.false_eq_true, if_false]
      exact domainPolicyRegistry_ok (.inl rfl) (by decide) (by decide) (Nat.zero_le _)
        List.nodup_nil
    refine ⟨⟨by simp, fun _ => ⟨_, hpolicy⟩⟩, fun policy hok => ?_⟩
    rw [hpolicy] at hok
    cases hok
    exact ⟨rfl, rfl⟩
  | some yaml =>
    simp only [hyaml] at hload
    obtain ⟨raw, hraw, hparse⟩ := bind_eq_ok.mp hload
    rw [loadYaml_ok.mp hraw] at hyaml
    have hpolicy : loadDomainPolicy config = adaptV1Registry registry := by
      unfold loadDomainPolicy
      rw [hinfo, hyaml]
      simp only [bind, Except.bind, loadYaml, Except.mapError, parsePolicy,
        parseRegistry_version hparse, h, if_true]
    rw [hpolicy]
    refine ⟨⟨?_, fun hall => ⟨_, (adaptV1Registry_ok hregistered).mpr ⟨hall, rfl⟩⟩⟩, ?_⟩
    · rintro ⟨policy, hok⟩
      exact ((adaptV1Registry_ok hregistered).mp hok).1
    · intro policy hok
      obtain ⟨-, rfl⟩ := (adaptV1Registry_ok hregistered).mp hok
      exact ⟨rfl, rfl⟩

end

end PowerFramework.Domain
