import PowerFramework.Retrieval.Plan
import PowerFramework.Retrieval.Screening
/-!
# Executing a plan

Whether a plan that the planner has made can be executed on the vault it was made for.
-/

namespace PowerFramework.Retrieval

open Lib Lib.Failure Lib.Json Lib.Loop State Search Domain

set_option linter.unusedSectionVars false

/-! ## What a retrieval raises -/

/-- The errors of the domain configuration and of the search scope. -/
def configurationErrors : List String := ["DomainConfigError", "UnknownDomainError",
  "UnsupportedSearchScopeError", "SearchScopeAccessDeniedError", "SearchScopeError"]

/-- The errors of the stages, of the screening and of the assembly of the result. -/
def stageErrors : List String :=
  ["ValidationError", "ActiveGenerationError", "OSError", "RuntimeError"]

section
variable [PythonText] [PythonYaml] [PythonWord] [PythonMath] {planner : Planner} {stores : Stores}
  {plan : RetrievalPlan} {intent : QueryIntent} {accessPolicy : AccessPolicy} {exn : Exn}

theorem contextItem_error {evidence : Evidence} (h : contextItem evidence = .error exn) :
    exn.kind ∈ stageErrors := by
  unfold contextItem at h
  split at h
  · cases h
  · cases h
    decide

theorem relatedItems_error {tasks decisions : StoreReading}
    (h : relatedItems plan intent tasks decisions = .error exn) : exn.kind ∈ stageErrors := by
  obtain ⟨record, -, h⟩ := exists_of_mapM_error h
  exact contextItem_error (map_eq_error.mp h)

theorem canonicalStage_error (h : canonicalStage stores plan intent = .error exn) :
    exn.kind ∈ stageErrors := by
  rcases bind_eq_error.mp h with hrelated | ⟨related, -, h⟩
  · exact relatedItems_error hrelated
  · cases h

theorem semanticStage_error (h : semanticStage planner plan intent accessPolicy = .error exn) :
    exn.kind ∈ stageErrors := by
  unfold semanticStage at h
  split at h
  · cases h
  · have hgeneration := map_eq_error.mp h
    cases hactive : planner.activeGeneration with
    | error message =>
      rw [hactive] at hgeneration
      cases hgeneration
      show "ActiveGenerationError" ∈ stageErrors
      decide
    | ok active =>
      rw [hactive] at hgeneration
      cases hgeneration

theorem collect_error (h : collect planner plan intent accessPolicy = .error exn) :
    exn.kind ∈ stageErrors := by
  unfold collect at h
  by_cases hcanonical : RetrievalStage.projectState ∈ plan.stages <;>
    by_cases hsemantic : RetrievalStage.semantic ∈ plan.stages <;>
    simp only [hcanonical, hsemantic, if_true, if_false] at h
  all_goals
    rcases bind_eq_error.mp h with hstage | ⟨canonical, -, h⟩
    · first
      | exact canonicalStage_error hstage
      | cases hstage
    · rcases bind_eq_error.mp h with hstage | ⟨dense, -, h⟩
      · first
        | exact semanticStage_error hstage
        | cases hstage
      · cases h

theorem dedupedItems_error {collected : List ContextItem} (h : dedupedItems collected = .error exn) :
    exn.kind ∈ stageErrors := by
  obtain ⟨d, item, -, hstep⟩ := Run.exists_of_foldlM_error (map_eq_error.mp h)
  have hmerge := map_eq_error.mp hstep
  unfold mergeItem at hmerge
  split at hmerge
  · cases hmerge
  · exact contextItem_error hmerge

theorem scanText_error {files : NoteFiles} {item : ContextItem}
    (h : scanText files item = .error exn) : exn.kind ∈ stageErrors := by
  unfold scanText at h
  by_cases hnote : item.sourceType = "vault_note"
  · simp only [hnote, if_true] at h
    rcases bind_eq_error.mp h with hpresent | ⟨present, -, h⟩
    · unfold NoteFiles.present at hpresent
      cases hfile : files.isFile item.sourceId with
      | error message =>
        rw [hfile] at hpresent
        cases hpresent
        show "OSError" ∈ stageErrors
        decide
      | ok present =>
        rw [hfile] at hpresent
        cases hpresent
    · cases h
  · simp only [hnote, if_false] at h
    cases h

theorem screen_error {item : ContextItem}
    (h : screen planner.files plan accessPolicy item = .error exn) : exn.kind ∈ stageErrors := by
  rcases bind_eq_error.mp h with hscan | ⟨scan, -, h⟩
  · exact scanText_error hscan
  · split_ifs at h
    · exact contextItem_error (map_eq_error.mp h)
    · unfold screenClean at h
      simp only at h
      split at h
      · cases h
      · exact contextItem_error (map_eq_error.mp h)

theorem orderedCandidates_error {screened : List ContextItem}
    (h : orderedCandidates intent screened = .error exn) : exn.kind ∈ stageErrors := by
  unfold orderedCandidates at h
  simp only at h
  split_ifs at h
  cases h
  decide

theorem retrievalPlan_error {arguments : PlanArguments} (h : retrievalPlan arguments = .error exn) :
    exn.kind ∈ stageErrors := by
  unfold retrievalPlan at h
  split at h
  · cases h
  · cases h
    decide

/-- Past the compilation of the scope, no error of the configuration is raised. -/
theorem retrieve_error (h : retrieve planner plan intent accessPolicy = .error exn) :
    compileSearchScope planner.vault (some plan.scope) none .current none (some accessPolicy) =
        .error exn ∨ exn.kind ∈ stageErrors := by
  rcases bind_eq_error.mp h with hcompile | ⟨resolved, -, h⟩
  · exact .inl hcompile
  right
  rcases bind_eq_error.mp h with hcollect | ⟨collection, -, h⟩
  · exact collect_error hcollect
  rcases bind_eq_error.mp h with hdedup | ⟨kept, -, h⟩
  · exact dedupedItems_error hdedup
  rcases bind_eq_error.mp h with hscreened | ⟨screened, -, h⟩
  · obtain ⟨item, -, hscreen⟩ := exists_of_mapM_error hscreened
    exact screen_error hscreen
  rcases bind_eq_error.mp h with hordered | ⟨candidates, -, h⟩
  · exact orderedCandidates_error hordered
  rcases bind_eq_error.mp h with hplan | ⟨executed, -, h⟩
  · exact retrievalPlan_error hplan
  · cases h

end

/-! ## What a plan asks for -/

section
variable [PythonText] [PythonUnicode] [PythonWord] {given : Option DomainPolicyRegistry}
  {config : DomainConfig} {today : Temporal.Date} {intent : QueryIntent}
  {callerHint : Option BudgetLayer} {accessPolicy : Option AccessPolicy}
  {policy : DomainPolicyRegistry} {retrieval : RetrievalPlan}

theorem retrievalPlan_ok {arguments : PlanArguments} (h : retrievalPlan arguments = .ok retrieval) :
    retrieval.toPlanArguments = arguments := by
  unfold retrievalPlan at h
  split at h
  · cases h
    rfl
  · cases h

/-- A plan follows the router, and asks for no more than the access policy grants. -/
structure Follows (policy : DomainPolicyRegistry) (intent : QueryIntent)
    (accessPolicy : Option AccessPolicy) (retrieval : RetrievalPlan) : Prop where
  routed : ∃ limit, route policy intent.query intent.intent.value intent.hints limit =
    .ok retrieval.domainMatches
  granted : privilegeMissing intent accessPolicy = false
  domainIds : retrieval.scope.domainIds = effectiveDomainIds intent.hints
    (retrieval.domainMatches.map fun entry => entry.domain)
  trustStates : retrieval.scope.trustStates = []
  projectIds : retrieval.scope.projectIds = []
  includeArchived : retrieval.scope.includeArchived = intent.includeArchived
  includeQuarantine : retrieval.scope.includeQuarantine = intent.includeQuarantine

theorem follows_of_plan (hpolicy : domainPolicy given config = .ok policy)
    (h : plan given config today intent callerHint accessPolicy = .ok retrieval) :
    Follows policy intent accessPolicy retrieval := by
  obtain ⟨profile, -, h⟩ := bind_eq_ok.mp h
  obtain ⟨budget, -, h⟩ := bind_eq_ok.mp h
  obtain ⟨loaded, hloaded, h⟩ := bind_eq_ok.mp h
  rw [hpolicy] at hloaded
  cases hloaded
  obtain ⟨found, hfound, h⟩ := bind_eq_ok.mp h
  obtain ⟨⟨⟩, hprojects, h⟩ := bind_eq_ok.mp h
  obtain ⟨⟨⟩, hgranted, h⟩ := bind_eq_ok.mp h
  rw [raiseIf_eq_ok, not_not] at hprojects
  rw [raiseIf_eq_ok, Bool.not_eq_true] at hgranted
  have harguments := retrievalPlan_ok h
  have hmatches : retrieval.domainMatches = found := congrArg PlanArguments.domainMatches harguments
  have hscope := congrArg PlanArguments.scope harguments
  rw [hprojects] at hscope
  refine ⟨⟨budget.maxDomains, by rw [hmatches]; exact hfound⟩, hgranted, ?_, ?_, ?_, ?_, ?_⟩
  · rw [hmatches]
    exact congrArg SearchScope.domainIds hscope
  · exact congrArg SearchScope.trustStates hscope
  · exact congrArg SearchScope.projectIds hscope
  · exact congrArg SearchScope.includeArchived hscope
  · exact congrArg SearchScope.includeQuarantine hscope

/-- The ids of the effective domains are known if those the query was routed to are, and the
hints are passed over, narrowed down or known themselves. -/
theorem effectiveDomainIds_known {Known : String → Prop} {hints matched : List String}
    (hmatched : ∀ id ∈ matched, Known id) :
    (∀ id ∈ effectiveDomainIds hints matched, Known id) ↔
      hints = [] ∨ (∃ id ∈ matched, id ∈ hints) ∨ ∀ hint ∈ hints, Known hint := by
  unfold effectiveDomainIds
  by_cases hhints : hints = []
  · simpa [hhints] using hmatched
  by_cases hnone : hints.filter (fun hint => decide (hint ∈ matched)) = []
  · have hdisjoint : ¬ ∃ id ∈ matched, id ∈ hints := by
      rintro ⟨id, hid, hhint⟩
      have hmem : id ∈ hints.filter (fun hint => decide (hint ∈ matched)) :=
        List.mem_filter.mpr ⟨hhint, decide_eq_true hid⟩
      rw [hnone] at hmem
      cases hmem
    simp only [hhints, hnone, hdisjoint, ne_eq, not_false_eq_true, if_true, ite_self, false_or]
  · obtain ⟨id, hid⟩ := List.exists_mem_of_ne_nil _ hnone
    obtain ⟨hhint, hmem⟩ := List.mem_filter.mp hid
    have hmem := of_decide_eq_true hmem
    have hmatched' : matched ≠ [] := List.ne_nil_of_mem hmem
    simp only [hhints, hmatched', hnone, ne_eq, not_false_eq_true, if_true, if_false]
    constructor
    · intro _
      exact .inr (.inl ⟨id, hmem, hhint⟩)
    · intro _ other hother
      exact hmatched other (of_decide_eq_true (List.mem_filter.mp hother).2)

/-! ## Compiling the scope of a plan -/

/-- A domain of the registry goes by the name. -/
def Registers (registry : DomainRegistry) (name : String) : Prop :=
  ∃ spec ∈ registry, PythonText.casefold spec.name = PythonText.casefold name

theorem get_ne_none {registry : DomainRegistry} {name : String} :
    registry.get name ≠ none ↔ Registers registry name := by
  unfold DomainRegistry.get Registers
  rw [ne_eq, List.find?_eq_none]
  simp only [decide_eq_true_eq, not_forall, not_not, exists_prop]

theorem domainPrefix_ok {registry : DomainRegistry} {name : String} :
    (∃ path, domainPrefix registry name = .ok path) ↔ Registers registry name := by
  rw [← get_ne_none, domainPrefix]
  cases registry.get name with
  | none => simp
  | some spec => simp

/-- A flag of the scope is granted where the planner checked both accesses. -/
theorem granted_of_follows {access : AccessPolicy}
    (h : Follows policy intent (some access) retrieval)
    (hflag : intent.includeArchived = true ∨ intent.includeQuarantine = true) :
    access.rawAccess = .privileged ∧ access.quarantineAccess = .privileged := by
  have hgranted := h.granted
  unfold privilegeMissing at hgranted
  have hflags : (intent.includeArchived || intent.includeQuarantine) = true := by
    rw [Bool.or_eq_true]
    exact hflag
  rw [hflags, Bool.true_and] at hgranted
  simpa using hgranted

/-- The scope of a plan passes the checks of the compiler. -/
theorem checkScope_of_follows {access : AccessPolicy}
    (h : Follows policy intent (some access) retrieval) :
    checkScope (some access) (some retrieval.scope) = .ok () := by
  have harchived : (retrieval.scope.includeArchived &&
      denied (some access) AccessPolicy.rawAccess) = false := by
    rw [h.includeArchived]
    by_cases hflag : intent.includeArchived = true
    · have hgranted := granted_of_follows h (.inl hflag)
      simp [denied, hgranted.1, access.approved (.inl hgranted.1)]
    · simp [hflag]
  have hquarantine : (retrieval.scope.includeQuarantine &&
      denied (some access) AccessPolicy.quarantineAccess) = false := by
    rw [h.includeQuarantine]
    by_cases hflag : intent.includeQuarantine = true
    · have hgranted := granted_of_follows h (.inr hflag)
      simp [denied, hgranted.2, access.approved (.inl hgranted.1)]
    · simp [hflag]
  simp only [checkScope, harchived, hquarantine, h.trustStates, h.projectIds]
  rfl

/-- A planner whose vault has the configuration. -/
def Planner.reading (planner : Planner) (config : DomainConfig) : Planner :=
  { planner with vault := { planner.vault with
      registry := (loadDomainRegistry config).map (List.map RegisteredDomain.toDomainSpec) } }

/-- The scope of a plan compiles if its domains are registered. -/
theorem compileSearchScope_of_registers {vault : Vault} {access : AccessPolicy}
    {registry : DomainRegistry} (h : Follows policy intent (some access) retrieval)
    (hregistry : vault.registry = .ok registry)
    (hknown : ∀ id ∈ retrieval.scope.domainIds, Registers registry id) :
    ∃ resolved, compileSearchScope vault (some retrieval.scope) none .current none (some access) =
      .ok resolved := by
  have hprefixes : ∃ prefixes,
      (domainNames (some retrieval.scope) none).mapM (domainPrefix registry) = .ok prefixes := by
    cases hmapM : (domainNames (some retrieval.scope) none).mapM (domainPrefix registry) with
    | ok prefixes => exact ⟨prefixes, rfl⟩
    | error exn =>
      obtain ⟨id, hid, herror⟩ := exists_of_mapM_error hmapM
      obtain ⟨path, hpath⟩ := domainPrefix_ok.mpr (hknown id hid)
      rw [hpath] at herror
      cases herror
  obtain ⟨prefixes, hprefixes⟩ := hprefixes
  exact ⟨_, compileSearchScope_ok.mpr ⟨checkScope_of_follows h, registry, prefixes, hregistry,
    hprefixes, rfl⟩⟩

end

/-! ## Plans that can be executed -/

section
variable [PythonText] [PythonUnicode] [PythonYaml] [PythonWord] [PythonMath] {planner : Planner}
  {config : DomainConfig} {today : Temporal.Date} {intent : QueryIntent}
  {callerHint : Option BudgetLayer} {accessPolicy : AccessPolicy}
  {policy : DomainPolicyRegistry} {retrieval : RetrievalPlan}

/-- Retrieving by the plan raises no error of the configuration or of the scope, and the domains
of its scope are known. -/
structure Executable (planner : Planner) (retrieval : RetrievalPlan) (intent : QueryIntent)
    (accessPolicy : AccessPolicy) : Prop where
  runs : ∀ exn, retrieve planner retrieval intent accessPolicy = .error exn →
    exn.kind ∉ configurationErrors
  known : ∃ registry, planner.vault.registry = .ok registry ∧
    ∀ id ∈ retrieval.scope.domainIds, Registers registry id

/-- The query has no hints, one of them is a domain the query was routed to, or every one of them
names a domain of the policy. -/
def HintsServed (policy : DomainPolicyRegistry) (intent : QueryIntent)
    (retrieval : RetrievalPlan) : Prop :=
  intent.hints = [] ∨ (∃ entry ∈ retrieval.domainMatches, entry.domain ∈ intent.hints) ∨
    ∀ hint ∈ intent.hints, ∃ domain ∈ policy.domains,
      PythonText.casefold domain.name = PythonText.casefold hint

theorem disjoint_errors {kind : String} (h : kind ∈ stageErrors) : kind ∉ configurationErrors := by
  revert kind
  decide

/-- The registry of the adapted policy knows the names of its domains. -/
theorem registers_iff {registry : List RegisteredDomain} {name : String}
    (h : policy.domains.map (fun domain => domain.name) = registry.map fun domain => domain.name) :
    Registers (registry.map RegisteredDomain.toDomainSpec) name ↔
      ∃ domain ∈ policy.domains, PythonText.casefold domain.name = PythonText.casefold name := by
  have hnames : (∃ domain ∈ policy.domains,
      PythonText.casefold domain.name = PythonText.casefold name) ↔
      ∃ known ∈ policy.domains.map (fun domain => domain.name),
        PythonText.casefold known = PythonText.casefold name := by
    simp only [List.mem_map, exists_exists_and_eq_and]
  rw [hnames, h, Registers]
  simp only [List.mem_map, exists_exists_and_eq_and]

/-- A plan can be executed exactly when the configuration is not of the second version and the
hints of the query do not lead to an unknown domain. -/
theorem executable_iff (hpolicy : loadDomainPolicy config = .ok policy)
    (hplan : plan none config today intent callerHint (some accessPolicy) = .ok retrieval) :
    Executable (planner.reading config) retrieval intent accessPolicy ↔
      config.version ≠ some 2 ∧ HintsServed policy intent retrieval := by
  have hgiven : domainPolicy none config = .ok policy := hpolicy
  have hfollows := follows_of_plan hgiven hplan
  rcases loadDomainPolicy_cases hpolicy with ⟨hversion, hnone⟩ | ⟨hversion, registry, hregistry, hnames⟩
  · constructor
    · intro h
      obtain ⟨registry, hregistry, -⟩ := h.known
      obtain ⟨loaded, hloaded, -⟩ := map_eq_ok.mp hregistry
      exact absurd hloaded (hnone loaded)
    · intro h
      exact absurd hversion h.1
  · have hvault : (planner.reading config).vault.registry =
        .ok (registry.map RegisteredDomain.toDomainSpec) := by
      show (loadDomainRegistry config).map _ = _
      rw [hregistry]
      rfl
    have hmatched : ∀ id ∈ retrieval.domainMatches.map (fun entry => entry.domain),
        Registers (registry.map RegisteredDomain.toDomainSpec) id := by
      intro id hid
      obtain ⟨entry, hentry, rfl⟩ := List.mem_map.mp hid
      obtain ⟨limit, hroute⟩ := hfollows.routed
      obtain ⟨domain, hdomain, hname⟩ := mem_domains_of_route hroute hentry
      exact (registers_iff hnames).mpr ⟨domain, hdomain, by rw [hname]⟩
    have hserved : (∀ id ∈ retrieval.scope.domainIds,
        Registers (registry.map RegisteredDomain.toDomainSpec) id) ↔
        HintsServed policy intent retrieval := by
      rw [hfollows.domainIds, effectiveDomainIds_known hmatched, HintsServed]
      simp only [registers_iff hnames, List.mem_map, exists_exists_and_eq_and]
    rw [← hserved, and_iff_right hversion]
    constructor
    · intro h
      obtain ⟨loaded, hloaded, hknown⟩ := h.known
      rw [hvault] at hloaded
      cases hloaded
      exact hknown
    · intro hknown
      refine ⟨fun exn hexn => ?_, _, hvault, hknown⟩
      obtain ⟨resolved, hresolved⟩ := compileSearchScope_of_registers hfollows hvault hknown
      rcases retrieve_error hexn with hcompile | hkind
      · rw [hresolved] at hcompile
        cases hcompile
      · exact disjoint_errors hkind

end

/-! ## A policy of the second version -/

/-- The tables of the Unicode standard on ASCII texts. -/
abbrev PythonUnicode.asciiOnly : PythonUnicode := ⟨fun text => text, fun _ => false⟩

attribute [local instance] PythonText.ascii PythonUnicode.asciiOnly PythonWord.asciiOnly
  PythonYaml.quarantineTag PythonMath.identity

/-- A vault without a configuration file. -/
def plainConfig : DomainConfig := ⟨.ok false, none, fun _ => none⟩

def texts (items : List String) : Value := .list (items.map .str)

/-- A domain of a policy of the second version. -/
def deployDomain : Value := .dict [
  ("authority", .dict [("prefer", texts ["canonical"])]),
  ("index", .dict [("dense", .str "deferred"), ("priority", .str "WARM")]),
  ("name", .str "deploys"),
  ("noise", .dict [("suppress", texts ["duplicate"]), ("unsafe_action", .str "quarantine")]),
  ("query_signals", .dict [("keywords", texts ["deploy"])]),
  ("retrieval", .dict [("budget_class", .str "FAST"), ("max_candidates", .int 10),
    ("rerank_top_k", .int 0), ("stages", texts ["fts"])]),
  ("selectors", .dict [("paths", texts ["deploys/**"])]),
  ("traversal", texts ["metadata"])]

/-- A vault with a policy of the second version. -/
def v2Config : DomainConfig where
  explicit := .ok false
  yaml := some (.ok (.dict [
    ("domains", .list [deployDomain]),
    ("normalization_revision", .str "v1"),
    ("policy_revision", .str "v1"),
    ("routing", .dict [("low_confidence_score", .int 0), ("max_matches", .int 4),
      ("minimum_score", .int 0),
      ("score_weights", .dict [("hint", .int 20), ("intent", .int 30), ("keyword", .int 50)]),
      ("tie_policy", .str "policy_order_then_domain_id")]),
    ("version", .int 2)]))
  refusal _ := none

/-- Without a configuration a query without hints is executed. -/
theorem executable_plain : ∃ policy retrieval, loadDomainPolicy plainConfig = .ok policy ∧
    plan none plainConfig 0 (lookupIntent "deploy") none (some rawCaller) = .ok retrieval ∧
    Executable (plainPlanner.reading plainConfig) retrieval (lookupIntent "deploy") rawCaller := by
  obtain ⟨policy, hpolicy⟩ := exists_of_isOk
    (show (loadDomainPolicy plainConfig).isOk = true by decide +kernel)
  obtain ⟨retrieval, hplan⟩ := exists_of_isOk (show (plan none plainConfig 0
    (lookupIntent "deploy") none (some rawCaller)).isOk = true by decide +kernel)
  exact ⟨policy, retrieval, hpolicy, hplan,
    (executable_iff hpolicy hplan).mpr ⟨by decide, .inl rfl⟩⟩

/-- With a policy of the second version no plan is executed. -/
theorem executable_v2 : ∃ policy retrieval, loadDomainPolicy v2Config = .ok policy ∧
    plan none v2Config 0 (lookupIntent "deploy") none (some rawCaller) = .ok retrieval ∧
    ¬ Executable (plainPlanner.reading v2Config) retrieval (lookupIntent "deploy") rawCaller := by
  obtain ⟨policy, hpolicy⟩ := exists_of_isOk
    (show (loadDomainPolicy v2Config).isOk = true by decide +kernel)
  obtain ⟨retrieval, hplan⟩ := exists_of_isOk (show (plan none v2Config 0
    (lookupIntent "deploy") none (some rawCaller)).isOk = true by decide +kernel)
  refine ⟨policy, retrieval, hpolicy, hplan, fun h => ?_⟩
  obtain ⟨registry, hregistry, -⟩ := h.known
  have herror : (plainPlanner.reading v2Config).vault.registry.isOk = false := by decide +kernel
  rw [hregistry] at herror
  cases herror

end PowerFramework.Retrieval
