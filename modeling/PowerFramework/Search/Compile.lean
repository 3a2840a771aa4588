import PowerFramework.Lib.Failure
import PowerFramework.Search.Scope
/-!
# Compiling a scope

From the scope of a request, its domain, its temporal arguments and the access policy of the
caller to the resolved scope.
-/

namespace PowerFramework.Search

open Lib Lib.Failure Lib.Json Temporal

/-! ## Requests -/

structure TemporalBoundary where
  asOf : Date
  includeHistorical : Bool
  deriving DecidableEq, Repr

/-- `SearchScope`; the compiler allows for a scope without a temporal boundary. -/
structure SearchScope where
  domainIds : List String
  pathPrefixes : List String
  sourceTypes : List String
  trustStates : List String
  temporalBoundary : Option TemporalBoundary
  projectIds : List String
  includeArchived : Bool
  includeQuarantine : Bool
  deriving DecidableEq, Repr

/-- `Literal["none", "privileged"]` -/
inductive Access where
  | none | privileged
  deriving DecidableEq, Repr

/-- `AccessPolicy`; privileged access needs an approval. -/
structure AccessPolicy where
  rawAccess : Access
  quarantineAccess : Access
  approvalRef : Option String
  approved : rawAccess = .privileged ∨ quarantineAccess = .privileged → approvalRef ≠ Option.none
  deriving DecidableEq

/-- `DomainSpec`; its path is in POSIX form. -/
structure DomainSpec where
  name : String
  path : String
  deriving DecidableEq, Repr

abbrev DomainRegistry := List DomainSpec

/-- `DomainRegistry.get` -/
def DomainRegistry.get [PythonText] (self : DomainRegistry) (name : String) : Option DomainSpec :=
  List.find? (fun domain => PythonText.casefold domain.name = PythonText.casefold name) self

/-! ## The vault -/

/-- What compiling a scope reads: the domain registry, the temporal records and the date of
today, with the order in which a run enumerates the records. -/
structure Vault where
  registry : Except Exn DomainRegistry
  records : Table TemporalRecord
  order : ∀ boundary, Enumeration records boundary
  today : Date

/-- `status.value == view.value` -/
def TemporalStatus.isView : TemporalStatus → TemporalView → Bool
  | .current, .current => true
  | .historical, .historical => true
  | _, _ => false

/-- `includes_temporal_status` -/
def includesTemporalStatus (status : TemporalStatus) (view : TemporalView) : Bool :=
  view = .all || TemporalStatus.isView status view

/-- `resolve_temporal_statuses(records, as_of)` -/
def Vault.statuses (vault : Vault) (asOf : Date) : Table TemporalStatus :=
  resolveTemporalStatuses (vault.order asOf)

/-- `text.strip("/")` -/
def stripSlashes (text : String) : String :=
  String.ofList ((text.toList.dropWhile (· = '/')).rdropWhile (· = '/'))

/-! ## Errors -/

def unsupportedDimension (dimension : String) : Exn := ⟨"UnsupportedSearchScopeError",
  dimension ++ " dimension is not supported in SQLite index schema (must fail closed)"⟩

def accessDenied (flag access : String) : Exn := ⟨"SearchScopeAccessDeniedError",
  flag ++ "=True requires server-issued AccessPolicy with privileged " ++ access ++
    " and approval_ref"⟩

def unknownDomain (name : String) : Exn := ⟨"UnknownDomainError", "unknown domain: " ++ name⟩

/-! ## `compile_search_scope` -/

/-- The privileged flag of a scope is not granted. -/
def denied (accessPolicy : Option AccessPolicy) (access : AccessPolicy → Access) : Bool :=
  accessPolicy.all fun policy => access policy ≠ .privileged || policy.approvalRef = none

/-- The checks on the scope of the request. -/
def checkScope (accessPolicy : Option AccessPolicy) : Option SearchScope → Except Exn Unit
  | none => .ok ()
  | some scope => do
      raiseIf (scope.trustStates ≠ []) (unsupportedDimension "trust_states")
      raiseIf (scope.projectIds ≠ []) (unsupportedDimension "project_ids")
      raiseIf (scope.includeArchived && denied accessPolicy AccessPolicy.rawAccess)
        (accessDenied "include_archived" "raw_access")
      raiseIf (scope.includeQuarantine && denied accessPolicy AccessPolicy.quarantineAccess)
        (accessDenied "include_quarantine" "quarantine_access")

/-- `domain_names` -/
def domainNames (scope : Option SearchScope) (domain : Option String) : List String :=
  let names := (scope.map SearchScope.domainIds).getD []
  match domain with
  | some domain => if domain ≠ "" ∧ domain ∉ names then names ++ [domain] else names
  | none => names

/-- The prefix of a domain. -/
def domainPrefix [PythonText] (registry : DomainRegistry) (name : String) : Except Exn String :=
  match registry.get name with
  | none => .error (unknownDomain name)
  | some spec => .ok (stripSlashes spec.path)

/-- The date and the view the temporal exclusions are resolved for. -/
def resolvedBoundary (scope : Option SearchScope) (temporalView : TemporalView)
    (asOf : Date) : TemporalView × Date :=
  match scope.bind SearchScope.temporalBoundary with
  | none => (temporalView, asOf)
  | some boundary =>
      (if boundary.includeHistorical then temporalView else .current, boundary.asOf)

/-- `excluded_temporal_paths` -/
def excludedPaths (vault : Vault) (temporalView : TemporalView) (asOf : Date) : List String :=
  if temporalView ≠ .all then
    ((vault.statuses asOf).toList.filter fun entry =>
      !includesTemporalStatus entry.2 temporalView).map Prod.fst
  else []

/-- `explicit_prefixes`, each one once. -/
def explicitPrefixes (scope : Option SearchScope) : List String :=
  ((((scope.map SearchScope.pathPrefixes).getD []).map cleanPath).filter (· ≠ "")).eraseDups

/-- The scope of a request whose domains have the prefixes. -/
def resolvedScope (vault : Vault) (scope : Option SearchScope) (domain : Option String)
    (temporalView : TemporalView) (asOf : Option Date) (domainPrefixes : List String) :
    ResolvedSearchScope :=
  let explicit := explicitPrefixes scope
  let domains := domainPrefixes.eraseDups
  let boundary := resolvedBoundary scope temporalView (asOf.getD vault.today)
  { domainIds := domainNames scope domain
    pathPrefixes := (explicit ++ domains).eraseDups
    explicitPathPrefixes := explicit
    domainPathPrefixes := domains
    sourceTypes := (scope.map SearchScope.sourceTypes).getD []
    temporalView := boundary.1
    asOf := boundary.2
    includeArchived :=
      match scope with
      | some scope => scope.includeArchived
      | none => domain.isNone
    includeQuarantine := (scope.map SearchScope.includeQuarantine).getD false
    excludedTemporalPaths := excludedPaths vault boundary.1 boundary.2 }

/-- `compile_search_scope` -/
def compileSearchScope [PythonText] (vault : Vault) (scope : Option SearchScope)
    (domain : Option String) (temporalView : TemporalView) (asOf : Option Date)
    (accessPolicy : Option AccessPolicy) : Except Exn ResolvedSearchScope := do
  checkScope accessPolicy scope
  let registry ← vault.registry
  let domainPrefixes ← (domainNames scope domain).mapM (domainPrefix registry)
  return resolvedScope vault scope domain temporalView asOf domainPrefixes

/-! ## What compiles -/

section
variable [PythonText] {vault : Vault} {scope : Option SearchScope} {domain : Option String}
  {temporalView : TemporalView} {asOf : Option Date} {accessPolicy : Option AccessPolicy}
  {resolved : ResolvedSearchScope}

/-- The checks of the scope and the resolution of its domains decide whether it compiles. -/
theorem compileSearchScope_ok :
    compileSearchScope vault scope domain temporalView asOf accessPolicy = .ok resolved ↔
      checkScope accessPolicy scope = .ok () ∧
      ∃ registry prefixes, vault.registry = .ok registry ∧
        (domainNames scope domain).mapM (domainPrefix registry) = .ok prefixes ∧
        resolved = resolvedScope vault scope domain temporalView asOf prefixes := by
  unfold compileSearchScope
  constructor
  · intro h
    obtain ⟨⟨⟩, hcheck, h⟩ := bind_eq_ok.mp h
    obtain ⟨registry, hregistry, h⟩ := bind_eq_ok.mp h
    obtain ⟨prefixes, hprefixes, h⟩ := bind_eq_ok.mp h
    cases h
    exact ⟨hcheck, registry, prefixes, hregistry, hprefixes, rfl⟩
  · rintro ⟨hcheck, registry, prefixes, hregistry, hprefixes, rfl⟩
    exact bind_eq_ok.mpr ⟨⟨⟩, hcheck, bind_eq_ok.mpr ⟨registry, hregistry,
      bind_eq_ok.mpr ⟨prefixes, hprefixes, rfl⟩⟩⟩

end

end PowerFramework.Search
