import PowerFramework.Search.Containment
/-!
# The temporal boundary of a request

The date and the view a request is answered for: once while its scope is compiled, and once when
its ranked notes are filtered.
-/

set_option linter.unusedSectionVars false

namespace PowerFramework.Search

open Lib Lib.Failure Lib.Sql Lib.Json Temporal

/-! ## Two forms of a request -/

/-- The request with the boundary in its scope. -/
def Request.bounded (request : Request) (scope : SearchScope) (boundary : TemporalBoundary) :
    Request :=
  { request with scope := some { scope with temporalBoundary := some boundary } }

/-- The request with the equivalent arguments and no boundary in its scope. -/
def Request.unbounded (request : Request) (scope : SearchScope) (boundary : TemporalBoundary) :
    Request :=
  { request with
    scope := some { scope with temporalBoundary := none }
    temporalView := if boundary.includeHistorical then .all else .current
    asOf := some boundary.asOf }

def Request.asking (request : Request) (query : String) (maxResults : Nat) : Request :=
  { request with query := query, maxResults := maxResults }

section
variable [PythonText] {vault : Vault} {request : Request} {scope : SearchScope}
  {boundary : TemporalBoundary}

/-- The compiled scope and the final filter both let the note at the path through. -/
def Passes (vault : Vault) (request : Request) (resolved : ResolvedSearchScope) (path : String) :
    Prop :=
  path ∉ resolved.excludedTemporalPaths ∧
    includesTemporalStatus (statusOf vault (request.asOf.getD vault.today) path)
      request.temporalView = true

/-- A boundary in the scope means the equivalent arguments, for every query; its exclusions and
the final filter are decided for one date and one view, which lets the notes that were current then
pass, or the historical ones. -/
structure OneBoundary (vault : Vault) (request : Request) (scope : SearchScope)
    (boundary : TemporalBoundary) : Prop where
  sameNotes : ∀ (engine : Engine) query maxResults,
    engine.searchVault vault ((request.asking query maxResults).bounded scope boundary) =
      engine.searchVault vault ((request.asking query maxResults).unbounded scope boundary)
  sameDecision : ∀ resolved, (request.bounded scope boundary).resolve vault = .ok resolved →
    resolved.temporalView = request.temporalView ∧
      resolved.asOf = request.asOf.getD vault.today
  currentThen : boundary.includeHistorical = false → ∀ resolved,
    (request.bounded scope boundary).resolve vault = .ok resolved →
    ∀ path, (vault.statuses boundary.asOf)[path]? = some .current →
      Passes vault (request.bounded scope boundary) resolved path
  historical : boundary.includeHistorical = true → ∀ resolved,
    (request.bounded scope boundary).resolve vault = .ok resolved →
    ∀ path, (vault.statuses boundary.asOf)[path]? = some .historical →
      Passes vault (request.bounded scope boundary) resolved path

/-- The arguments beside the scope name the date of the boundary, and the view of the boundary or
one that shows every note there is at that date. -/
structure Aligned (vault : Vault) (request : Request) (boundary : TemporalBoundary) : Prop where
  date : request.asOf.getD vault.today = boundary.asOf
  current : boundary.includeHistorical = false → request.temporalView = .current
  all : boundary.includeHistorical = true → ∀ path,
    includesTemporalStatus (statusOf vault boundary.asOf path) request.temporalView = true

/-! ## What compiling depends on -/

/-- The checks on a request and the prefixes of its domains. -/
def domainPrefixes (vault : Vault) (scope : SearchScope) (domain : Option String)
    (accessPolicy : Option AccessPolicy) : Except Exn (List String) := do
  checkScope accessPolicy (some scope)
  let registry ← vault.registry
  (domainNames (some scope) domain).mapM (domainPrefix registry)

theorem compile_with (limit : Option TemporalBoundary) {domain : Option String}
    {view : TemporalView} {asOf : Option Date} {accessPolicy : Option AccessPolicy} :
    compileSearchScope vault (some { scope with temporalBoundary := limit }) domain view asOf
      accessPolicy = (domainPrefixes vault scope domain accessPolicy).map
        (resolvedScope vault (some { scope with temporalBoundary := limit }) domain view asOf) := by
  unfold compileSearchScope domainPrefixes
  change (checkScope accessPolicy (some scope) >>= _) = _
  cases checkScope accessPolicy (some scope) with
  | error e => rfl
  | ok _ =>
      change (vault.registry >>= _) = (vault.registry >>= _ : Except Exn _).map _
      cases vault.registry with
      | error e => rfl
      | ok registry =>
          change ((domainNames (some scope) domain).mapM (domainPrefix registry) >>= _) =
            ((domainNames (some scope) domain).mapM (domainPrefix registry)).map _
          cases (domainNames (some scope) domain).mapM (domainPrefix registry) <;> rfl

theorem resolve_bounded : (request.bounded scope boundary).resolve vault =
    (domainPrefixes vault scope request.domain request.accessPolicy).map
      (resolvedScope vault (some { scope with temporalBoundary := some boundary }) request.domain
        request.temporalView request.asOf) := compile_with _

theorem resolve_unbounded : (request.unbounded scope boundary).resolve vault =
    (domainPrefixes vault scope request.domain request.accessPolicy).map
      (resolvedScope vault (some { scope with temporalBoundary := none }) request.domain
        (if boundary.includeHistorical then .all else .current) (some boundary.asOf)) :=
  compile_with _

theorem mem_excludedPaths {view : TemporalView} {asOf : Date} {path : String} :
    path ∈ excludedPaths vault view asOf ↔
      view ≠ .all ∧ ∃ status, (vault.statuses asOf)[path]? = some status ∧
        includesTemporalStatus status view = false := by
  unfold excludedPaths
  split_ifs with hall
  · simp only [List.mem_map, List.mem_filter, Bool.not_eq_true', Prod.exists, exists_and_right,
      exists_eq_right, Std.ExtTreeMap.mem_toList_iff_getElem?_eq_some, hall, ne_eq,
      not_false_eq_true, true_and]
  · simp [hall]

/-- Nothing is excluded where every status is in the view. -/
theorem excludedPaths_eq_nil {view : TemporalView} {asOf : Date}
    (h : ∀ path, includesTemporalStatus (statusOf vault asOf path) view = true) :
    excludedPaths vault view asOf = [] := by
  rw [List.eq_nil_iff_forall_not_mem]
  intro path hpath
  obtain ⟨-, status, hstatus, hexcluded⟩ := mem_excludedPaths.mp hpath
  have hincluded := h path
  rw [statusOf, hstatus, Option.getD_some, hexcluded] at hincluded
  cases hincluded

/-! ## Labels -/

/-- The searches read the restrictions of a scope, not the view and the date it was compiled
for. -/
theorem answer_relabelled {engine : Engine} {domainPath : Option String} {mode : SearchMode}
    {resolved : ResolvedSearchScope} (view : TemporalView) :
    engine.answer vault request domainPath mode { resolved with temporalView := view } =
      engine.answer vault request domainPath mode resolved := rfl

/-- The final filter lets the same notes through where it shows every status. -/
theorem filterTemporalResults_all {view : TemporalView} {asOf : Date} {maxResults : Nat}
    {results : List SearchResult}
    (h : ∀ path, includesTemporalStatus (statusOf vault asOf path) view = true) :
    filterTemporalResults vault view asOf maxResults results =
      filterTemporalResults vault .all asOf maxResults results := by
  unfold filterTemporalResults
  congr 1
  apply List.filter_congr
  intro result _
  rw [h]
  rfl

/-- Answers depend on the temporal arguments through the final filter only. -/
theorem answer_congr {engine : Engine} {other : Request} {domainPath : Option String}
    {mode : SearchMode} {resolved : ResolvedSearchScope} (hquery : request.query = other.query)
    (hmax : request.maxResults = other.maxResults)
    (hfilter : ∀ results, filterTemporalResults vault request.temporalView
      (request.asOf.getD vault.today) request.maxResults results =
        filterTemporalResults vault other.temporalView (other.asOf.getD vault.today)
          other.maxResults results) :
    engine.answer vault request domainPath mode resolved =
      engine.answer vault other domainPath mode resolved := by
  unfold Engine.answer
  rw [hquery, hmax]
  rw [hmax] at hfilter
  simp only [hfilter]

/-! ## Aligned arguments -/

theorem sameNotes_of_aligned (h : ∀ resolved,
      (request.bounded scope boundary).resolve vault = .ok resolved →
        Aligned vault request boundary)
    (engine : Engine) (query : String) (maxResults : Nat) :
    engine.searchVault vault ((request.asking query maxResults).bounded scope boundary) =
      engine.searchVault vault ((request.asking query maxResults).unbounded scope boundary) := by
  unfold Engine.searchVault
  change (engine.policy query request.mode request.domain >>= _) =
    (engine.policy query request.mode request.domain >>= _)
  congr 1
  funext policy
  rw [resolve_bounded, resolve_unbounded]
  change ((domainPrefixes vault scope request.domain request.accessPolicy).map _ >>= _) =
    ((domainPrefixes vault scope request.domain request.accessPolicy).map _ >>= _)
  cases hprefixes : domainPrefixes vault scope request.domain request.accessPolicy with
  | error e => rfl
  | ok prefixes =>
      have h := h _ (by rw [resolve_bounded, hprefixes]; rfl)
      change (engine.runtimeMode policy.1 >>= _) = (engine.runtimeMode policy.1 >>= _)
      congr 1
      funext mode
      cases hhistorical : boundary.includeHistorical with
      | false =>
          have hscope : resolvedScope vault
              (some { scope with temporalBoundary := some boundary }) request.domain
              request.temporalView request.asOf prefixes =
              resolvedScope vault (some { scope with temporalBoundary := none }) request.domain
                .current (some boundary.asOf) prefixes := by
            simp [resolvedScope, resolvedBoundary, hhistorical, explicitPrefixes, domainNames]
          refine (congrArg (engine.answer vault
            ((request.asking query maxResults).bounded scope boundary) policy.2 mode)
            hscope).trans (answer_congr rfl rfl ?_)
          intro results
          change filterTemporalResults vault request.temporalView
            (request.asOf.getD vault.today) maxResults results =
              filterTemporalResults vault (if boundary.includeHistorical then .all else .current)
                boundary.asOf maxResults results
          rw [h.date, h.current hhistorical, hhistorical]
          rfl
      | true =>
          have hscope : resolvedScope vault
              (some { scope with temporalBoundary := some boundary }) request.domain
              request.temporalView request.asOf prefixes =
              { resolvedScope vault (some { scope with temporalBoundary := none }) request.domain
                .all (some boundary.asOf) prefixes with temporalView := request.temporalView } := by
            have hnone : excludedPaths vault request.temporalView boundary.asOf =
                excludedPaths vault .all boundary.asOf :=
              excludedPaths_eq_nil (h.all hhistorical)
            simp [resolvedScope, resolvedBoundary, hhistorical, explicitPrefixes, domainNames,
              hnone]
          refine (congrArg (engine.answer vault
            ((request.asking query maxResults).bounded scope boundary) policy.2 mode)
            hscope).trans ((answer_relabelled _).trans (answer_congr rfl rfl ?_))
          intro results
          change filterTemporalResults vault request.temporalView
            (request.asOf.getD vault.today) maxResults results =
              filterTemporalResults vault (if boundary.includeHistorical then .all else .current)
                boundary.asOf maxResults results
          rw [h.date, hhistorical]
          exact filterTemporalResults_all (h.all hhistorical)

theorem resolved_bounded {resolved : ResolvedSearchScope}
    (h : (request.bounded scope boundary).resolve vault = .ok resolved) :
    resolved.temporalView = (if boundary.includeHistorical then request.temporalView else .current) ∧
      resolved.asOf = boundary.asOf ∧ resolved.excludedTemporalPaths = excludedPaths vault
        (if boundary.includeHistorical then request.temporalView else .current) boundary.asOf := by
  rw [resolve_bounded] at h
  obtain ⟨prefixes, -, rfl⟩ := map_eq_ok.mp h
  exact ⟨rfl, rfl, rfl⟩

theorem currentThen_of_aligned (h : Aligned vault request boundary)
    (hcurrent : boundary.includeHistorical = false) {resolved : ResolvedSearchScope}
    (hresolved : (request.bounded scope boundary).resolve vault = .ok resolved) {path : String}
    (hpath : (vault.statuses boundary.asOf)[path]? = some .current) :
    Passes vault (request.bounded scope boundary) resolved path := by
  obtain ⟨-, -, hexcluded⟩ := resolved_bounded hresolved
  constructor
  · rw [hexcluded, hcurrent]
    intro hmem
    obtain ⟨-, status, hstatus, hout⟩ := mem_excludedPaths.mp hmem
    rw [hpath] at hstatus
    cases hstatus
    cases hout
  · change includesTemporalStatus (statusOf vault (request.asOf.getD vault.today) path)
      request.temporalView = true
    rw [h.date, h.current hcurrent, statusOf, hpath]
    rfl

theorem historical_of_aligned (h : Aligned vault request boundary)
    (hhistorical : boundary.includeHistorical = true) {resolved : ResolvedSearchScope}
    (hresolved : (request.bounded scope boundary).resolve vault = .ok resolved) (path : String) :
    Passes vault (request.bounded scope boundary) resolved path := by
  obtain ⟨-, -, hexcluded⟩ := resolved_bounded hresolved
  constructor
  · rw [hexcluded, hhistorical, if_pos rfl, excludedPaths_eq_nil (h.all hhistorical)]
    exact List.not_mem_nil
  · change includesTemporalStatus (statusOf vault (request.asOf.getD vault.today) path)
      request.temporalView = true
    rw [h.date]
    exact h.all hhistorical path

/-! ## A search that finds one file -/

/-- A vault with one file, which every search finds. -/
def fileEngine (path : String) : Engine :=
  { quoteEngine with
    files := [{ archivedFile with relPath := path }]
    ftsQuery := fun _ => .ok "term*" }

def fileHit (path : String) : SearchResult := ⟨path, "Old", "Archive", 1, 1⟩

theorem searchVault_fileEngine {path : String} {resolved : ResolvedSearchScope}
    (hmax : request.maxResults = 1) (hresolved : request.resolve vault = .ok resolved) :
    (fileEngine path).searchVault vault request = .ok (filterTemporalResults vault
      request.temporalView (request.asOf.getD vault.today) 1 [fileHit path]) := by
  have hscan : (fileEngine path).ftsSearch request.query 1 resolved = .ok [fileHit path] := by
    simp [Engine.ftsSearch, fileEngine, quoteEngine, Engine.ftsIndexSearch, Engine.ftsFallback,
      Engine.scanAndSearch, Engine.scanFile, Engine.mayRead, archivedFile, fileHit, bind,
      Except.bind]
  have hranked : (fileEngine path).rankedSearch .fts [request.query] 1 resolved =
      .ok [fileHit path] := by
    change ([request.query].mapM ((fileEngine path).variantSearch .fts 1 resolved) >>= _) = _
    rw [List.mapM_cons]
    change (((fileEngine path).ftsSearch request.query 1 resolved >>= _) >>= _) = _
    rw [hscan]
    simp [bind, Except.bind, pure, Except.pure, bestByPath, best, fileHit, List.eraseDups_cons]
  unfold Engine.searchVault
  change (request.resolve vault >>= _) = _
  rw [hresolved]
  change (fileEngine path).answer vault request none .fts resolved = _
  change ((fileEngine path).rankedSearch .fts [request.query] request.maxResults resolved >>= _) = _
  rw [hmax, hranked]
  rfl

theorem aligned_of_oneBoundary (h : OneBoundary vault request scope boundary)
    {resolved : ResolvedSearchScope}
    (hresolved : (request.bounded scope boundary).resolve vault = .ok resolved) :
    Aligned vault request boundary := by
  obtain ⟨hview, hdate, -⟩ := resolved_bounded hresolved
  obtain ⟨hview', hdate'⟩ := h.sameDecision resolved hresolved
  have hsame : request.asOf.getD vault.today = boundary.asOf := hdate'.symm.trans hdate
  refine ⟨hsame, ?_, ?_⟩
  · intro hcurrent
    rw [hcurrent] at hview
    exact hview'.symm.trans hview
  · intro hhistorical path
    -- A search that finds the one file shows it with the view of all statuses.
    have hnotes := h.sameNotes (fileEngine path) "" 1
    have hbounded : ((request.asking "" 1).bounded scope boundary).resolve vault = .ok resolved :=
      hresolved
    have hunbounded : ∃ other,
        ((request.asking "" 1).unbounded scope boundary).resolve vault = .ok other := by
      rw [resolve_bounded] at hbounded
      obtain ⟨prefixes, hprefixes, -⟩ := map_eq_ok.mp hbounded
      rw [resolve_unbounded]
      exact ⟨_, map_eq_ok.mpr ⟨prefixes, hprefixes, rfl⟩⟩
    obtain ⟨other, hother⟩ := hunbounded
    rw [searchVault_fileEngine rfl hbounded, searchVault_fileEngine rfl hother] at hnotes
    injection hnotes with hnotes
    by_contra hout
    have hnone : filterTemporalResults vault request.temporalView
        (request.asOf.getD vault.today) 1 [fileHit path] = [] := by
      rw [hsame, filterTemporalResults]
      simp [fileHit, hout]
    have hall : filterTemporalResults vault (if boundary.includeHistorical then .all else .current)
        boundary.asOf 1 [fileHit path] = [fileHit path] := by
      rw [hhistorical]
      rfl
    cases hnone.symm.trans (hnotes.trans hall)

/-- The boundary of a scope is the only one of its request exactly where the scope does not
compile or the arguments beside it say the same. -/
theorem oneBoundary_iff : OneBoundary vault request scope boundary ↔
    ∀ resolved, (request.bounded scope boundary).resolve vault = .ok resolved →
      Aligned vault request boundary := by
  constructor
  · intro h resolved hresolved
    exact aligned_of_oneBoundary h hresolved
  · intro h
    refine ⟨?_, ?_, ?_, ?_⟩
    · exact sameNotes_of_aligned h
    · intro resolved hresolved
      obtain ⟨hview, hdate, -⟩ := resolved_bounded hresolved
      have haligned := h resolved hresolved
      rw [hview, hdate, haligned.date]
      refine ⟨?_, rfl⟩
      cases hhistorical : boundary.includeHistorical with
      | false => exact (haligned.current hhistorical).symm
      | true => rfl
    · intro hcurrent resolved hresolved path hpath
      exact currentThen_of_aligned (h resolved hresolved) hcurrent hresolved hpath
    · intro hhistorical resolved hresolved path _
      exact historical_of_aligned (h resolved hresolved) hhistorical hresolved path

end

/-! ## A past boundary -/

/-- A vault with one note that was valid until day five, on day ten. -/
def expiredVault : Vault where
  registry := .ok []
  records := (∅ : Table TemporalRecord).insert "projects/a.md" ⟨some ⟨none, some 5, [], by simp⟩⟩
  order := Enumeration.sorted _
  today := 10

def pastBoundary : TemporalBoundary := ⟨5, false⟩

def plainRequest : Request := { quoteRequest with scope := none }

/-- An engine whose index finds the note. -/
def indexEngine : Engine :=
  { quoteEngine with
    ftsRows := fun _ _ _ => .ok [("projects/a.md", 1)]
    readIndexed := fun _ => .ok (some ⟨"A", "Project"⟩) }

attribute [local instance] PythonText.ascii

/-- On day ten, a boundary at day five finds nothing, and the date of day five the note. -/
theorem oneBoundary_past :
    ¬OneBoundary expiredVault plainRequest (underDirectory "projects") pastBoundary := by
  intro h
  have hbounded : indexEngine.searchVault expiredVault
      ((plainRequest.asking "note" 20).bounded (underDirectory "projects") pastBoundary) =
        .ok [] := by
    decide +kernel
  have hunbounded : indexEngine.searchVault expiredVault
      ((plainRequest.asking "note" 20).unbounded (underDirectory "projects") pastBoundary) =
        .ok [⟨"projects/a.md", "A", "Project", 1, 1⟩] := by
    decide +kernel
  have hnotes := h.sameNotes indexEngine "note" 20
  rw [hbounded, hunbounded] at hnotes
  cases hnotes

end PowerFramework.Search
