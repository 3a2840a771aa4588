import PowerFramework.Search.Agreement
import PowerFramework.Search.Searcher
/-!
# Containment

Which notes the searches of a request can return, and when all of them are in its scope.
-/

set_option linter.unusedSectionVars false

namespace PowerFramework.Search

open Lib Lib.Failure Lib.Sql Lib.Json Temporal

/-! ## Where hits come from -/

/-- Every hit is about a note that one of the sources is about. -/
def DrawnFrom (sources results : List SearchResult) : Prop :=
  ∀ result ∈ results, ∃ source ∈ sources, source.note = result.note

theorem DrawnFrom.trans {first second third : List SearchResult} (h : DrawnFrom first second)
    (h' : DrawnFrom second third) : DrawnFrom first third := by
  intro result hresult
  obtain ⟨middle, hmiddle, heq⟩ := h' result hresult
  obtain ⟨source, hsource, heq'⟩ := h middle hmiddle
  exact ⟨source, hsource, heq'.trans heq⟩

section
variable [PythonText] {scope : ResolvedSearchScope}

/-- The scope admits the note of the hit. -/
def Within (scope : ResolvedSearchScope) (result : SearchResult) : Prop :=
  scope.isPathInScope result.note.relPath result.note.noteType = true

def AllWithin (scope : ResolvedSearchScope) (results : List SearchResult) : Prop :=
  ∀ result ∈ results, Within scope result

instance (result : SearchResult) : Decidable (Within scope result) :=
  inferInstanceAs (Decidable (_ = _))

variable {engine : Engine}

/-- The dimensions of the scope that look at the type of a note. -/
def TypeWithin (scope : ResolvedSearchScope) (noteType : String) : Prop :=
  (scope.includeArchived = false → PythonText.casefold noteType ≠ "archive") ∧
    (scope.sourceTypes ≠ [] → ∃ other ∈ scope.sourceTypes,
      PythonText.casefold noteType = PythonText.casefold other)

/-- A search that a mode makes for a variant of the query. -/
inductive Call where
  | fts (query : String) (maxResults : Nat)
  | vector (query : String) (maxResults : Nat)

def Engine.run (engine : Engine) (scope : ResolvedSearchScope) :
    Call → Except Exn (List SearchResult)
  | .fts query maxResults => engine.ftsSearch query maxResults scope
  | .vector query maxResults => engine.vectorSearch query maxResults scope

/-- The search does not reach a fallback that finds a note out of scope: a failing index sends a
lexical search to all files, and a missing one leaves a search for vectors without the types. -/
def Contained (engine : Engine) (scope : ResolvedSearchScope) : Call → Prop
  | .fts query maxResults => ∀ ftsQuery e, engine.ftsQuery query = .ok ftsQuery → ftsQuery ≠ "" →
      engine.hasIndex = .ok true → engine.ftsIndexSearch ftsQuery maxResults scope = .error e →
      e.kind ≠ "ActiveGenerationError" → AllWithin scope (engine.ftsFallback query maxResults)
  | .vector query maxResults => engine.hasIndex = .ok false →
      ∀ result ∈ engine.scanAndVectorSearch query maxResults scope,
        TypeWithin scope result.noteType

end

/-! ## Requests -/

section
variable [PythonText]

/-- The stages that a request passes before its searches. -/
structure Prepared (engine : Engine) (vault : Vault) (request : Request)
    (policy : String × Option String) (scope : ResolvedSearchScope) (mode : SearchMode) :
    Prop where
  policed : engine.policy request.query request.mode request.domain = .ok policy
  resolved : request.resolve vault = .ok scope
  running : engine.runtimeMode policy.1 = .ok mode

end

/-! ## A query with an apostrophe -/

def archivedFile : VaultFile where
  relPath := "04_Archive/old.md"
  generated := false
  skipped := false
  oversized := false
  indexedType := some "Archive"
  note := some ⟨"Old", "Archive"⟩

/-- A vault with one archived note, whose index refuses the FTS5 query. -/
def quoteEngine : Engine where
  files := [archivedFile]
  fallbackTerms query := [query]
  ftsQuery query := .ok (query ++ "*")
  requireAll := false
  scoreNote _ _ := (1, 1)
  hasIndex := .ok true
  ftsRows _ _ _ := .error ⟨"OperationalError", "fts5: syntax error near \"'\""⟩
  readIndexed _ := .ok none
  tokenize query := [query]
  vectorRows _ := .ok []
  similarity _ _ := 0
  fileSimilarity _ _ := 0
  denseRows _ _ _ := .ok []
  rerank _ _ := []
  graphBoosts _ _ := []
  expand query := [query]
  policy _ mode _ := .ok (mode, none)
  runtimeMode _ := .ok .fts
  overrideFails _ := false

def quoteRequest : Request where
  query := "don't"
  maxResults := 20
  mode := "fts"
  temporalView := .current
  asOf := none
  domain := none
  scope := some (underDirectory "projects")
  accessPolicy := none

attribute [local instance] PythonText.ascii

end PowerFramework.Search
