import Mathlib.Data.Rat.Defs
import PowerFramework.Search.Compile
/-!
# The searcher

The retrieval modes of `search_vault` over the files of a vault and the rows of its index.  What
SQLite, the embedding model, the reranker and the texts of the notes decide is a parameter; the
scores are rational numbers.
-/

namespace PowerFramework.Search

open Lib Lib.Failure Lib.Sql Lib.Json Temporal

/-! ## Notes and hits -/

/-- The metadata of a source that the searcher uses. -/
structure SourceNote where
  title : String
  noteType : String
  deriving DecidableEq, Repr

/-- A Markdown file of the vault. -/
structure VaultFile where
  relPath : String
  /-- The file is an index, a log or a catalog. -/
  generated : Bool
  /-- `should_skip` -/
  skipped : Bool
  /-- The file has more than 2,000,000 bytes. -/
  oversized : Bool
  /-- `_scoped_note_type_from_index` -/
  indexedType : Option String
  /-- The note that reading the source yields, if its metadata is valid. -/
  note : Option SourceNote
  deriving DecidableEq, Repr

/-- `SearchResult` without its texts. -/
structure SearchResult where
  relPath : String
  title : String
  noteType : String
  score : ℚ
  matchCount : Nat
  deriving DecidableEq, Repr

/-- What the scope looks at in a hit. -/
def SearchResult.note (self : SearchResult) : Note := ⟨self.relPath, some self.noteType⟩

inductive SearchMode where
  | fts | vector | hybrid | semantic | reranked | graphAssisted
  deriving DecidableEq, Repr

/-- The parts of a search that are decided outside the retrieval code. -/
structure Engine where
  /-- `iter_vault_markdown_files` -/
  files : List VaultFile
  /-- `_fallback_query_terms` -/
  fallbackTerms : String → List String
  /-- The FTS5 query of a text; an operator other than AND and OR is an error. -/
  ftsQuery : String → Except Exn String
  /-- `operator == "AND"` -/
  requireAll : Bool
  /-- `_score_note` -/
  scoreNote : List String → VaultFile → ℚ × Nat
  /-- Whether there is an index; building the one of an override can fail. -/
  hasIndex : Except Exn Bool
  /-- The rows of `fts_notes` for a query, a condition and a limit. -/
  ftsRows : String → Option (Clause Column) → Nat → Except Exn (List (String × ℚ))
  /-- `_read_indexed_source`, with nothing for the errors that are passed over. -/
  readIndexed : String → Except Exn (Option SourceNote)
  /-- `_tokenize` -/
  tokenize : String → List String
  /-- The paths of the rows of `tf_vectors` for a condition. -/
  vectorRows : Option (Clause Column) → Except Exn (List String)
  /-- The similarity of a query with an indexed vector. -/
  similarity : String → String → ℚ
  /-- The similarity of a query with a file. -/
  fileSimilarity : String → VaultFile → ℚ
  /-- The documents of `chunk_embeddings` for a query, a condition and a limit, best first. -/
  denseRows : String → Option (Clause Column) → Nat → Except Exn (List (String × ℚ))
  /-- `reranker.rerank` -/
  rerank : String → List SearchResult → List ℚ
  /-- The boosts of the paths around the candidates in the graph of the eligible paths. -/
  graphBoosts : List SearchResult → (String → Bool) → List (String × ℚ)
  /-- `QueryExpander().expand` -/
  expand : String → List String
  /-- `resolve_search_policy`: the mode and the path of the domain. -/
  policy : String → String → Option String → Except Exn (String × Option String)
  /-- The mode a request runs in, once its dense index is validated. -/
  runtimeMode : String → Except Exn SearchMode
  /-- The writable index of an override cannot be opened. -/
  overrideFails : SearchMode → Bool

/-! ## Orders -/

/-- `key=lambda r: (-r.score, -r.match_count, r.title)` -/
def byMatches (a b : SearchResult) : Bool :=
  b.score < a.score || a.score = b.score &&
    (b.matchCount < a.matchCount || a.matchCount = b.matchCount && a.title ≤ b.title)

/-- `key=lambda r: (-r.score, r.title)` -/
def byTitle (a b : SearchResult) : Bool :=
  b.score < a.score || a.score = b.score && a.title ≤ b.title

/-- `key=lambda r: (-r.score, r.rel_path)` -/
def byPath (a b : SearchResult) : Bool :=
  b.score < a.score || a.score = b.score && a.relPath ≤ b.relPath

/-- `key=lambda r: (-r.score, r.title, r.rel_path)` -/
def byTitlePath (a b : SearchResult) : Bool :=
  b.score < a.score || a.score = b.score &&
    (a.title < b.title || a.title = b.title && a.relPath ≤ b.relPath)

/-- `key=lambda r: -r.score` -/
def byScore (a b : SearchResult) : Bool := b.score ≤ a.score

/-! ## Merging -/

/-- The best hit of a path, the first one of equals. -/
def best (results : List SearchResult) (path : String) : Option SearchResult :=
  results.foldl (fun found result =>
    if result.relPath ≠ path then found
    else match found with
      | none => some result
      | some other => if other.score < result.score then some result else found) none

/-- The best hit of each path, in the order of their first occurrences. -/
def bestByPath (results : List SearchResult) : List SearchResult :=
  (results.map SearchResult.relPath).eraseDups.filterMap (best results)

/-- `rrf_scores[path]` -/
def rrfScore (resultSets : List (List SearchResult)) (path : String) : ℚ :=
  (resultSets.flatMap fun results => results.zipIdx.map fun entry =>
    if entry.1.relPath = path then 1 / (60 + entry.2 + 1 : ℚ) else 0).sum

/-- `_rrf_merge_many` -/
def rrfMergeMany (resultSets : List (List SearchResult)) : List SearchResult :=
  ((bestByPath resultSets.flatten).map fun result =>
    { result with score := rrfScore resultSets result.relPath }).mergeSort byScore

namespace Engine

variable [PythonText] (engine : Engine)

/-! ## Scans of the files -/

/-- The tests on a file before it is read. -/
def mayRead (scope : Option ResolvedSearchScope) (file : VaultFile) : Bool :=
  !file.generated && scope.all (·.isPathInScope file.relPath none) && !file.skipped &&
    scope.all fun scope => scope.sourceTypes = [] ||
      file.indexedType.any fun indexed => scope.isPathInScope file.relPath (some indexed)

/-- The hit of a file in `_scan_and_search`. -/
def scanFile (terms : List String) (requireAll : Bool) (scope : Option ResolvedSearchScope)
    (file : VaultFile) : Option SearchResult :=
  if !mayRead scope file then none
  else match file.note with
    | none => none
    | some note =>
        if !scope.all (·.isPathInScope file.relPath (some note.noteType)) then none
        else
          let (score, matchCount) := engine.scoreNote terms file
          if score = 0 || requireAll && matchCount < terms.length then none
          else some ⟨file.relPath, note.title, note.noteType, score, matchCount⟩

/-- `_scan_and_search` -/
def scanAndSearch (terms : List String) (requireAll : Bool)
    (scope : Option ResolvedSearchScope) : List SearchResult :=
  engine.files.filterMap (engine.scanFile terms requireAll scope)

/-- The hit of a file in `_scan_and_vector_search`. -/
def vectorFile (query : String) (file : VaultFile) : Option SearchResult :=
  if file.oversized then none
  else match file.note with
    | none => none
    | some note =>
        let similarity := engine.fileSimilarity query file
        if similarity ≤ 0 then none
        else some ⟨file.relPath, note.title, note.noteType, similarity,
          (engine.tokenize query).length⟩

/-- `_scan_and_vector_search` -/
def scanAndVectorSearch (query : String) (maxResults : Nat) (scope : ResolvedSearchScope) :
    List SearchResult :=
  if engine.tokenize query = [] then []
  else
    ((((((engine.files.mergeSort (·.relPath ≤ ·.relPath)).filter (mayRead (some scope))).take
      5000).filterMap (engine.vectorFile query)).mergeSort byPath).take maxResults)

/-! ## Searches of the index -/

/-- The hit of a row, unless its source cannot be used or is out of scope. -/
def materialize (scope : ResolvedSearchScope) (matchCount : Nat) (row : String × ℚ) :
    Except Exn (Option SearchResult) := do
  let note ← engine.readIndexed row.1
  return note.bind fun note =>
    if !scope.isPathInScope row.1 (some note.noteType) then none
    else some ⟨row.1, note.title, note.noteType, row.2, matchCount⟩

/-- The search of `fts_notes`. -/
def ftsIndexSearch (ftsQuery : String) (maxResults : Nat) (scope : ResolvedSearchScope) :
    Except Exn (List SearchResult) := do
  let rows ← engine.ftsRows ftsQuery scope.buildFtsCondition maxResults
  let results ← rows.mapM (engine.materialize scope 1)
  return results.filterMap id

/-- What `_fts_search` falls back to when the search of the index fails. -/
def ftsFallback (query : String) (maxResults : Nat) : List SearchResult :=
  if engine.fallbackTerms query = [] then []
  else ((engine.scanAndSearch (engine.fallbackTerms query) false none).mergeSort byMatches).take
    maxResults

/-- `_fts_search` -/
def ftsSearch (query : String) (maxResults : Nat) (scope : ResolvedSearchScope) :
    Except Exn (List SearchResult) := do
  let ftsQuery ← engine.ftsQuery query
  if ftsQuery = "" then return []
  else (do
    let hasIndex ← engine.hasIndex
    if !hasIndex then
      return ((engine.scanAndSearch (engine.fallbackTerms query) engine.requireAll
        (some scope)).mergeSort byMatches).take maxResults
    else match engine.ftsIndexSearch ftsQuery maxResults scope with
      | .ok results => .ok results
      | .error e =>
          if e.kind = "ActiveGenerationError" then .error e
          else .ok (engine.ftsFallback query maxResults))

/-- The hit of an indexed vector; every error passes over its row. -/
def vectorHit (query : String) (scope : ResolvedSearchScope) (path : String) :
    Option SearchResult :=
  match engine.materialize scope (engine.tokenize query).length
      (path, engine.similarity query path) with
  | .ok (some result) => if result.score = 0 then none else some result
  | _ => none

/-- `_vector_search` -/
def vectorSearch (query : String) (maxResults : Nat) (scope : ResolvedSearchScope) :
    Except Exn (List SearchResult) :=
  if engine.tokenize query = [] then .ok []
  else do
    let hasIndex ← engine.hasIndex
    if !hasIndex then return engine.scanAndVectorSearch query maxResults scope
    else match engine.vectorRows scope.buildVectorCondition with
      | .ok rows => .ok (((rows.filterMap (engine.vectorHit query scope)).mergeSort byTitle).take
          maxResults)
      | .error e => if e.kind = "ActiveGenerationError" then .error e else .ok []

/-- The hit of a document of the dense index; every error passes over it. -/
def denseHit (scope : ResolvedSearchScope) (row : String × ℚ) : Option SearchResult :=
  match engine.materialize scope 1 row with
  | .ok result => result
  | .error _ => none

/-- `_semantic_search` -/
def semanticSearch (query : String) (maxResults : Nat) (scope : ResolvedSearchScope) :
    Except Exn (List SearchResult) := do
  let rows ← engine.denseRows query scope.buildChunkCondition maxResults
  return rows.filterMap (engine.denseHit scope)

/-! ## Combined modes -/

/-- The candidate, if its source can be read for the reranker. -/
def readable (result : SearchResult) : Except Exn (Option SearchResult) :=
  (engine.readIndexed result.relPath).map fun note => note.map fun _ => result

/-- The candidates with the scores of the reranker, as far as there are any. -/
def rescored (scores : List ℚ) (results : List SearchResult) : List SearchResult :=
  results.zipIdx.map fun entry =>
    { entry.1 with score := (scores[entry.2]?).getD entry.1.score }

/-- `_hybrid_reranked_search`, from the fused candidates on. -/
def rerankCandidates (query : String) (maxResults : Nat) (candidates : List SearchResult) :
    Except Exn (List SearchResult) := do
  let found ← (candidates.take 20).mapM engine.readable
  let rerankable := found.filterMap id
  if rerankable = [] then return candidates.take maxResults
  else
    let reranked := (rescored (engine.rerank query rerankable) rerankable).mergeSort byScore
    return (rrfMergeMany (List.replicate 3 candidates ++ [reranked])).take maxResults

/-- `_hybrid_reranked_search` -/
def hybridRerankedSearch (query : String) (maxResults : Nat) (scope : ResolvedSearchScope) :
    Except Exn (List SearchResult) := do
  let lexical ← engine.ftsSearch query 150 scope
  let vectors ← engine.vectorSearch query 150 scope
  let dense ← engine.semanticSearch query (maxResults * 3) scope
  let sparse := rrfMergeMany [lexical, vectors]
  engine.rerankCandidates query maxResults
    (if dense = [] then sparse else rrfMergeMany [sparse, dense])

/-- `_eligible_graph_paths` -/
def isEligible (scope : ResolvedSearchScope) (path : String) : Bool :=
  engine.files.any fun file => file.relPath = path && mayRead (some scope) file

/-- The neighbour of the candidates in the graph. -/
def graphHit (scope : ResolvedSearchScope) (boost : String × ℚ) :
    Except Exn (Option SearchResult) :=
  if !engine.isEligible scope boost.1 then .ok none
  else engine.materialize scope 0 (boost.1, boost.2 / 4)

/-- The candidates with the boosts of the graph. -/
def boosted (boosts : List (String × ℚ)) (candidates : List SearchResult) : List SearchResult :=
  candidates.zipIdx.map fun entry =>
    { entry.1 with
      score := 1 / (entry.2 + 1 : ℚ) + ((boosts.lookup entry.1.relPath).getD 0) / 4 }

/-- `_graph_assisted_search`, from the fused candidates on. -/
def expandCandidates (maxResults : Nat) (scope : ResolvedSearchScope)
    (candidates : List SearchResult) : Except Exn (List SearchResult) :=
  if candidates = [] then .ok []
  else do
    let boosts := engine.graphBoosts candidates (engine.isEligible scope)
    let neighbours ← (boosts.filter fun boost =>
      boost.1 ∉ candidates.map SearchResult.relPath).mapM (engine.graphHit scope)
    return ((boosted boosts candidates ++ neighbours.filterMap id).mergeSort byTitlePath).take
      maxResults

/-- `_graph_assisted_search` -/
def graphAssistedSearch (query : String) (maxResults : Nat) (scope : ResolvedSearchScope) :
    Except Exn (List SearchResult) := do
  let limit := max 20 (maxResults * 4)
  let lexical ← engine.ftsSearch query limit scope
  let vectors ← engine.vectorSearch query limit scope
  engine.expandCandidates maxResults scope (rrfMergeMany [lexical, vectors])

/-- The dense candidates of the hybrid mode, which can do without a dense index. -/
def denseCandidates (query : String) (maxResults : Nat) (scope : ResolvedSearchScope) :
    Except Exn (List SearchResult) :=
  match engine.semanticSearch query maxResults scope with
  | .ok results => .ok results
  | .error e => if e.kind = "DenseIndexUnavailableError" then .ok [] else .error e

/-- The searches of one variant in the hybrid mode. -/
def hybridVariant (maxResults : Nat) (scope : ResolvedSearchScope) (query : String) :
    Except Exn (List SearchResult × List SearchResult × List SearchResult) := do
  let lexical ← engine.ftsSearch query (maxResults * 2) scope
  let vectors ← engine.vectorSearch query (maxResults * 2) scope
  let dense ← engine.denseCandidates query (maxResults * 2) scope
  return (lexical, vectors, dense)

/-- The hybrid mode before its filters. -/
def hybridSearch (variants : List String) (maxResults : Nat) (scope : ResolvedSearchScope) :
    Except Exn (List SearchResult) := do
  let found ← variants.mapM (engine.hybridVariant maxResults scope)
  let lexical := (bestByPath (found.flatMap (·.1))).mergeSort byScore
  let vectors := (bestByPath (found.flatMap (·.2.1))).mergeSort byScore
  let dense := (bestByPath (found.flatMap (·.2.2))).mergeSort byScore
  let merged := rrfMergeMany [lexical, vectors]
  return merged ++ dense.filter fun result => result.relPath ∉ merged.map SearchResult.relPath

/-- The search of one variant in a mode other than hybrid. -/
def variantSearch (mode : SearchMode) (maxResults : Nat) (scope : ResolvedSearchScope)
    (query : String) : Except Exn (List SearchResult) :=
  match mode with
  | .vector => engine.vectorSearch query maxResults scope
  | .semantic => engine.semanticSearch query maxResults scope
  | .graphAssisted => engine.graphAssistedSearch query maxResults scope
  | .reranked => engine.hybridRerankedSearch query maxResults scope
  | .fts | .hybrid => engine.ftsSearch query maxResults scope

/-- The ranking of a mode before the filters. -/
def rankedSearch (mode : SearchMode) (variants : List String) (maxResults : Nat)
    (scope : ResolvedSearchScope) : Except Exn (List SearchResult) :=
  match mode with
  | .hybrid => engine.hybridSearch variants maxResults scope
  | mode => do
      let found ← variants.mapM (engine.variantSearch mode maxResults scope)
      return (bestByPath found.flatten).mergeSort byTitle

/-- `_apply_semantic_lexical_guard` -/
def semanticLexicalGuard (query : String) (scope : ResolvedSearchScope)
    (results : List SearchResult) : List SearchResult :=
  match results with
  | first :: second :: rest =>
      if first.score ≤ 0 then results
      else match engine.ftsSearch query 1 scope with
        | .ok (lexical :: _) =>
            match (second :: rest).find? (·.relPath = lexical.relPath) with
            | none => results
            | some found =>
                if first.relPath = lexical.relPath || first.score / 20 < first.score - found.score
                then results
                else found :: results.filter (· ≠ found)
        | _ => results
  | _ => results

end Engine

/-! ## Filters -/

/-- `_filter_domain_results` -/
def filterDomainResults (domainPath : Option String) (results : List SearchResult) :
    List SearchResult :=
  match domainPath with
  | none => results
  | some path =>
      let lead := String.ofList (path.toList.rdropWhile (· = '/'))
      results.filter fun result => result.relPath = lead || startsWith (lead ++ "/") result.relPath

/-- The status of a note in the final filter. -/
def statusOf (vault : Vault) (asOf : Date) (path : String) : TemporalStatus :=
  ((vault.statuses asOf)[path]?).getD .current

/-- `_filter_temporal_results` -/
def filterTemporalResults (vault : Vault) (temporalView : TemporalView) (asOf : Date)
    (maxResults : Nat) (results : List SearchResult) : List SearchResult :=
  (results.filter fun result =>
    includesTemporalStatus (statusOf vault asOf result.relPath) temporalView).take maxResults

/-! ## `search_vault` -/

/-- The arguments of `search_vault`. -/
structure Request where
  query : String
  maxResults : Nat
  mode : String
  temporalView : TemporalView
  asOf : Option Date
  domain : Option String
  scope : Option SearchScope
  accessPolicy : Option AccessPolicy

section
variable [PythonText]

/-- The scope of a request. -/
def Request.resolve (request : Request) (vault : Vault) : Except Exn ResolvedSearchScope :=
  compileSearchScope vault request.scope request.domain request.temporalView request.asOf
    request.accessPolicy

/-- The variants of the query that a mode searches for. -/
def Engine.variants (engine : Engine) (mode : SearchMode) (query : String) : List String :=
  if mode = .reranked then [query] else engine.expand query

/-- The guard applies to the semantic mode only. -/
def Engine.guarded (engine : Engine) (mode : SearchMode) (query : String)
    (scope : ResolvedSearchScope) (results : List SearchResult) : List SearchResult :=
  if mode = .semantic then engine.semanticLexicalGuard query scope results else results

/-- The searches and filters of a request in its mode. -/
def Engine.answer (engine : Engine) (vault : Vault) (request : Request)
    (domainPath : Option String) (mode : SearchMode) (scope : ResolvedSearchScope) :
    Except Exn (List SearchResult) :=
  if engine.overrideFails mode then
    .ok (((engine.scanAndSearch (engine.fallbackTerms request.query) false
      (some scope)).mergeSort byMatches).take request.maxResults)
  else do
    let ranked ← engine.rankedSearch mode (engine.variants mode request.query)
      request.maxResults scope
    return engine.guarded mode request.query scope
      (filterTemporalResults vault request.temporalView (request.asOf.getD vault.today)
        request.maxResults (filterDomainResults domainPath ranked))

/-- `search_vault` -/
def Engine.searchVault (engine : Engine) (vault : Vault) (request : Request) :
    Except Exn (List SearchResult) := do
  let policy ← engine.policy request.query request.mode request.domain
  let scope ← request.resolve vault
  let mode ← engine.runtimeMode policy.1
  engine.answer vault request policy.2 mode scope

end

end PowerFramework.Search
