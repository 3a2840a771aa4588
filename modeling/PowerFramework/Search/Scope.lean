import PowerFramework.Ledger.Directory
import PowerFramework.Lib.PythonValue
import PowerFramework.Lib.SortedSet
import PowerFramework.Lib.SqlCondition
import PowerFramework.Lib.Text
import PowerFramework.Temporal.Records
/-!
# Resolved scopes

A compiled search scope, its test on the path and the type of a note, and the conditions it adds
to the queries on the index.
-/

namespace PowerFramework.Search

open Lib Lib.Sql Lib.Json Ledger Temporal

/-! ## Paths -/

/-- `text.strip().strip("/")` -/
def cleanPath (text : String) : String :=
  String.ofList (((strip text.toList).dropWhile (· = '/')).rdropWhile (· = '/'))

/-- `path.startswith(lead)` -/
def startsWith (lead path : String) : Bool := lead.toList.isPrefixOf path.toList

/-- `part in path` -/
def isWithin (part path : String) : Bool := part.toList <:+: path.toList

/-- The spelling of one character by `escape_like_wildcards`. -/
def doubled (mark : Char) (text : List Char) : List Char :=
  text.flatMap fun c => if c = mark then [backslash, c] else [c]

/-- `escape_like_wildcards` -/
def escapeLikeWildcards (val : String) : String :=
  String.ofList (doubled '_' (doubled '%' (doubled backslash val.toList)))

/-- `_matches_any_prefix` -/
def matchesAnyPrefix (path : String) (prefixes : List String) : Bool :=
  prefixes.any fun lead =>
    let norm := cleanPath lead
    norm != "" && (path == norm || startsWith (norm ++ "/") path)

/-! ## Rows -/

inductive Column where
  | relPath | noteType
  deriving DecidableEq, Repr

/-- What the index keeps of a note for the scope. -/
structure Note where
  relPath : String
  noteType : Option String
  deriving DecidableEq, Repr

/-- The part of a prefix clause for one cleaned prefix. -/
def prefixPart (col : Column) (lead : String) : Clause Column :=
  let equal : Clause Column := ⟨.equals col .parameter, [lead], rfl⟩
  if Text.endsWith ".md" lead then equal
  else equal.or ⟨.like col .parameter, [escapeLikeWildcards lead ++ "/%"], rfl⟩

/-- `_build_prefix_or_clause` -/
def buildPrefixOrClause (prefixes : List String) (col : Column) : Option (Clause Column) :=
  let cleaned := (prefixes.map cleanPath).filter (· ≠ "")
  disjunction (cleaned.map (prefixPart col))

/-! ## The scope -/

/-- `TemporalView` -/
inductive TemporalView where
  | current | historical | all
  deriving DecidableEq, Repr

/-- `ResolvedSearchScope`; a frozenset is the list of its members. -/
structure ResolvedSearchScope where
  domainIds : List String
  pathPrefixes : List String
  explicitPathPrefixes : List String
  domainPathPrefixes : List String
  sourceTypes : List String
  temporalView : TemporalView
  asOf : Date
  includeArchived : Bool
  includeQuarantine : Bool
  excludedTemporalPaths : List String
  deriving DecidableEq

namespace ResolvedSearchScope

variable [PythonText] (self : ResolvedSearchScope)

/-- `is_path_in_scope` -/
def isPathInScope (relPath : String) (noteType : Option String) : Bool :=
  let clean := cleanPath relPath
  if !self.includeArchived && (clean = "04_Archive" || startsWith "04_Archive/" clean) then false
  else if !self.includeArchived && noteType.any (PythonText.casefold · = "archive") then false
  else if !self.includeQuarantine &&
      (startsWith ".quarantine/" clean || startsWith "quarantine/" clean ||
        isWithin "/.quarantine/" clean || isWithin "/quarantine/" clean) then false
  else if self.domainPathPrefixes ≠ [] && !matchesAnyPrefix clean self.domainPathPrefixes then
    false
  else if self.explicitPathPrefixes ≠ [] && !matchesAnyPrefix clean self.explicitPathPrefixes then
    false
  else if self.domainPathPrefixes = [] && self.explicitPathPrefixes = [] &&
      self.pathPrefixes ≠ [] && !matchesAnyPrefix clean self.pathPrefixes then
    false
  else if self.sourceTypes ≠ [] && noteType.any (fun noteType =>
      PythonText.casefold noteType ∉ self.sourceTypes.map PythonText.casefold) then false
  else !(self.excludedTemporalPaths ≠ [] && clean ∈ self.excludedTemporalPaths)

/-! ## The clauses -/

/-- The clauses of the path dimensions. -/
def pathClauses (col : Column) : List (Clause Column) :=
  if self.domainPathPrefixes ≠ [] ∨ self.explicitPathPrefixes ≠ [] then
    (if self.domainPathPrefixes ≠ [] then
      (buildPrefixOrClause self.domainPathPrefixes col).toList else []) ++
    (if self.explicitPathPrefixes ≠ [] then
      (buildPrefixOrClause self.explicitPathPrefixes col).toList else [])
  else if self.pathPrefixes ≠ [] then (buildPrefixOrClause self.pathPrefixes col).toList
  else []

/-- `col != '04_Archive' AND col NOT LIKE '04_Archive/%' ESCAPE '\'` -/
def archiveClause (col : Column) : Clause Column :=
  (⟨.differs col (.literal "04_Archive"), [], rfl⟩ : Clause Column).and
    ⟨.unlike col (.literal "04_Archive/%"), [], rfl⟩

/-- `col NOT LIKE pattern ESCAPE '\'` -/
def unlikeClause (col : Column) (pattern : String) : Clause Column :=
  ⟨.unlike col (.literal pattern), [], rfl⟩

/-- The clause of the quarantine directories. -/
def quarantineClause (col : Column) : Clause Column :=
  (((unlikeClause col ".quarantine/%").and (unlikeClause col "quarantine/%")).and
    (unlikeClause col "%/.quarantine/%")).and (unlikeClause col "%/quarantine/%")

/-- The clause of the temporal exclusions. -/
def exclusionClauses (col : Column) : List (Clause Column) :=
  if self.excludedTemporalPaths ≠ [] then
    let excluded := sortedSet self.excludedTemporalPaths
    if excluded.length ≤ 900 then [⟨.notIn col excluded.length, excluded, rfl⟩] else []
  else []

/-- `note_type IS NULL OR note_type != 'Archive'` -/
def typeClause (col : Column) : Clause Column :=
  (⟨.isNull col, [], rfl⟩ : Clause Column).or ⟨.differs col (.literal "Archive"), [], rfl⟩

/-- `build_sql_conditions` -/
def buildSqlConditions (relPathCol : Column) (noteTypeCol : Option Column) :
    Option (Clause Column) :=
  conjunction (self.pathClauses relPathCol ++
    (if self.includeArchived then []
      else archiveClause relPathCol :: (noteTypeCol.map typeClause).toList) ++
    (if self.includeQuarantine then [] else [quarantineClause relPathCol]) ++
    (if self.sourceTypes ≠ [] then
      (noteTypeCol.map fun col => ⟨.isIn col self.sourceTypes.length, self.sourceTypes, rfl⟩).toList
      else []) ++
    self.exclusionClauses relPathCol)

/-- `build_fts_condition`, over the rows of `fts_notes`. -/
def buildFtsCondition : Option (Clause Column) :=
  self.buildSqlConditions .relPath (some .noteType)

/-- `build_vector_condition`, over the rows of `tf_vectors` joined with `fts_notes`. -/
def buildVectorCondition : Option (Clause Column) :=
  self.buildSqlConditions .relPath (some .noteType)

/-- `build_chunk_condition`, over the rows of `chunk_embeddings`. -/
def buildChunkCondition : Option (Clause Column) :=
  conjunction (self.pathClauses .relPath ++
    (if self.includeArchived then []
      else [archiveClause .relPath,
        ⟨.notSelected .relPath .relPath (.equals .noteType (.literal "Archive")), [], rfl⟩]) ++
    (if self.includeQuarantine then [] else [quarantineClause .relPath]) ++
    (if self.sourceTypes ≠ [] then
      [⟨.isSelected .relPath .relPath (.isIn .noteType self.sourceTypes.length), self.sourceTypes,
        rfl⟩]
      else []) ++
    self.exclusionClauses .relPath)

end ResolvedSearchScope

/-! ## The index -/

/-- The notes of an index, one for each path: a note is deleted before it is inserted. -/
structure Index where
  notes : List Note
  distinct : (notes.map Note.relPath).Nodup

/-- The row of a note in `fts_notes`. -/
def Note.row (note : Note) : Row Column
  | .relPath => some note.relPath
  | .noteType => note.noteType

/-- The row of a chunk of the note in `chunk_embeddings`, which has no type. -/
def Note.chunkRow (note : Note) : Row Column
  | .relPath => some note.relPath
  | .noteType => none

def Index.table (index : Index) : List (Row Column) := index.notes.map Note.row

/-- The row satisfies the condition that the builder returned, or there is none. -/
def Selects (index : Index) (row : Row Column) (condition : Option (Clause Column)) : Prop :=
  ∀ clause ∈ condition, clause.Holds index.table row

instance (index : Index) (row : Row Column) (condition : Option (Clause Column)) :
    Decidable (Selects index row condition) :=
  match condition with
  | none => isTrue fun _ h => nomatch h
  | some clause => decidable_of_iff (clause.Holds index.table row) (by simp [Selects])

end PowerFramework.Search
