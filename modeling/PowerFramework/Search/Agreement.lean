import PowerFramework.Search.Compile
import PowerFramework.Search.Pushdown
import PowerFramework.Temporal.Statuses
/-!
# Agreement of the conditions with the test

When the conditions on the index select exactly the notes that the test of the scope admits.
-/

namespace PowerFramework.Search

open Lib Lib.Sql Lib.Json Temporal

/-! ## Gaps -/

/-- The row passes a dimension whose test the note fails. -/
def Widened [PythonText] (scope : ResolvedSearchScope) (note : Note) : Dimension → Prop
  | .domains => scope.domainPathPrefixes ≠ [] ∧ Reached scope.domainPathPrefixes note.relPath ∧
      ¬Covered scope.domainPathPrefixes note.relPath
  | .explicitPaths => scope.explicitPathPrefixes ≠ [] ∧
      Reached scope.explicitPathPrefixes note.relPath ∧
      ¬Covered scope.explicitPathPrefixes note.relPath
  | .combined => scope.domainPathPrefixes = [] ∧ scope.explicitPathPrefixes = [] ∧
      scope.pathPrefixes ≠ [] ∧ Reached scope.pathPrefixes note.relPath ∧
      ¬Covered scope.pathPrefixes note.relPath
  | .archive => scope.includeArchived = false ∧ InArchive (cleanPath note.relPath) ∧
      note.relPath ≠ "04_Archive" ∧ ¬LikeArchive note.relPath
  | .archiveType => scope.includeArchived = false ∧
      ∃ text ∈ note.noteType, PythonText.casefold text = "archive" ∧ text ≠ "Archive"
  | .quarantine => scope.includeQuarantine = false ∧ InQuarantine (cleanPath note.relPath) ∧
      ¬LikeQuarantine note.relPath
  | .sourceTypes => False
  | .exclusions => cleanPath note.relPath ∈ scope.excludedTemporalPaths ∧
      (900 < (sortedSet scope.excludedTemporalPaths).length ∨
        note.relPath ∉ scope.excludedTemporalPaths)

/-- The row fails a dimension whose test the note passes. -/
def Narrowed [PythonText] (scope : ResolvedSearchScope) (note : Note) : Dimension → Prop
  | .domains => Covered scope.domainPathPrefixes note.relPath ∧
      ¬Reached scope.domainPathPrefixes note.relPath
  | .explicitPaths => Covered scope.explicitPathPrefixes note.relPath ∧
      ¬Reached scope.explicitPathPrefixes note.relPath
  | .combined => scope.domainPathPrefixes = [] ∧ scope.explicitPathPrefixes = [] ∧
      Covered scope.pathPrefixes note.relPath ∧ ¬Reached scope.pathPrefixes note.relPath
  | .archive => scope.includeArchived = false ∧ ¬InArchive (cleanPath note.relPath) ∧
      (note.relPath = "04_Archive" ∨ LikeArchive note.relPath)
  | .archiveType => scope.includeArchived = false ∧ note.noteType = some "Archive" ∧
      PythonText.casefold "Archive" ≠ "archive"
  | .quarantine => scope.includeQuarantine = false ∧ ¬InQuarantine (cleanPath note.relPath) ∧
      LikeQuarantine note.relPath
  | .sourceTypes => scope.sourceTypes ≠ [] ∧ (∀ text ∈ note.noteType,
      ∃ other ∈ scope.sourceTypes, PythonText.casefold text = PythonText.casefold other) ∧
      ∀ text ∈ scope.sourceTypes, note.noteType ≠ some text
  | .exclusions => (sortedSet scope.excludedTemporalPaths).length ≤ 900 ∧
      note.relPath ∈ scope.excludedTemporalPaths ∧
      cleanPath note.relPath ∉ scope.excludedTemporalPaths

/-- Every gap of a dimension is closed by another dimension, which keeps the note out of the side
that lets it through. -/
structure Agrees [PythonText] (scope : ResolvedSearchScope) (note : Note) : Prop where
  widened : ∀ d, Widened scope note d → ∃ e, ¬Pushed scope note e
  narrowed : ∀ d, Narrowed scope note d → ∃ e, ¬Required scope note e

section
variable [PythonText] {scope : ResolvedSearchScope} {note : Note}

omit [PythonText] in
theorem reached_nil (path : String) : Reached [] path := Or.inl fun _ h => nomatch h

omit [PythonText] in
theorem ne_nil_of_not_reached {prefixes : List String} {path : String}
    (h : ¬Reached prefixes path) : prefixes ≠ [] := by
  rintro rfl
  exact h (reached_nil path)

theorem widened_iff {d : Dimension} :
    Widened scope note d ↔ Pushed scope note d ∧ ¬Required scope note d := by
  cases d with
  | domains | explicitPaths =>
      simp only [Widened, Pushed, Required, Classical.not_imp]
      exact and_left_comm
  | combined =>
      simp only [Widened, Pushed, Required, Classical.not_imp]
      constructor
      · rintro ⟨hdomains, hexplicit, hne, hreached, hcovered⟩
        exact ⟨fun _ _ => hreached, hdomains, hexplicit, hne, hcovered⟩
      · rintro ⟨hreached, hdomains, hexplicit, hne, hcovered⟩
        exact ⟨hdomains, hexplicit, hne, hreached hdomains hexplicit, hcovered⟩
  | archive | quarantine =>
      simp only [Widened, Pushed, Required, Classical.not_imp, not_not]
      constructor
      · rintro ⟨hincluded, hinside, hpushed⟩
        exact ⟨fun _ => hpushed, hincluded, hinside⟩
      · rintro ⟨hpushed, hincluded, hinside⟩
        exact ⟨hincluded, hinside, hpushed hincluded⟩
  | archiveType =>
      cases htype : note.noteType with
      | none => simp [Widened, Required, htype]
      | some text =>
          simp only [Widened, Pushed, Required, htype, Option.mem_def, Option.some.injEq,
            exists_eq_left', forall_eq', Classical.not_imp, not_not, ne_eq]
          constructor
          · rintro ⟨hincluded, hfold, hne⟩
            exact ⟨fun _ => hne, hincluded, hfold⟩
          · rintro ⟨hne, hincluded, hfold⟩
            exact ⟨hincluded, hfold, hne hincluded⟩
  | sourceTypes =>
      simp only [Widened, Pushed, Required, false_iff, not_and, not_not]
      intro hpushed hne text htext
      obtain ⟨other, hother, heq⟩ := hpushed hne
      rw [heq] at htext
      cases htext
      exact ⟨text, hother, rfl⟩
  | exclusions =>
      simp only [Widened, Pushed, Required, not_not, ← not_le, imp_iff_not_or]
      exact and_comm

theorem narrowed_iff {d : Dimension} :
    Narrowed scope note d ↔ Required scope note d ∧ ¬Pushed scope note d := by
  cases d with
  | domains | explicitPaths =>
      simp only [Narrowed, Pushed, Required]
      constructor
      · rintro ⟨hcovered, hreached⟩
        exact ⟨fun _ => hcovered, hreached⟩
      · rintro ⟨hcovered, hreached⟩
        exact ⟨hcovered (ne_nil_of_not_reached hreached), hreached⟩
  | combined =>
      simp only [Narrowed, Pushed, Required, Classical.not_imp]
      constructor
      · rintro ⟨hdomains, hexplicit, hcovered, hreached⟩
        exact ⟨fun _ _ _ => hcovered, hdomains, hexplicit, hreached⟩
      · rintro ⟨hcovered, hdomains, hexplicit, hreached⟩
        exact ⟨hdomains, hexplicit,
          hcovered hdomains hexplicit (ne_nil_of_not_reached hreached), hreached⟩
  | archive =>
      simp only [Narrowed, Pushed, Required, Classical.not_imp, not_and_or, not_not, ne_eq]
      constructor
      · rintro ⟨hincluded, hinside, hpushed⟩
        exact ⟨fun _ => hinside, hincluded, hpushed⟩
      · rintro ⟨hinside, hincluded, hpushed⟩
        exact ⟨hincluded, hinside hincluded, hpushed⟩
  | quarantine =>
      simp only [Narrowed, Pushed, Required, Classical.not_imp, not_not]
      constructor
      · rintro ⟨hincluded, hinside, hpushed⟩
        exact ⟨fun _ => hinside, hincluded, hpushed⟩
      · rintro ⟨hinside, hincluded, hpushed⟩
        exact ⟨hincluded, hinside hincluded, hpushed⟩
  | exclusions =>
      simp only [Narrowed, Pushed, Required, Classical.not_imp, not_not]
      constructor
      · rintro ⟨hlength, hstored, hclean⟩
        exact ⟨hclean, hlength, hstored⟩
      · rintro ⟨hclean, hlength, hstored⟩
        exact ⟨hlength, hstored, hclean⟩
  | archiveType =>
      cases htype : note.noteType with
      | none => simp [Narrowed, Pushed, htype]
      | some text =>
          simp only [Narrowed, Pushed, Required, htype, Option.mem_def, Option.some.injEq,
            forall_eq', Classical.not_imp, not_not]
          constructor
          · rintro ⟨harchived, rfl, hfold⟩
            exact ⟨fun _ => hfold, harchived, rfl⟩
          · rintro ⟨hfold, harchived, rfl⟩
            exact ⟨harchived, rfl, hfold harchived⟩
  | sourceTypes =>
      simp only [Narrowed, Pushed, Required, Classical.not_imp, not_exists, not_and]
      constructor
      · rintro ⟨hne, hfold, hexact⟩
        exact ⟨fun _ => hfold, hne, hexact⟩
      · rintro ⟨hfold, hne, hexact⟩
        exact ⟨hne, hfold hne, hexact⟩

end

/-- The condition selects the row exactly where the test admits the note. -/
def Exact [PythonText] (scope : ResolvedSearchScope) (index : Index) (note : Note)
    (row : Row Column) (condition : Option (Clause Column)) : Prop :=
  Selects index row condition ↔ scope.isPathInScope note.relPath note.noteType = true

section
variable [PythonText] {scope : ResolvedSearchScope} {index : Index} {note : Note}

theorem agrees_iff :
    ((∀ d, Pushed scope note d) ↔ ∀ d, Required scope note d) ↔ Agrees scope note := by
  constructor
  · intro h
    constructor
    · intro d hd
      by_contra hpushed
      simp only [not_exists, not_not] at hpushed
      exact (widened_iff.mp hd).2 (h.mp hpushed d)
    · intro d hd
      by_contra hrequired
      simp only [not_exists, not_not] at hrequired
      exact (narrowed_iff.mp hd).2 (h.mpr hrequired d)
  · intro h
    constructor
    · intro hpushed d
      by_contra hrequired
      obtain ⟨e, he⟩ := h.widened d (widened_iff.mpr ⟨hpushed d, hrequired⟩)
      exact he (hpushed e)
    · intro hrequired d
      by_contra hpushed
      obtain ⟨e, he⟩ := h.narrowed d (narrowed_iff.mpr ⟨hrequired d, hpushed⟩)
      exact he (hrequired e)

/-- The three builders agree with the test at a note exactly where its dimensions do. -/
theorem conditions_exact (hnote : note ∈ index.notes) :
    (Exact scope index note note.row scope.buildFtsCondition ∧
      Exact scope index note note.row scope.buildVectorCondition ∧
      Exact scope index note note.chunkRow scope.buildChunkCondition) ↔ Agrees scope note := by
  have hfts : Exact scope index note note.row scope.buildFtsCondition ↔ Agrees scope note := by
    rw [Exact, selects_fts, isPathInScope_iff, agrees_iff]
  have hvector : Exact scope index note note.row scope.buildVectorCondition ↔
      Agrees scope note := by
    rw [Exact, selects_vector, isPathInScope_iff, agrees_iff]
  have hchunk : Exact scope index note note.chunkRow scope.buildChunkCondition ↔
      Agrees scope note := by
    rw [Exact, selects_chunk hnote, isPathInScope_iff, agrees_iff]
  rw [hfts, hvector, hchunk, and_self, and_self]

end

/-! ## A vault with one note -/

/-- A vault without domains and without temporal records. -/
def plainVault : Vault where
  registry := .ok []
  records := ∅
  order := Enumeration.sorted ∅
  today := 0

/-- A request for the notes under one directory. -/
def underDirectory (directory : String) : SearchScope where
  domainIds := []
  pathPrefixes := [directory]
  sourceTypes := []
  trustStates := []
  temporalBoundary := some ⟨0, false⟩
  projectIds := []
  includeArchived := false
  includeQuarantine := false

/-- The scope such a request compiles to. -/
def directoryScope (directory : String) : ResolvedSearchScope :=
  resolvedScope plainVault (some (underDirectory directory)) none .current none []

def projectNote : Note := ⟨"projects/a.md", some "Project"⟩

def projectIndex : Index := ⟨[projectNote], by decide⟩

theorem mem_projectIndex : projectNote ∈ projectIndex.notes := List.mem_singleton_self _

attribute [local instance] PythonText.ascii

theorem compiles_directoryScope (directory : String) :
    compileSearchScope plainVault (some (underDirectory directory)) none .current none none =
      .ok (directoryScope directory) := rfl

/-- A prefix in the letters of the directory selects and admits the note. -/
theorem conditions_exact_lower : Agrees (directoryScope "projects") projectNote :=
  (conditions_exact mem_projectIndex).mp
    ⟨iff_of_true (by decide +kernel) (by decide +kernel),
      iff_of_true (by decide +kernel) (by decide +kernel),
      iff_of_true (by decide +kernel) (by decide +kernel)⟩

/-- A prefix in other letters than the directory selects the note but does not let it in. -/
theorem conditions_exact_capital : ∃ resolved,
    compileSearchScope plainVault (some (underDirectory "Projects")) none .current none none =
      .ok resolved ∧ projectNote ∈ projectIndex.notes ∧
    Selects projectIndex projectNote.row resolved.buildFtsCondition ∧
    ¬resolved.isPathInScope projectNote.relPath projectNote.noteType = true :=
  ⟨directoryScope "Projects", compiles_directoryScope "Projects", mem_projectIndex,
    by decide +kernel, by decide +kernel⟩

end PowerFramework.Search
