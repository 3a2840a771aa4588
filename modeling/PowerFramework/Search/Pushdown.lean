import PowerFramework.Search.Scope
/-!
# Pushdown

What the conditions of a scope say about the row of a note, and what the test of the scope says
about its path and its type, dimension by dimension.
-/

namespace PowerFramework.Search

open Lib Lib.Sql Lib.Json Ledger

/-! ## Patterns -/

theorem wilds_doubled (lead rest : List Char) :
    wilds backslash false (doubled '_' (doubled '%' (doubled backslash lead)) ++ rest) =
      (wilds backslash false rest).map (lead.map Wild.char ++ ·) := by
  have hspell : doubled '_' (doubled '%' (doubled backslash lead)) =
      lead.flatMap fun c =>
        if c = backslash ∨ c = '%' ∨ c = '_' then [backslash, c] else [c] := by
    induction lead with
    | nil => rfl
    | cons c lead ih =>
        simp only [doubled, List.flatMap_cons, List.flatMap_append] at ih ⊢
        rw [ih]
        congr 1
        by_cases hslash : c = backslash
        · subst hslash
          rfl
        · by_cases hsequence : c = '%'
          · subst hsequence
            rfl
          · by_cases hsingle : c = '_'
            · subst hsingle
              rfl
            · simp [hslash, hsequence, hsingle]
  rw [hspell]
  apply wilds_flatMap
  intro c rest
  split_ifs with h
  · exact wilds_escape (by decide)
  · simp only [not_or] at h
    exact wilds_plain ⟨h.2.1, h.2.2, h.1⟩

/-- The escaped pattern of a directory covers the paths under it in some letter case. -/
theorem likeText_directory (path lead : String) :
    likeText path (escapeLikeWildcards lead ++ "/%") = true ↔
      lowered (lead.toList ++ ['/']) <+: lowered path.toList := by
  have hwilds : wilds backslash false (escapeLikeWildcards lead ++ "/%").toList =
      some ((lead.toList ++ ['/']).map Wild.char ++ [.sequence]) := by
    rw [String.toList_append, escapeLikeWildcards, String.toList_ofList, wilds_doubled,
      List.map_append, List.append_assoc]
    rfl
  rw [likeText, like, hwilds]
  exact covers_word

/-- A pattern whose word has no wildcard. -/
theorem likeText_word {path pattern : String} {word : List Char}
    (h : wilds backslash false pattern.toList = some (word.map Wild.char ++ [.sequence])) :
    likeText path pattern = true ↔ lowered word <+: lowered path.toList := by
  rw [likeText, like, h]
  exact covers_word

theorem likeText_within {path pattern : String} {word : List Char}
    (h : wilds backslash false pattern.toList =
      some (.sequence :: (word.map Wild.char ++ [.sequence]))) :
    likeText path pattern = true ↔ lowered word <:+: lowered path.toList := by
  rw [likeText, like, h]
  exact covers_within

/-- A pattern with one wildcard character in its word. -/
theorem likeText_single {path pattern : String} {front back : List Char}
    (h : wilds backslash false pattern.toList =
      some (front.map Wild.char ++ .single :: (back.map Wild.char ++ [.sequence]))) :
    likeText path pattern = true ↔
      ∃ c, lowered (front ++ c :: back) <+: lowered path.toList := by
  rw [likeText, like, h]
  change covers _ path.toList = true ↔ _
  rw [covers_chars]
  constructor
  · rintro ⟨tail, hlowered, -, hcovers⟩
    cases tail with
    | nil => cases hcovers
    | cons c tail =>
        obtain ⟨rest, hrest⟩ := covers_word.mp hcovers
        refine ⟨c, rest, ?_⟩
        rw [hlowered, lowered_append, List.append_assoc]
        change lowered front ++ (c.toLower :: (lowered back ++ rest)) = _
        rw [hrest]
        rfl
  · rintro ⟨c, rest, hrest⟩
    have hlength : lowered (path.toList.drop front.length) = c.toLower :: (lowered back ++ rest) := by
      rw [lowered, List.map_drop]
      change (lowered path.toList).drop front.length = _
      rw [← hrest, lowered_append, List.append_assoc, ← length_lowered front, List.drop_left]
      rfl
    refine ⟨path.toList.drop front.length, ?_, rfl, ?_⟩
    · rw [hlength, ← hrest, lowered_append, List.append_assoc]
      rfl
    · cases hdrop : path.toList.drop front.length with
      | nil => simp [hdrop, lowered] at hlength
      | cons d tail =>
          rw [hdrop] at hlength
          injection hlength with _ htail
          exact covers_word.mpr ⟨rest, htail.symm⟩

/-! ## Clauses -/

section
variable {table : List (Row Column)} {row : Row Column} {col : Column} {path : String}

theorem holds_equals {text : String} :
    Clause.Holds table row ⟨.equals col .parameter, [text], rfl⟩ ↔ row col = some text := by
  rw [Clause.Holds, Condition.eval, compare_eq_true]
  constructor
  · rintro ⟨a, b, ha, hb, hab⟩
    injection hb with hb
    rw [ha, hb, eq_of_beq hab]
  · intro h
    exact ⟨text, text, h, rfl, beq_self_eq_true text⟩

theorem holds_differs {text : String} (h : row col = some path) :
    Clause.Holds table row ⟨.differs col (.literal text), [], rfl⟩ ↔ path ≠ text := by
  rw [Clause.Holds, Condition.eval, compare_eq_true, h]
  simp [Operand.text]

theorem holds_like {pattern : String} (h : row col = some path) :
    Clause.Holds table row ⟨.like col .parameter, [pattern], rfl⟩ ↔
      likeText path pattern = true := by
  rw [Clause.Holds, Condition.eval, compare_eq_true, h]
  simp [Operand.text]

theorem holds_unlike {pattern : String} (h : row col = some path) :
    (ResolvedSearchScope.unlikeClause col pattern).Holds table row ↔
      ¬likeText path pattern = true := by
  rw [Clause.Holds, ResolvedSearchScope.unlikeClause, Condition.eval, not_compare_eq_true, h]
  simp [Operand.text]

end

/-! ## Path dimensions -/

/-- A path is a name, or lies under it in some letter case unless the name ends in `.md`. -/
def Reaches (path name : String) : Prop :=
  path = name ∨ Text.endsWith ".md" name = false ∧
    lowered (name.toList ++ ['/']) <+: lowered path.toList

/-- The reading of the prefixes by the conditions: no prefix has a name, or one of the names
reaches the path as it is stored. -/
def Reached (prefixes : List String) (path : String) : Prop :=
  (∀ lead ∈ prefixes, cleanPath lead = "") ∨
    ∃ lead ∈ prefixes, cleanPath lead ≠ "" ∧ Reaches path (cleanPath lead)

/-- The reading of the prefixes by the test: the stripped path is one of the names or lies under
one, letter by letter. -/
def Covered (prefixes : List String) (path : String) : Prop :=
  ∃ lead ∈ prefixes, cleanPath lead ≠ "" ∧
    (cleanPath path = cleanPath lead ∨ startsWith (cleanPath lead ++ "/") (cleanPath path) = true)

theorem matchesAnyPrefix_iff {prefixes : List String} {path : String} :
    matchesAnyPrefix (cleanPath path) prefixes = true ↔ Covered prefixes path := by
  simp [matchesAnyPrefix, Covered]

theorem holds_prefixPart {table : List (Row Column)} {row : Row Column} {col : Column}
    {path : String} (h : row col = some path) (name : String) :
    (prefixPart col name).Holds table row ↔ Reaches path name := by
  unfold prefixPart
  split_ifs with hmd
  · rw [holds_equals, h, Option.some.injEq]
    simp [Reaches, hmd]
  · rw [Clause.holds_or, holds_equals, h, Option.some.injEq, holds_like h, likeText_directory]
    simp [Reaches, hmd]

theorem holds_buildPrefixOrClause {table : List (Row Column)} {row : Row Column} {col : Column}
    {path : String} (h : row col = some path) (prefixes : List String) :
    (∀ clause ∈ buildPrefixOrClause prefixes col, clause.Holds table row) ↔
      Reached prefixes path := by
  have hmem (name : String) : name ∈ (prefixes.map cleanPath).filter (· ≠ "") ↔
      ∃ lead ∈ prefixes, cleanPath lead ≠ "" ∧ cleanPath lead = name := by
    simp only [List.mem_filter, List.mem_map, decide_eq_true_eq]
    constructor
    · rintro ⟨⟨lead, hlead, rfl⟩, hname⟩
      exact ⟨lead, hlead, hname, rfl⟩
    · rintro ⟨lead, hlead, hname, rfl⟩
      exact ⟨⟨lead, hlead, rfl⟩, hname⟩
  unfold buildPrefixOrClause
  dsimp only
  generalize (prefixes.map cleanPath).filter (· ≠ "") = cleaned at hmem
  have hany : (∃ clause ∈ disjunction (cleaned.map (prefixPart col)), clause.Holds table row) ↔
      ∃ name ∈ cleaned, Reaches path name := by
    rw [holds_disjunction]
    simp only [List.mem_map, exists_exists_and_eq_and, holds_prefixPart h]
  have hreach : (∃ name ∈ cleaned, Reaches path name) ↔
      ∃ lead ∈ prefixes, cleanPath lead ≠ "" ∧ Reaches path (cleanPath lead) := by
    constructor
    · rintro ⟨name, hname, hreaches⟩
      obtain ⟨lead, hlead, hne, rfl⟩ := (hmem name).mp hname
      exact ⟨lead, hlead, hne, hreaches⟩
    · rintro ⟨lead, hlead, hne, hreaches⟩
      exact ⟨cleanPath lead, (hmem _).mpr ⟨lead, hlead, hne, rfl⟩, hreaches⟩
  rw [Reached, ← hreach, ← hany]
  cases cleaned with
  | nil =>
      have hblank : ∀ lead ∈ prefixes, cleanPath lead = "" := by
        intro lead hlead
        by_contra hne
        cases (hmem (cleanPath lead)).mpr ⟨lead, hlead, hne, rfl⟩
      exact iff_of_true (fun clause hclause => nomatch hclause) (Or.inl hblank)
  | cons name names =>
      have hnamed : ¬∀ lead ∈ prefixes, cleanPath lead = "" := by
        intro hblank
        obtain ⟨lead, hlead, hne, -⟩ := (hmem name).mp (List.mem_cons_self ..)
        exact hne (hblank lead hlead)
      simp [disjunction, hnamed]

/-! ## All dimensions -/

/-- What a scope restricts. -/
inductive Dimension where
  | domains | explicitPaths | combined | archive | archiveType | quarantine | sourceTypes
  | exclusions
  deriving DecidableEq, Repr

/-- The path lies in the archive directory for `LIKE`: the underscore of the pattern covers any
character, and the letters are of any case. -/
def LikeArchive (path : String) : Prop :=
  ∃ c, lowered ("04".toList ++ c :: "Archive/".toList) <+: lowered path.toList

/-- The path lies in a quarantine directory for `LIKE`, whose letters are of any case. -/
def LikeQuarantine (path : String) : Prop :=
  lowered ".quarantine/".toList <+: lowered path.toList ∨
    lowered "quarantine/".toList <+: lowered path.toList ∨
    lowered "/.quarantine/".toList <:+: lowered path.toList ∨
    lowered "/quarantine/".toList <:+: lowered path.toList

/-- The reading of a dimension by the conditions on the row of a note. -/
def Pushed (scope : ResolvedSearchScope) (note : Note) : Dimension → Prop
  | .domains => Reached scope.domainPathPrefixes note.relPath
  | .explicitPaths => Reached scope.explicitPathPrefixes note.relPath
  | .combined => scope.domainPathPrefixes = [] → scope.explicitPathPrefixes = [] →
      Reached scope.pathPrefixes note.relPath
  | .archive => scope.includeArchived = false →
      note.relPath ≠ "04_Archive" ∧ ¬LikeArchive note.relPath
  | .archiveType => scope.includeArchived = false → note.noteType ≠ some "Archive"
  | .quarantine => scope.includeQuarantine = false → ¬LikeQuarantine note.relPath
  | .sourceTypes => scope.sourceTypes ≠ [] → ∃ text ∈ scope.sourceTypes, note.noteType = some text
  | .exclusions => (sortedSet scope.excludedTemporalPaths).length ≤ 900 →
      note.relPath ∉ scope.excludedTemporalPaths

/-- The path lies in the archive directory. -/
def InArchive (path : String) : Prop :=
  path = "04_Archive" ∨ startsWith "04_Archive/" path = true

/-- The path lies in a quarantine directory. -/
def InQuarantine (path : String) : Prop :=
  startsWith ".quarantine/" path = true ∨ startsWith "quarantine/" path = true ∨
    isWithin "/.quarantine/" path = true ∨ isWithin "/quarantine/" path = true

/-- The reading of a dimension by the test on the path and the type of a note. -/
def Required [PythonText] (scope : ResolvedSearchScope) (note : Note) : Dimension → Prop
  | .domains => scope.domainPathPrefixes ≠ [] → Covered scope.domainPathPrefixes note.relPath
  | .explicitPaths => scope.explicitPathPrefixes ≠ [] →
      Covered scope.explicitPathPrefixes note.relPath
  | .combined => scope.domainPathPrefixes = [] → scope.explicitPathPrefixes = [] →
      scope.pathPrefixes ≠ [] → Covered scope.pathPrefixes note.relPath
  | .archive => scope.includeArchived = false → ¬InArchive (cleanPath note.relPath)
  | .archiveType => scope.includeArchived = false →
      ∀ text ∈ note.noteType, PythonText.casefold text ≠ "archive"
  | .quarantine => scope.includeQuarantine = false → ¬InQuarantine (cleanPath note.relPath)
  | .sourceTypes => scope.sourceTypes ≠ [] → ∀ text ∈ note.noteType,
      ∃ other ∈ scope.sourceTypes, PythonText.casefold text = PythonText.casefold other
  | .exclusions => cleanPath note.relPath ∉ scope.excludedTemporalPaths

theorem forall_dimension {p : Dimension → Prop} : (∀ d, p d) ↔
    p .domains ∧ p .explicitPaths ∧ p .combined ∧ p .archive ∧ p .archiveType ∧ p .quarantine ∧
      p .sourceTypes ∧ p .exclusions := by
  constructor
  · intro h
    exact ⟨h _, h _, h _, h _, h _, h _, h _, h _⟩
  · rintro ⟨h1, h2, h3, h4, h5, h6, h7, h8⟩ (_ | _) <;> assumption

theorem refused_else {p : Prop} [Decidable p] {b : Bool} :
    (if p then false else b) = true ↔ ¬p ∧ b = true := by
  split_ifs with h <;> simp [h]

section
variable [PythonText] {scope : ResolvedSearchScope} {note : Note}

theorem required_archive :
    ¬(!scope.includeArchived && (cleanPath note.relPath = "04_Archive" ||
      startsWith "04_Archive/" (cleanPath note.relPath))) = true ↔
      Required scope note .archive := by
  simp [Required, InArchive]

theorem required_archiveType :
    ¬(!scope.includeArchived && note.noteType.any (PythonText.casefold · = "archive")) = true ↔
      Required scope note .archiveType := by
  cases hnote : note.noteType <;> simp [Required, hnote]

theorem required_quarantine :
    ¬(!scope.includeQuarantine && (startsWith ".quarantine/" (cleanPath note.relPath) ||
      startsWith "quarantine/" (cleanPath note.relPath) ||
      isWithin "/.quarantine/" (cleanPath note.relPath) ||
      isWithin "/quarantine/" (cleanPath note.relPath))) = true ↔
      Required scope note .quarantine := by
  simp [Required, InQuarantine, and_assoc]

omit [PythonText] in
theorem required_prefixes {prefixes : List String} {path : String} :
    ¬(prefixes ≠ [] && !matchesAnyPrefix (cleanPath path) prefixes) = true ↔
      (prefixes ≠ [] → Covered prefixes path) := by
  rw [← matchesAnyPrefix_iff]
  simp

theorem required_combined :
    ¬(scope.domainPathPrefixes = [] && scope.explicitPathPrefixes = [] &&
      scope.pathPrefixes ≠ [] && !matchesAnyPrefix (cleanPath note.relPath) scope.pathPrefixes) =
        true ↔ Required scope note .combined := by
  rw [Required, ← matchesAnyPrefix_iff]
  simp

theorem required_sourceTypes :
    ¬(scope.sourceTypes ≠ [] && note.noteType.any fun noteType =>
      PythonText.casefold noteType ∉ scope.sourceTypes.map PythonText.casefold) = true ↔
      Required scope note .sourceTypes := by
  have hmem (text : String) : text ∈ scope.sourceTypes.map PythonText.casefold ↔
      ∃ other ∈ scope.sourceTypes, text = PythonText.casefold other := by
    rw [List.mem_map]
    exact exists_congr fun other => and_congr_right fun _ => eq_comm
  cases hnote : note.noteType <;> simp [Required, hnote, ← hmem]

/-- The test of the scope is the conjunction of its readings. -/
theorem isPathInScope_iff :
    scope.isPathInScope note.relPath note.noteType = true ↔ ∀ d, Required scope note d := by
  have hexclusions : (!(scope.excludedTemporalPaths ≠ [] &&
      cleanPath note.relPath ∈ scope.excludedTemporalPaths)) = true ↔
      Required scope note .exclusions := by
    have hne : cleanPath note.relPath ∈ scope.excludedTemporalPaths →
        scope.excludedTemporalPaths ≠ [] := fun h => List.ne_nil_of_mem h
    simp only [Required, Bool.not_eq_true', Bool.and_eq_false_iff, decide_eq_false_iff_not]
    tauto
  rw [forall_dimension]
  unfold ResolvedSearchScope.isPathInScope
  simp only [refused_else]
  rw [required_archive, required_archiveType, required_quarantine, required_prefixes,
    required_prefixes, required_combined, required_sourceTypes, hexclusions]
  simp only [Required]
  tauto

end

/-! ## The conditions -/

section
variable {scope : ResolvedSearchScope} {note : Note} {table : List (Row Column)}
  {row : Row Column} {col : Column} {path : String}

theorem holds_pathClauses (h : row col = some note.relPath) :
    (∀ clause ∈ scope.pathClauses col, clause.Holds table row) ↔
      Pushed scope note .domains ∧ Pushed scope note .explicitPaths ∧
        Pushed scope note .combined := by
  have hnil (path : String) : Reached [] path := Or.inl fun _ h => nomatch h
  have hbuild (prefixes : List String) :
      (∀ clause ∈ (buildPrefixOrClause prefixes col).toList, clause.Holds table row) ↔
        Reached prefixes note.relPath := by
    have hclauses : (∀ clause ∈ buildPrefixOrClause prefixes col, clause.Holds table row) ↔
        Reached prefixes note.relPath := holds_buildPrefixOrClause h prefixes
    rw [← hclauses]
    simp
  unfold ResolvedSearchScope.pathClauses
  by_cases hdomain : scope.domainPathPrefixes = []
  · by_cases hexplicit : scope.explicitPathPrefixes = []
    · by_cases hpaths : scope.pathPrefixes = []
      · simp [Pushed, hdomain, hexplicit, hpaths, hnil]
      · simp only [Pushed, hdomain, hexplicit, ne_eq, not_true_eq_false, or_self, if_false, hpaths,
          not_false_eq_true, if_true, hbuild, hnil, true_and, forall_const]
    · simp only [Pushed, hdomain, hexplicit, ne_eq, not_true_eq_false, not_false_eq_true, false_or,
        if_true, if_false, List.nil_append, hbuild, hnil, true_and, false_implies, implies_true,
        and_true]
  · by_cases hexplicit : scope.explicitPathPrefixes = []
    · simp only [Pushed, hdomain, hexplicit, ne_eq, not_true_eq_false, not_false_eq_true, or_false,
        if_true, if_false, List.append_nil, hbuild, hnil, false_implies, and_true]
    · simp only [Pushed, hdomain, hexplicit, ne_eq, not_false_eq_true, or_self, if_true,
        List.forall_mem_append, hbuild, false_implies, and_true]

theorem holds_archiveClause (h : row col = some path) :
    (ResolvedSearchScope.archiveClause col).Holds table row ↔
      path ≠ "04_Archive" ∧ ¬LikeArchive path := by
  have hlike : likeText path "04_Archive/%" = true ↔ LikeArchive path := likeText_single rfl
  rw [ResolvedSearchScope.archiveClause, Clause.holds_and, holds_differs h, ← hlike]
  exact and_congr_right fun _ => holds_unlike h

theorem holds_quarantineClause (h : row col = some path) :
    (ResolvedSearchScope.quarantineClause col).Holds table row ↔ ¬LikeQuarantine path := by
  have hhidden : likeText path ".quarantine/%" = true ↔
      lowered ".quarantine/".toList <+: lowered path.toList := likeText_word rfl
  have hshown : likeText path "quarantine/%" = true ↔
      lowered "quarantine/".toList <+: lowered path.toList := likeText_word rfl
  have hbelow : likeText path "%/.quarantine/%" = true ↔
      lowered "/.quarantine/".toList <:+: lowered path.toList := likeText_within rfl
  have hwithin : likeText path "%/quarantine/%" = true ↔
      lowered "/quarantine/".toList <:+: lowered path.toList := likeText_within rfl
  simp only [ResolvedSearchScope.quarantineClause, Clause.holds_and, holds_unlike h, hhidden,
    hshown, hbelow, hwithin, LikeQuarantine, not_or, and_assoc]

theorem holds_notIn {excluded : List String} (h : row col = some path) :
    Clause.Holds table row ⟨.notIn col excluded.length, excluded, rfl⟩ ↔ path ∉ excluded := by
  rw [Clause.Holds, Condition.eval, h, not_member_eq_true (by simp)]
  cases excluded with
  | nil => simp
  | cons other excluded => simp

theorem holds_exclusionClauses (h : row col = some note.relPath) :
    (∀ clause ∈ scope.exclusionClauses col, clause.Holds table row) ↔
      Pushed scope note .exclusions := by
  have hmem : note.relPath ∈ sortedSet scope.excludedTemporalPaths ↔
      note.relPath ∈ scope.excludedTemporalPaths := mem_sortedSet
  unfold ResolvedSearchScope.exclusionClauses
  dsimp only
  rw [Pushed, ← hmem]
  split_ifs with hne hlength
  · rw [List.forall_mem_singleton, holds_notIn h]
    exact ⟨fun h _ => h, fun h => h hlength⟩
  · exact iff_of_true (fun clause hclause => absurd hclause List.not_mem_nil)
      fun h => absurd h hlength
  · rw [not_ne_iff] at hne
    simp [hne]

theorem holds_typeClause (h : row col = note.noteType) (harchived : scope.includeArchived = false) :
    (ResolvedSearchScope.typeClause col).Holds table row ↔ Pushed scope note .archiveType := by
  rw [ResolvedSearchScope.typeClause, Clause.holds_or, Pushed]
  cases htype : note.noteType with
  | none =>
      have hnull : Clause.Holds table row ⟨.isNull col, [], rfl⟩ := by
        simp [Clause.Holds, Condition.eval, h, htype]
      simp [hnull]
  | some text =>
      have hnull : ¬Clause.Holds table row ⟨.isNull col, [], rfl⟩ := by
        simp [Clause.Holds, Condition.eval, h, htype]
      rw [holds_differs (h.trans htype)]
      simp [hnull, harchived]

theorem holds_isIn {types : List String} :
    Clause.Holds table row ⟨.isIn col types.length, types, rfl⟩ ↔
      ∃ text ∈ types, row col = some text := by
  rw [Clause.Holds, Condition.eval, member_eq_true]
  constructor
  · rintro ⟨text, htext, hmem⟩
    obtain ⟨other, hother, heq⟩ := List.mem_map.mp hmem
    injection heq with heq
    exact ⟨text, heq ▸ hother, htext⟩
  · rintro ⟨text, hmem, htext⟩
    exact ⟨text, htext, List.mem_map_of_mem hmem⟩

theorem holds_archive (h : row col = some note.relPath) {typeClauses : List (Clause Column)}
    (htypes : scope.includeArchived = false → ((∀ clause ∈ typeClauses, clause.Holds table row) ↔
      Pushed scope note .archiveType)) :
    (∀ clause ∈ (if scope.includeArchived then []
      else ResolvedSearchScope.archiveClause col :: typeClauses), clause.Holds table row) ↔
      Pushed scope note .archive ∧ Pushed scope note .archiveType := by
  cases hincluded : scope.includeArchived with
  | true => simp [Pushed, hincluded]
  | false =>
      rw [if_neg Bool.false_ne_true, List.forall_mem_cons, holds_archiveClause h,
        htypes hincluded]
      simp [Pushed, hincluded]

theorem holds_quarantine (h : row col = some note.relPath) :
    (∀ clause ∈ (if scope.includeQuarantine then []
      else [ResolvedSearchScope.quarantineClause col]), clause.Holds table row) ↔
      Pushed scope note .quarantine := by
  cases hincluded : scope.includeQuarantine with
  | true => simp [Pushed, hincluded]
  | false =>
      rw [if_neg Bool.false_ne_true, List.forall_mem_singleton, holds_quarantineClause h]
      simp [Pushed, hincluded]

theorem holds_types {typeClauses : List (Clause Column)}
    (htypes : (∀ clause ∈ typeClauses, clause.Holds table row) ↔
      ∃ text ∈ scope.sourceTypes, note.noteType = some text) :
    (∀ clause ∈ (if scope.sourceTypes ≠ [] then typeClauses else []),
      clause.Holds table row) ↔ Pushed scope note .sourceTypes := by
  split_ifs with hne
  · rw [htypes, Pushed]
    exact ⟨fun h _ => h, fun h => h hne⟩
  · exact iff_of_true (fun clause hclause => nomatch hclause) fun h => absurd h hne

/-- The conditions on a row with the path and the type of the note are its readings. -/
theorem buildSqlConditions_iff {typeCol : Column} (h : row col = some note.relPath)
    (htype : row typeCol = note.noteType) :
    (∀ clause ∈ scope.buildSqlConditions col (some typeCol), clause.Holds table row) ↔
      ∀ d, Pushed scope note d := by
  rw [ResolvedSearchScope.buildSqlConditions, holds_conjunction, List.forall_mem_append,
    List.forall_mem_append, List.forall_mem_append, List.forall_mem_append, holds_pathClauses h,
    holds_archive h, holds_quarantine h, holds_types, holds_exclusionClauses h, forall_dimension]
  · tauto
  · simp [holds_isIn, htype]
  · intro hincluded
    simp [holds_typeClause htype hincluded]

end

/-! ## The table of the notes -/

section
variable {index : Index} {note : Note}

/-- The paths a subquery selects name the notes that satisfy its condition. -/
theorem Index.selected_iff (hnote : note ∈ index.notes) (test : Row Column → Bool) :
    some note.relPath ∈ (index.table.filter test).map (· .relPath) ↔ test note.row = true := by
  simp only [Index.table, List.mem_map, List.mem_filter]
  constructor
  · rintro ⟨_, ⟨⟨other, hother, rfl⟩, htest⟩, heq⟩
    injection heq with heq
    rwa [List.inj_on_of_nodup_map index.distinct hnote hother heq.symm]
  · intro htest
    exact ⟨note.row, ⟨⟨note, hnote, rfl⟩, htest⟩, rfl⟩

theorem Index.none_notMem (test : Row Column → Bool) :
    none ∉ (index.table.filter test).map (· .relPath) := by
  simp only [Index.table, List.mem_map, List.mem_filter, not_exists, not_and]
  rintro _ ⟨⟨other, -, rfl⟩, -⟩ h
  cases h

theorem holds_notSelected (hnote : note ∈ index.notes) {condition : Condition Column}
    {parameters : List String} {full} :
    Clause.Holds index.table note.chunkRow
      ⟨.notSelected .relPath .relPath condition, parameters, full⟩ ↔
      condition.eval index.table note.row parameters ≠ some true := by
  rw [Clause.Holds, Condition.eval, not_member_eq_true (Index.none_notMem _)]
  have hselected := Index.selected_iff hnote fun other =>
    condition.eval index.table other parameters == some true
  rw [beq_iff_eq] at hselected
  rw [Ne, ← hselected]
  constructor
  · rintro (hnil | ⟨text, htext, hmem⟩)
    · rw [hnil]
      exact List.not_mem_nil
    · injection htext with htext
      rwa [htext]
  · intro hmem
    exact Or.inr ⟨note.relPath, rfl, hmem⟩

theorem holds_isSelected (hnote : note ∈ index.notes) {condition : Condition Column}
    {parameters : List String} {full} :
    Clause.Holds index.table note.chunkRow
      ⟨.isSelected .relPath .relPath condition, parameters, full⟩ ↔
      condition.eval index.table note.row parameters = some true := by
  rw [Clause.Holds, Condition.eval, member_eq_true]
  have hselected := Index.selected_iff hnote fun other =>
    condition.eval index.table other parameters == some true
  rw [beq_iff_eq] at hselected
  rw [← hselected]
  constructor
  · rintro ⟨text, htext, hmem⟩
    injection htext with htext
    rwa [htext]
  · intro hmem
    exact ⟨note.relPath, rfl, hmem⟩

/-! ## The three builders -/

variable {scope : ResolvedSearchScope}

theorem selects_fts : Selects index note.row scope.buildFtsCondition ↔ ∀ d, Pushed scope note d :=
  buildSqlConditions_iff rfl rfl

theorem selects_vector :
    Selects index note.row scope.buildVectorCondition ↔ ∀ d, Pushed scope note d :=
  buildSqlConditions_iff rfl rfl

/-- The subqueries look up the type of the note that the chunk belongs to. -/
theorem selects_chunk (hnote : note ∈ index.notes) :
    Selects index note.chunkRow scope.buildChunkCondition ↔ ∀ d, Pushed scope note d := by
  have h : note.chunkRow .relPath = some note.relPath := rfl
  rw [Selects, ResolvedSearchScope.buildChunkCondition, holds_conjunction, List.forall_mem_append,
    List.forall_mem_append, List.forall_mem_append, List.forall_mem_append, holds_pathClauses h,
    holds_archive h, holds_quarantine h, holds_types, holds_exclusionClauses h, forall_dimension]
  · tauto
  · rw [List.forall_mem_singleton]
    exact (holds_isSelected hnote).trans (holds_isIn : Clause.Holds index.table note.row
      ⟨.isIn .noteType scope.sourceTypes.length, scope.sourceTypes, rfl⟩ ↔ _)
  · intro hincluded
    have harchive : (Condition.equals Column.noteType (.literal "Archive")).eval index.table
        note.row [] = some true ↔ note.noteType = some "Archive" := by
      rw [Condition.eval, compare_eq_true]
      change (∃ a b, note.noteType = some a ∧ some "Archive" = some b ∧ (a == b) = true) ↔ _
      constructor
      · rintro ⟨a, b, ha, hb, hab⟩
        injection hb with hb
        rw [ha, hb, eq_of_beq hab]
      · intro h
        exact ⟨"Archive", "Archive", h, rfl, rfl⟩
    rw [List.forall_mem_singleton]
    apply (holds_notSelected hnote).trans
    rw [Ne, harchive]
    simp [Pushed, hincluded]

end

end PowerFramework.Search
