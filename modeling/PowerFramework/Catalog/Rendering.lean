import PowerFramework.Catalog.Exactness
import PowerFramework.Catalog.Index
import PowerFramework.Lib.Grouping
/-!
# Rendering the catalogs

What a run does to the pages of one directory: nothing, unless it renders the directory, and then
it leaves the whole catalog (`lookup_writeCatalogPages`).  From this, what the loop over the
directories leaves (`renderDirs_full`), also where it is stopped (`renderDirs_frame`).
-/

namespace PowerFramework.Catalog

open Lib Lib.Failure Lib.Json TaskStore
open Memory (indexFolders)

/-! ## One directory of two catalogs -/

/-- Two catalogs have the same pages in a directory. -/
def SamePages (dir : RelPath) (catalogs others : CatalogFiles) : Prop :=
  ∀ path, path.dropLast = dir → catalogs.lookup path = others.lookup path

section
variable {catalogs others : CatalogFiles} {dir path : RelPath}

theorem SamePages.refl (dir : RelPath) (catalogs : CatalogFiles) : SamePages dir catalogs catalogs :=
  fun _ _ => rfl

theorem SamePages.symm (h : SamePages dir catalogs others) : SamePages dir others catalogs :=
  fun path hpath => (h path hpath).symm

theorem SamePages.trans {more : CatalogFiles} (h : SamePages dir catalogs others)
    (h' : SamePages dir others more) : SamePages dir catalogs more :=
  fun path hpath => (h path hpath).trans (h' path hpath)

theorem SamePages.mem_iff (h : SamePages dir catalogs others) (hpath : path.dropLast = dir) :
    path ∈ catalogs ↔ path ∈ others := by
  rw [← AList.lookup_isSome, ← AList.lookup_isSome, h path hpath]

theorem SamePages.owns (h : SamePages dir catalogs others) (hpath : path.dropLast = dir) :
    ownsCatalog catalogs path = ownsCatalog others path := by
  rw [ownsCatalog, ownsCatalog, h path hpath]

theorem mem_catalogFiles : path ∈ catalogFiles catalogs dir ↔ path ∈ catalogs ∧ path.dropLast = dir := by
  rw [catalogFiles, List.mem_insertionSort, List.mem_filter, decide_eq_true_iff, AList.mem_keys]

theorem ownsCatalog_mem (h : ownsCatalog catalogs path = true) : path ∈ catalogs := by
  rw [ownsCatalog, Option.any_eq_true] at h
  obtain ⟨text, htext, -⟩ := h
  exact AList.lookup_isSome.mp (by rw [htext]; rfl)

variable [PythonText]

/-- A directory is current when its files are the pages that the first of them declares. -/
theorem catalogIsCurrent_iff : catalogIsCurrent catalogs dir = true ↔
    ∃ text pageCount, catalogs.lookup (dir ++ ["_index.md"]) = some text ∧
      isOwnedCatalog (dir ++ ["_index.md"]) text = true ∧
      ("x-index-renderer: " ++ toString indexRendererVersion).toList <:+: pageStart text ∧
      declaredPages text = some pageCount ∧
      (∀ path ∈ catalogs, path.dropLast = dir →
        ∃ i < pageCount.toNat, dir ++ [catalogPageFilename (i + 1)] = path) ∧
      ∀ i < pageCount.toNat, ownsCatalog catalogs (dir ++ [catalogPageFilename (i + 1)]) = true := by
  unfold catalogIsCurrent
  cases hlanding : catalogs.lookup (dir ++ ["_index.md"]) with
  | none => simp
  | some text =>
    cases hpages : declaredPages text with
    | none => simp [hpages]
    | some pageCount =>
      simp only [hpages, Bool.and_eq_true, decide_eq_true_eq, List.all_eq_true, List.mem_map,
        List.mem_range, mem_catalogFiles]
      constructor
      · rintro ⟨⟨howned, hrenderer⟩, ⟨hfiles, -⟩, hpages'⟩
        refine ⟨text, pageCount, rfl, howned, hrenderer, hpages,
          fun path hpath hdir => hfiles path ⟨hpath, hdir⟩, fun i hi => hpages' _ ⟨i, hi, rfl⟩⟩
      · rintro ⟨text', pageCount', htext, howned, hrenderer, hcount, hfiles, hpages'⟩
        cases htext
        rw [hpages] at hcount
        cases hcount
        refine ⟨⟨howned, hrenderer⟩, ⟨fun path hpath => hfiles path hpath.1 hpath.2, ?_⟩, ?_⟩
        · rintro path ⟨i, hi, rfl⟩
          exact ⟨ownsCatalog_mem (hpages' i hi), List.dropLast_concat⟩
        · rintro path ⟨i, hi, rfl⟩
          exact hpages' i hi

theorem SamePages.current (h : SamePages dir catalogs others)
    (hcurrent : catalogIsCurrent catalogs dir = true) : catalogIsCurrent others dir = true := by
  rw [catalogIsCurrent_iff] at hcurrent ⊢
  obtain ⟨text, pageCount, htext, howned, hrenderer, hcount, hfiles, hpages⟩ := hcurrent
  refine ⟨text, pageCount, ?_, howned, hrenderer, hcount, ?_, ?_⟩
  · rw [← htext, h _ List.dropLast_concat]
  · intro path hpath hdir
    exact hfiles path ((h.mem_iff hdir).mpr hpath) hdir
  · intro i hi
    rw [← h.owns List.dropLast_concat]
    exact hpages i hi

theorem SamePages.catalogIsCurrent_eq (h : SamePages dir catalogs others) :
    catalogIsCurrent catalogs dir = catalogIsCurrent others dir :=
  Bool.eq_iff_iff.mpr ⟨h.current, h.symm.current⟩

/-- A directory with a file that is not owned is not current. -/
theorem catalogIsCurrent_of_foreign (hmem : path ∈ catalogs)
    (hforeign : ownsCatalog catalogs path = false) (hdir : path.dropLast = dir) :
    catalogIsCurrent catalogs dir = false := by
  rw [Bool.eq_false_iff]
  intro hcurrent
  obtain ⟨text, pageCount, -, -, -, -, hfiles, hpages⟩ := catalogIsCurrent_iff.mp hcurrent
  obtain ⟨i, hi, rfl⟩ := hfiles path hmem hdir
  rw [hpages i hi] at hforeign
  cases hforeign

end

/-! ## Operations -/

/-- The directory of the page that is written or removed. -/
def IndexOp.dir : IndexOp → Option RelPath
  | .writeCache _ | .writeMainIndex => none
  | .writePage path _ | .removePage path => some path.dropLast

section
variable {disk : Disk} {op : IndexOp} {ops : List IndexOp} {dir path : RelPath}
  {pages : List (String × String)} {covered : Bool} {point : Point}

theorem IndexOp.samePages_apply (h : op.dir ≠ some dir) :
    SamePages dir (op.apply disk).catalogs disk.catalogs := by
  intro path hpath
  cases op with
  | writeCache entries => rfl
  | writeMainIndex => rfl
  | writePage other text =>
    have hne : path ≠ other := by
      rintro rfl
      exact h (congrArg some hpath)
    exact AList.lookup_insert_ne hne
  | removePage other =>
    have hne : path ≠ other := by
      rintro rfl
      exact h (congrArg some hpath)
    exact AList.lookup_erase_ne hne

theorem samePages_foldl (h : ∀ op ∈ ops, op.dir ≠ some dir) :
    SamePages dir (ops.foldl IndexOp.apply disk).catalogs disk.catalogs := by
  induction ops generalizing disk with
  | nil => exact SamePages.refl dir _
  | cons op ops ih =>
    rw [List.forall_mem_cons] at h
    exact (ih h.2).trans (IndexOp.samePages_apply h.1)

theorem notes_foldl : (ops.foldl IndexOp.apply disk).notes = disk.notes := by
  induction ops generalizing disk with
  | nil => rfl
  | cons op ops ih =>
    rw [List.foldl_cons, ih]
    cases op <;> rfl

theorem cache_foldl (h : ∀ op ∈ ops, ∀ entries, op ≠ .writeCache entries) :
    (ops.foldl IndexOp.apply disk).cache = disk.cache := by
  induction ops generalizing disk with
  | nil => rfl
  | cons op ops ih =>
    rw [List.forall_mem_cons] at h
    rw [List.foldl_cons, ih h.2]
    cases op with
    | writeCache entries => exact absurd rfl (h.1 entries)
    | writeMainIndex => rfl
    | writePage path text => rfl
    | removePage path => rfl

theorem performOps_disk : (performOps covered ops disk).2 = ops.foldl IndexOp.apply disk := by
  induction ops generalizing disk with
  | nil => rfl
  | cons op ops ih => exact ih

/-- In front of an operation, those before it are done. -/
theorem mem_performOps (h : point ∈ (performOps covered ops disk).1) :
    ∃ done, done <+: ops ∧ point = (done.foldl IndexOp.apply disk, covered) := by
  induction ops generalizing disk with
  | nil => cases h
  | cons op ops ih =>
    rcases List.mem_cons.mp h with rfl | h
    · exact ⟨[], List.nil_prefix, rfl⟩
    · obtain ⟨done, hdone, rfl⟩ := ih h
      exact ⟨op :: done, List.cons_prefix_cons.mpr ⟨rfl, hdone⟩, rfl⟩

/-- A page that is written for the last time keeps its text. -/
theorem lookup_writePages {name : String} (hnames : (pages.map Prod.fst).Nodup) :
    ((pages.map fun page => IndexOp.writePage (dir ++ [page.1]) page.2).foldl IndexOp.apply
      disk).catalogs.lookup (dir ++ [name]) =
        (pages.lookup name).or (disk.catalogs.lookup (dir ++ [name])) := by
  induction pages generalizing disk with
  | nil => rfl
  | cons page pages ih =>
    obtain ⟨other, text⟩ := page
    rw [List.map_cons, List.nodup_cons] at hnames
    rw [List.map_cons, List.foldl_cons, ih hnames.2, List.lookup_cons]
    by_cases hname : name = other
    · subst hname
      have hnone : pages.lookup name = none := by
        cases hfound : pages.lookup name with
        | none => rfl
        | some found =>
          exact absurd (List.mem_map_of_mem (Grouping.mem_of_lookup hfound)) hnames.1
      rw [hnone, beq_self_eq_true, Option.none_or]
      exact AList.lookup_insert _
    · have hpath : dir ++ [name] ≠ dir ++ [other] := by simpa using hname
      rw [beq_false_of_ne hname]
      exact congrArg _ (AList.lookup_insert_ne hpath)

theorem lookup_removePages {paths : List RelPath} :
    ((paths.map IndexOp.removePage).foldl IndexOp.apply disk).catalogs.lookup path =
      if path ∈ paths then none else disk.catalogs.lookup path := by
  induction paths generalizing disk with
  | nil => simp
  | cons other paths ih =>
    rw [List.map_cons, List.foldl_cons, ih]
    by_cases hpath : path = other
    · subst hpath
      rw [if_pos List.mem_cons_self]
      split_ifs
      · rfl
      · exact AList.lookup_erase _ _
    · simp only [List.mem_cons, hpath, false_or]
      split_ifs
      · rfl
      · exact AList.lookup_erase_ne hpath

variable {catalogs : CatalogFiles}

/-- No file is in the way when all files of the directory are owned. -/
theorem blockingFiles_eq_nil_iff :
    blockingFiles catalogs dir (pages.map fun page => dir ++ [page.1]) = [] ↔
      ∀ path ∈ catalogs, path.dropLast = dir → ownsCatalog catalogs path = true := by
  unfold blockingFiles
  simp only [List.append_eq_nil_iff, List.filter_eq_nil_iff, List.mem_append, mem_catalogFiles,
    Bool.and_eq_true, decide_eq_true_eq, Bool.not_eq_true', decide_eq_false_iff_not]
  constructor
  · rintro ⟨hothers, hexpected⟩ path hpath hdir
    by_contra hforeign
    rw [Bool.not_eq_true] at hforeign
    by_cases hmem : path ∈ pages.map fun page => dir ++ [page.1]
    · exact hexpected path hmem ⟨hpath, hforeign⟩
    · exact hothers path (Or.inr ⟨hpath, hdir⟩) ⟨⟨hpath, hmem⟩, hforeign⟩
  · intro howned
    constructor
    · rintro path (hmem | ⟨hpath, hdir⟩) ⟨⟨hpath, hmem'⟩, hforeign⟩
      · exact hmem' hmem
      · rw [howned path hpath hdir] at hforeign
        cases hforeign
    · rintro path hmem ⟨hpath, hforeign⟩
      obtain ⟨page, -, rfl⟩ := List.mem_map.mp hmem
      rw [howned _ hpath List.dropLast_concat] at hforeign
      cases hforeign

theorem dir_of_mem_writeCatalogPages (h : op ∈ writeCatalogPages catalogs dir pages) :
    op.dir = some dir := by
  rcases List.mem_append.mp h with h | h
  · obtain ⟨page, -, rfl⟩ := List.mem_map.mp h
    exact congrArg some List.dropLast_concat
  · obtain ⟨path, hpath, rfl⟩ := List.mem_map.mp h
    exact congrArg some (mem_catalogFiles.mp (List.mem_filter.mp hpath).1).2

theorem cache_writeCatalogPages {done : List IndexOp}
    (h : done <+: writeCatalogPages catalogs dir pages) :
    (done.foldl IndexOp.apply disk).cache = disk.cache := by
  apply cache_foldl
  rintro op hop entries rfl
  cases dir_of_mem_writeCatalogPages (h.subset hop)

/-- Written without anything in the way, a directory has the pages and no other. -/
theorem lookup_writeCatalogPages (hnames : (pages.map Prod.fst).Nodup)
    (howned : ∀ path ∈ disk.catalogs, path.dropLast = dir →
      ownsCatalog disk.catalogs path = true) (name : String) :
    ((writeCatalogPages disk.catalogs dir pages).foldl IndexOp.apply disk).catalogs.lookup
      (dir ++ [name]) = pages.lookup name := by
  rw [writeCatalogPages, List.foldl_append, lookup_removePages, lookup_writePages hnames]
  cases hpage : pages.lookup name with
  | some text =>
    rw [if_neg, Option.some_or]
    intro hremoved
    have hmem := Grouping.mem_of_lookup hpage
    have hnot := (List.mem_filter.mp hremoved).2
    simp only [Bool.and_eq_true, Bool.not_eq_true', decide_eq_false_iff_not] at hnot
    exact hnot.1 (List.mem_map.mpr ⟨_, hmem, rfl⟩)
  | none =>
    rw [Option.none_or]
    split_ifs with hremoved
    · rfl
    · rw [AList.lookup_eq_none]
      intro hmem
      apply hremoved
      rw [List.mem_filter, mem_catalogFiles, howned _ hmem List.dropLast_concat]
      refine ⟨⟨hmem, List.dropLast_concat⟩, ?_⟩
      rw [Bool.and_true, Bool.not_eq_true', decide_eq_false_iff_not, List.mem_map]
      rintro ⟨page, hpage', hname⟩
      rw [List.lookup_eq_none_iff] at hpage
      have hne := hpage page hpage'
      simp at hname hne
      exact hne hname.symm

end

/-! ## The loop over the directories -/

section
variable [WorkingDir] [PythonText]

theorem nodup_of_generateCatalogPages {request : CatalogRequest} {clock : Stream' Instant}
    {pages : List (String × String)} (h : generateCatalogPages request clock = .ok pages) :
    (pages.map Prod.fst).Nodup := by
  unfold generateCatalogPages at h
  obtain ⟨⟨⟩, -, h⟩ := bind_eq_ok.mp h
  obtain ⟨blocks, -, h⟩ := bind_eq_ok.mp h
  obtain ⟨⟨groups, rest⟩, -, h⟩ := bind_eq_ok.mp h
  dsimp only at h
  split at h
  · cases h
  · cases h
    rw [map_fst_renderPages]
    exact List.Nodup.map (fun _ _ => catalogPageFilename_injective) List.nodup_range'

/-- The files of a directory are the pages of its catalog, each rendered at some time. -/
def HoldsCatalog (notes : List (RelPath × NoteInfo)) (catalogs : CatalogFiles) (dir : RelPath) :
    Prop :=
  ∃ clock pages, generateCatalogPages (catalogRequest notes dir) clock = .ok pages ∧
    ∀ name, catalogs.lookup (dir ++ [name]) = pages.lookup name

variable {notes : List (RelPath × NoteInfo)} {catalogs others : CatalogFiles} {dir : RelPath}

theorem SamePages.holds (h : SamePages dir catalogs others)
    (hholds : HoldsCatalog notes catalogs dir) : HoldsCatalog notes others dir := by
  obtain ⟨clock, pages, hpages, hlookup⟩ := hholds
  refine ⟨clock, pages, hpages, fun name => ?_⟩
  rw [← h _ List.dropLast_concat, hlookup]

variable {cached : Option Notes} {entries view : Notes} {clocks : RelPath → Stream' Instant}
  {dirs : List RelPath} {disk : Disk} {point : Point}

omit [WorkingDir] in
theorem SamePages.isRendered_eq (h : SamePages dir catalogs others) :
    isRendered cached view catalogs dir = isRendered cached view others dir := by
  rw [isRendered, isRendered, h.catalogIsCurrent_eq]

/-- What the loop does at a directory: nothing, an exception, conflicts, or the whole catalog. -/
theorem renderDirs_cases (cached : Option Notes) (entries : Notes)
    (clocks : RelPath → Stream' Instant) (dir : RelPath) (dirs : List RelPath) (disk : Disk) :
    let rendered := isRendered cached disk.notes disk.catalogs dir
    let pages := generateCatalogPages (catalogRequest entries.valid dir) (clocks dir)
    let run := renderDirs cached entries clocks (dir :: dirs) disk
    let skipped := renderDirs cached entries clocks dirs disk
    (rendered = false ∧ run = skipped) ∨
    (rendered = true ∧ ∃ exn, pages = .error exn ∧ run = ⟨[(disk, true)], disk, [], some exn⟩) ∨
    (rendered = true ∧ ∃ foreign ∈ disk.catalogs, foreign.dropLast = dir ∧
      ownsCatalog disk.catalogs foreign = false ∧ ∃ blocking, blocking ≠ [] ∧
      run = { skipped with conflicts := blocking ++ skipped.conflicts }) ∨
    (rendered = true ∧ ∃ written, pages = .ok written ∧
      (∀ path ∈ disk.catalogs, path.dropLast = dir → ownsCatalog disk.catalogs path = true) ∧
      let ops := writeCatalogPages disk.catalogs dir written
      let rest := renderDirs cached entries clocks dirs (ops.foldl IndexOp.apply disk)
      run = { rest with points := (performOps true ops disk).1 ++ rest.points }) := by
  intro rendered pages run skipped
  have hrun : run = renderDirs cached entries clocks (dir :: dirs) disk := rfl
  rw [renderDirs] at hrun
  cases hrendered : rendered with
  | false =>
    rw [if_neg (by rw [Bool.not_eq_true]; exact hrendered)] at hrun
    exact Or.inl ⟨rfl, hrun⟩
  | true =>
    rw [if_pos hrendered] at hrun
    right
    cases hpages : pages with
    | error exn =>
      rw [show generateCatalogPages _ _ = _ from hpages] at hrun
      exact Or.inl ⟨rfl, exn, rfl, hrun⟩
    | ok written =>
      rw [show generateCatalogPages _ _ = _ from hpages] at hrun
      right
      by_cases hblocking :
          blockingFiles disk.catalogs dir (written.map fun page => dir ++ [page.1]) = []
      · simp only [hblocking, if_true, performOps_disk] at hrun
        exact Or.inr ⟨rfl, written, rfl, blockingFiles_eq_nil_iff.mp hblocking, hrun⟩
      · simp only [hblocking, if_false] at hrun
        left
        have hforeign := mt blockingFiles_eq_nil_iff.mpr hblocking
        simp only [not_forall, Bool.not_eq_true] at hforeign
        obtain ⟨path, hpath, hdir, hforeign⟩ := hforeign
        exact ⟨rfl, path, hpath, hdir, hforeign, _, hblocking, hrun⟩

/-- What holds in front of the loop, and is kept by the operations of a directory that is rendered,
holds wherever the loop is. -/
theorem renderDirs_invariant {P : Disk → Prop}
    (hstep : ∀ s : Disk, P s → ∀ dir ∈ dirs, isRendered cached s.notes s.catalogs dir = true →
      ∀ pages done, done <+: writeCatalogPages s.catalogs dir pages →
        P (done.foldl IndexOp.apply s)) (h : P disk) :
    (∀ point ∈ (renderDirs cached entries clocks dirs disk).points, point.2 = true ∧ P point.1) ∧
      P (renderDirs cached entries clocks dirs disk).disk := by
  induction dirs generalizing disk with
  | nil =>
    refine ⟨fun point hpoint => ?_, h⟩
    rw [List.mem_singleton.mp hpoint]
    exact ⟨rfl, h⟩
  | cons dir dirs ih =>
    have hrest := fun {s} => @ih s fun s hs dir hdir => hstep s hs dir (List.mem_cons_of_mem _ hdir)
    rcases renderDirs_cases cached entries clocks dir dirs disk with ⟨-, hrun⟩ |
      ⟨-, exn, -, hrun⟩ | ⟨-, foreign, -, -, -, blocking, -, hrun⟩ |
      ⟨hrendered, written, -, -, hrun⟩
    · rw [hrun]
      exact hrest h
    · rw [hrun]
      refine ⟨fun point hpoint => ?_, h⟩
      rw [List.mem_singleton.mp hpoint]
      exact ⟨rfl, h⟩
    · rw [hrun]
      exact hrest h
    · have hdone := hstep disk h dir List.mem_cons_self hrendered written
      have hnext := hrest (hdone _ (List.prefix_refl _))
      rw [hrun]
      refine ⟨fun point hpoint => ?_, hnext.2⟩
      rcases List.mem_append.mp hpoint with hpoint | hpoint
      · obtain ⟨done, hprefix, rfl⟩ := mem_performOps hpoint
        exact ⟨rfl, hdone done hprefix⟩
      · exact hnext.1 point hpoint

/-- The loop writes catalog pages alone. -/
theorem renderDirs_keeps :
    (∀ point ∈ (renderDirs cached entries clocks dirs disk).points, point.2 = true ∧
      point.1.notes = disk.notes ∧ point.1.cache = disk.cache) ∧
    (renderDirs cached entries clocks dirs disk).disk.notes = disk.notes ∧
      (renderDirs cached entries clocks dirs disk).disk.cache = disk.cache := by
  refine @renderDirs_invariant _ _ _ _ _ _ _ (fun s => s.notes = disk.notes ∧ s.cache = disk.cache)
    ?_ ⟨rfl, rfl⟩
  intro s hs dir _ _ pages done hdone
  rw [notes_foldl, cache_writeCatalogPages hdone]
  exact hs

/-- The loop leaves alone the directories that it does not come to, and those that it does not
render. -/
theorem renderDirs_frame
    (h : dir ∈ dirs → isRendered cached disk.notes disk.catalogs dir = false) :
    (∀ point ∈ (renderDirs cached entries clocks dirs disk).points,
      SamePages dir point.1.catalogs disk.catalogs) ∧
    SamePages dir (renderDirs cached entries clocks dirs disk).disk.catalogs disk.catalogs := by
  have hall := @renderDirs_invariant _ _ cached entries clocks dirs disk
    (fun s => s.notes = disk.notes ∧ SamePages dir s.catalogs disk.catalogs) ?_
    ⟨rfl, SamePages.refl dir _⟩
  · exact ⟨fun point hpoint => (hall.1 point hpoint).2.2, hall.2.2⟩
  · intro s hs other hother hrendered pages done hdone
    refine ⟨notes_foldl.trans hs.1, SamePages.trans (samePages_foldl ?_) hs.2⟩
    intro op hop heq
    rw [dir_of_mem_writeCatalogPages (hdone.subset hop), Option.some_inj] at heq
    subst heq
    rw [hs.1, hs.2.isRendered_eq, h hother] at hrendered
    cases hrendered

/-- After the loop every directory holds its catalog, if those do that are not rendered, except
where it found a conflict; such a directory is not current. -/
theorem renderDirs_full (hraised : (renderDirs cached entries clocks dirs disk).raised = none)
    (hkept : ∀ dir ∈ dirs, isRendered cached disk.notes disk.catalogs dir = false →
      HoldsCatalog entries.valid disk.catalogs dir) :
    ∀ dir ∈ dirs,
      HoldsCatalog entries.valid (renderDirs cached entries clocks dirs disk).disk.catalogs dir ∨
      (renderDirs cached entries clocks dirs disk).conflicts ≠ [] ∧ catalogIsCurrent
        (renderDirs cached entries clocks dirs disk).disk.catalogs dir = false := by
  induction dirs generalizing disk with
  | nil => nofun
  | cons dir dirs ih =>
    rw [List.forall_mem_cons] at hkept
    -- What holds of the directory behind its step is kept by the rest, or shown by the induction.
    have hbehind : ∀ s : Disk, (∀ dir ∈ dirs, isRendered cached s.notes s.catalogs dir = false →
        HoldsCatalog entries.valid s.catalogs dir) →
        (renderDirs cached entries clocks dirs s).raised = none →
        ∀ other, other ∈ dirs ∨ HoldsCatalog entries.valid s.catalogs other →
          HoldsCatalog entries.valid (renderDirs cached entries clocks dirs s).disk.catalogs other ∨
          (renderDirs cached entries clocks dirs s).conflicts ≠ [] ∧ catalogIsCurrent
            (renderDirs cached entries clocks dirs s).disk.catalogs other = false := by
      intro s hs hnone other hother
      by_cases hmem : other ∈ dirs
      · exact ih hnone hs other hmem
      · have hframe := (@renderDirs_frame _ _ other cached entries clocks dirs s
          fun hin => absurd hin hmem).2
        exact Or.inl (hframe.symm.holds (hother.resolve_left hmem))
    rcases renderDirs_cases cached entries clocks dir dirs disk with ⟨hskipped, hrun⟩ |
      ⟨-, exn, -, hrun⟩ | ⟨-, foreign, hforeign, hdir, howned, blocking, hblocking, hrun⟩ |
      ⟨-, written, hwritten, howned, hrun⟩
    · rw [hrun] at hraised ⊢
      rw [List.forall_mem_cons]
      exact ⟨hbehind disk hkept.2 hraised dir (Or.inr (hkept.1 hskipped)),
        fun other hother => hbehind disk hkept.2 hraised other (Or.inl hother)⟩
    · rw [hrun] at hraised
      cases hraised
    · rw [hrun] at hraised ⊢
      have hconflicts : blocking ++ (renderDirs cached entries clocks dirs disk).conflicts ≠ [] := by
        simp [hblocking]
      rw [List.forall_mem_cons]
      constructor
      · by_cases hmem : dir ∈ dirs
        · rcases ih hraised hkept.2 dir hmem with hholds | ⟨-, hcurrent⟩
          · exact Or.inl hholds
          · exact Or.inr ⟨hconflicts, hcurrent⟩
        · have hframe := (@renderDirs_frame _ _ dir cached entries clocks dirs disk
            fun hin => absurd hin hmem).2
          refine Or.inr ⟨hconflicts, ?_⟩
          rw [hframe.catalogIsCurrent_eq]
          exact catalogIsCurrent_of_foreign hforeign howned hdir
      · intro other hother
        rcases ih hraised hkept.2 other hother with hholds | ⟨-, hcurrent⟩
        · exact Or.inl hholds
        · exact Or.inr ⟨hconflicts, hcurrent⟩
    · rw [hrun] at hraised ⊢
      set next := (writeCatalogPages disk.catalogs dir written).foldl IndexOp.apply disk with hnext
      have hholds : HoldsCatalog entries.valid next.catalogs dir :=
        ⟨_, written, hwritten, lookup_writeCatalogPages (nodup_of_generateCatalogPages hwritten) howned⟩
      have hstep : ∀ other ∈ dirs, isRendered cached next.notes next.catalogs other = false →
          HoldsCatalog entries.valid next.catalogs other := by
        intro other hother hrendered
        by_cases heq : other = dir
        · rw [heq]
          exact hholds
        · have hframe : SamePages other next.catalogs disk.catalogs := by
            apply samePages_foldl
            intro op hop hdir
            rw [dir_of_mem_writeCatalogPages hop, Option.some_inj] at hdir
            exact heq hdir.symm
          rw [hnext, notes_foldl, ← hnext, hframe.isRendered_eq] at hrendered
          exact hframe.symm.holds (hkept.2 other hother hrendered)
      rw [List.forall_mem_cons]
      exact ⟨hbehind next hstep hraised dir (Or.inr hholds),
        fun other hother => hbehind next hstep hraised other (Or.inl hother)⟩

end

end PowerFramework.Catalog
