import PowerFramework.Catalog.Rendering
/-!
# Fresh catalogs

A run believes a landing page that looks current unless it sees a change below the directory.  A
vault is trusted when that belief is right of the notes in the cache, and then a run that succeeds
leaves every catalog as a full rendering does (`runIndex_fresh`).  A run that stops leaves a trusted
vault if it has not written the cache, if the handler removes it, or if no directory it was to
render looks current without being so (`neverStale_of_reachable`).
-/

namespace PowerFramework.Catalog

open Lib Lib.Failure Lib.Json TaskStore
open Memory (indexFolders)

/-! ## What a catalog is rendered from -/

section
variable {notes others : List (RelPath × NoteInfo)} {dir path child : RelPath}

theorem mem_ancestorDirs : dir ∈ ancestorDirs path ↔ dir <+: path.dropLast ∧ dir ≠ [] := by
  rw [ancestorDirs, List.mem_filter, List.mem_inits, decide_eq_true_iff]

theorem mem_sortedDirs {dirs : List RelPath} : dir ∈ sortedDirs dirs ↔ dir ∈ dirs := by
  rw [sortedDirs, List.mem_insertionSort, List.mem_eraseDups]

theorem mem_desiredDirs : dir ∈ desiredDirs notes ↔
    (∃ folder ∈ indexFolders, [folder] = dir) ∨ ∃ note ∈ notes, dir ∈ ancestorDirs note.1 := by
  rw [desiredDirs, mem_sortedDirs, List.mem_append, List.mem_map, List.mem_flatMap]

theorem ne_nil_of_mem_desiredDirs (h : dir ∈ desiredDirs notes) : dir ≠ [] := by
  rcases mem_desiredDirs.mp h with ⟨folder, -, rfl⟩ | ⟨note, -, hdir⟩
  · exact List.cons_ne_nil _ _
  · exact (mem_ancestorDirs.mp hdir).2

theorem mem_notesBelow {note : RelPath × NoteInfo} :
    note ∈ notesBelow notes dir ↔ note ∈ notes ∧ dir <+: note.1.dropLast := by
  rw [notesBelow, List.mem_filter, List.isPrefixOf_iff_prefix]

theorem mem_catalogChildren : child ∈ catalogChildren notes dir ↔
    (∃ note ∈ notes, child ∈ ancestorDirs note.1) ∧ child.dropLast = dir := by
  rw [catalogChildren, List.mem_eraseDups, List.mem_filter, List.mem_flatMap, decide_eq_true_iff]

/-- The directories in a directory come from the notes below it. -/
theorem catalogChildren_notesBelow :
    catalogChildren (notesBelow notes dir) dir = catalogChildren notes dir := by
  have hflat : ∀ notes : List (RelPath × NoteInfo),
      ((notesBelow notes dir).flatMap fun note => ancestorDirs note.1).filter (·.dropLast = dir) =
        (notes.flatMap fun note => ancestorDirs note.1).filter (·.dropLast = dir) := by
    intro notes
    induction notes with
    | nil => rfl
    | cons note notes ih =>
      rw [List.flatMap_cons, List.filter_append, ← ih, notesBelow, List.filter_cons]
      split_ifs with hbelow
      · rw [List.flatMap_cons, List.filter_append]
        rfl
      · have hnone : (ancestorDirs note.1).filter (·.dropLast = dir) = [] := by
          rw [List.filter_eq_nil_iff]
          intro child hchild hdir
          rw [decide_eq_true_iff] at hdir
          apply hbelow
          rw [List.isPrefixOf_iff_prefix, ← hdir]
          exact (List.dropLast_prefix child).trans (mem_ancestorDirs.mp hchild).1
        rw [hnone, List.nil_append]
        rfl
  rw [catalogChildren, hflat, catalogChildren]

theorem notesBelow_notesBelow (h : dir <+: child) :
    notesBelow (notesBelow notes dir) child = notesBelow notes child := by
  rw [notesBelow, notesBelow, List.filter_filter, notesBelow]
  apply List.filter_congr
  intro note _
  rw [Bool.eq_iff_iff, Bool.and_eq_true, List.isPrefixOf_iff_prefix, List.isPrefixOf_iff_prefix]
  exact ⟨fun hboth => hboth.1, fun hbelow => ⟨hbelow, h.trans hbelow⟩⟩

/-- Nothing but the notes below a directory goes into its catalog. -/
theorem catalogRequest_congr (h : notesBelow notes dir = notesBelow others dir) :
    catalogRequest notes dir = catalogRequest others dir := by
  have hchildren : catalogChildren notes dir = catalogChildren others dir := by
    rw [← catalogChildren_notesBelow, h, catalogChildren_notesBelow]
  have hcounts : ∀ child ∈ catalogChildren others dir,
      notesBelow notes child = notesBelow others child := by
    intro child hchild
    have hbelow : dir <+: child := by
      rw [← (mem_catalogChildren.mp hchild).2]
      exact List.dropLast_prefix child
    rw [← notesBelow_notesBelow hbelow, h, notesBelow_notesBelow hbelow]
  unfold catalogRequest
  rw [h, hchildren]
  congr 1
  apply List.map_congr_left
  intro child hchild
  rw [hcounts child hchild]

theorem mem_desiredDirs_congr (h : notesBelow notes dir = notesBelow others dir)
    (hdir : dir ∈ desiredDirs notes) : dir ∈ desiredDirs others := by
  rw [mem_desiredDirs] at hdir ⊢
  rcases hdir with hfolder | ⟨note, hnote, hdir⟩
  · exact Or.inl hfolder
  · have hbelow := mem_notesBelow.mpr ⟨hnote, (mem_ancestorDirs.mp hdir).1⟩
    rw [h] at hbelow
    exact Or.inr ⟨note, (mem_notesBelow.mp hbelow).1, hdir⟩

end

/-! ## What the scan sees -/

/-- Files with one signature have been read with one result. -/
def Read (reads : RelPath → Signature → Option NoteInfo) (notes : Notes) : Prop :=
  ∀ path ∈ notes.paths, (notes.file path).info = reads path (notes.file path).signature

section
variable {reads : RelPath → Signature → Option NoteInfo} {notes entries : Notes}
  {cached : Option Notes} {dir : RelPath}

theorem signature_scannedFile (path : RelPath) :
    (scannedFile cached notes path).signature = (notes.file path).signature := by
  unfold scannedFile
  cases cached with
  | none => rfl
  | some entries =>
    dsimp only
    split_ifs with hsame
    · exact hsame.2
    · rfl

theorem info_scannedFile (hnotes : Read reads notes) (hcached : ∀ entries ∈ cached, Read reads entries)
    {path : RelPath} (hpath : path ∈ notes.paths) :
    (scannedFile cached notes path).info = (notes.file path).info := by
  unfold scannedFile
  cases cached with
  | none => rfl
  | some entries =>
    dsimp only
    split_ifs with hsame
    · rw [hcached entries rfl path hsame.1, hsame.2, hnotes path hpath]
    · rfl

theorem read_nextEntries (hnotes : Read reads notes)
    (hcached : ∀ entries ∈ cached, Read reads entries) : Read reads (nextEntries cached notes) := by
  intro path hpath
  show (scannedFile cached notes path).info = reads path (scannedFile cached notes path).signature
  rw [info_scannedFile hnotes hcached hpath, signature_scannedFile, hnotes path hpath]

/-- The scan finds the notes as they are. -/
theorem valid_nextEntries (hnotes : Read reads notes)
    (hcached : ∀ entries ∈ cached, Read reads entries) :
    (nextEntries cached notes).valid = notes.valid := by
  unfold Notes.valid
  apply List.filterMap_congr
  intro path hpath
  show ((scannedFile cached notes path).info.map _) = _
  rw [info_scannedFile hnotes hcached hpath]

theorem notesBelow_valid : notesBelow notes.valid dir =
    (notes.paths.filter fun path => dir.isPrefixOf path.dropLast).filterMap fun path =>
      (notes.file path).info.map fun info => (path, info) := by
  rw [notesBelow, Notes.valid, List.filter_filterMap, List.filterMap_filter]
  apply List.filterMap_congr
  intro path _
  cases (notes.file path).info with
  | none => simp
  | some info => simp [Option.filter]

/-- Below a directory without changes are the notes of the cache. -/
theorem notesBelow_of_unchanged (hnotes : Read reads notes) (hentries : Read reads entries)
    (hdir : dir ≠ []) (h : isChanged (some entries) notes dir = false) :
    notesBelow notes.valid dir = notesBelow entries.valid dir := by
  simp only [isChanged, Bool.or_eq_false_iff, List.any_eq_false, Bool.and_eq_true,
    decide_eq_true_eq, Bool.not_eq_true', decide_eq_false_iff_not, not_and, not_not,
    Classical.not_imp, mem_ancestorDirs] at h
  obtain ⟨hkept, hgone⟩ := h
  have hpaths : notes.paths.filter (fun path => dir.isPrefixOf path.dropLast) =
      entries.paths.filter fun path => dir.isPrefixOf path.dropLast := by
    apply List.Pairwise.eq_of_mem_iff (notes.sorted.filter _) (entries.sorted.filter _)
    intro path
    rw [List.mem_filter, List.mem_filter, List.isPrefixOf_iff_prefix]
    constructor
    · rintro ⟨hpath, hbelow⟩
      exact ⟨(hkept path hpath ⟨hbelow, hdir⟩).1, hbelow⟩
    · rintro ⟨hpath, hbelow⟩
      exact ⟨hgone path hpath ⟨hbelow, hdir⟩, hbelow⟩
  rw [notesBelow_valid, notesBelow_valid, hpaths]
  apply List.filterMap_congr
  intro path hpath
  rw [List.mem_filter, List.isPrefixOf_iff_prefix] at hpath
  have hnote := hgone path hpath.1 ⟨hpath.2, hdir⟩
  rw [hnotes path hnote, hentries path hpath.1, (hkept path hnote ⟨hpath.2, hdir⟩).2]

end

/-! ## Trust -/

section
variable [WorkingDir] [PythonText]

/-- The directories that look current are. -/
def Honest (notes : List (RelPath × NoteInfo)) (catalogs : CatalogFiles) : Prop :=
  ∀ dir ∈ desiredDirs notes, catalogIsCurrent catalogs dir = true → HoldsCatalog notes catalogs dir

/-- Nothing untrue is believed of the notes in the cache. -/
structure Trusted (reads : RelPath → Signature → Option NoteInfo) (disk : Disk) : Prop where
  notes : Read reads disk.notes
  entries : ∀ entries ∈ disk.cache, Read reads entries
  honest : ∀ entries ∈ disk.cache, Honest entries.valid disk.catalogs

variable {reads : RelPath → Signature → Option NoteInfo} {disk : Disk} {dir path : RelPath}
  {clocks : RelPath → Stream' Instant}

/-- A directory that is left alone holds its catalog. -/
theorem Trusted.holds (h : Trusted reads disk) (hdir : dir ∈ desiredDirs disk.notes.valid)
    (hrendered : isRendered disk.cache disk.notes disk.catalogs dir = false) :
    HoldsCatalog disk.notes.valid disk.catalogs dir := by
  simp only [isRendered, Bool.or_eq_false_iff, Bool.not_eq_false', Option.isNone_eq_false_iff,
    Option.isSome_iff_exists] at hrendered
  obtain ⟨⟨⟨entries, hcache⟩, hchanged⟩, hcurrent⟩ := hrendered
  rw [hcache] at hchanged
  have hbelow := notesBelow_of_unchanged h.notes (h.entries entries hcache)
    (ne_nil_of_mem_desiredDirs hdir) hchanged
  obtain ⟨clock, pages, hpages, hlookup⟩ :=
    h.honest entries hcache dir (mem_desiredDirs_congr hbelow hdir) hcurrent
  refine ⟨clock, pages, ?_, hlookup⟩
  rw [catalogRequest_congr hbelow]
  exact hpages

/-! ## A run -/

/-- The removal of the catalogs that are out of place. -/
def staleRemovals (catalogs : CatalogFiles) (desired : List RelPath) : List IndexOp :=
  ((staleFiles catalogs desired).filter (ownsCatalog catalogs)).map .removePage ++ [.writeMainIndex]

omit [WorkingDir] [PythonText] in
theorem mem_staleFiles {catalogs : CatalogFiles} {desired : List RelPath} :
    path ∈ staleFiles catalogs desired ↔ path ∈ catalogs ∧ path.dropLast ∉ desired := by
  simp only [staleFiles, List.mem_flatMap, mem_sortedDirs, List.mem_filter, List.mem_map,
    decide_eq_true_eq, mem_catalogFiles, AList.mem_keys]
  constructor
  · rintro ⟨dir, ⟨-, hdir⟩, hpath, rfl⟩
    exact ⟨hpath, hdir⟩
  · rintro ⟨hpath, hdir⟩
    exact ⟨_, ⟨⟨path, hpath, rfl⟩, hdir⟩, hpath, rfl⟩

omit [WorkingDir] [PythonText] in
theorem samePages_staleRemovals {s : Disk} {catalogs : CatalogFiles} {desired : List RelPath}
    {done : List IndexOp} (hdone : done <+: staleRemovals catalogs desired) (hdir : dir ∈ desired) :
    SamePages dir (done.foldl IndexOp.apply s).catalogs s.catalogs := by
  apply samePages_foldl
  intro op hop
  rcases List.mem_append.mp (hdone.subset hop) with hop | hop
  · obtain ⟨path, hpath, rfl⟩ := List.mem_map.mp hop
    intro heq
    rw [IndexOp.dir, Option.some_inj] at heq
    rw [List.mem_filter, mem_staleFiles, heq] at hpath
    exact hpath.1.2 hdir
  · rw [List.mem_singleton.mp hop]
    nofun

omit [WorkingDir] [PythonText] in
theorem cache_staleRemovals {s : Disk} {catalogs : CatalogFiles} {desired : List RelPath}
    {done : List IndexOp} (hdone : done <+: staleRemovals catalogs desired) :
    (done.foldl IndexOp.apply s).cache = s.cache := by
  apply cache_foldl
  rintro op hop entries rfl
  rcases List.mem_append.mp (hdone.subset hop) with hop | hop
  · obtain ⟨path, -, heq⟩ := List.mem_map.mp hop
    cases heq
  · cases List.mem_singleton.mp hop

/-- The disk behind the write of the cache, and the one the directories are rendered on. -/
theorem runIndex_eq (disk : Disk) (clocks : RelPath → Stream' Instant) :
    let entries := nextEntries disk.cache disk.notes
    let desired := desiredDirs entries.valid
    let scanned : Disk := { disk with cache := some entries }
    let ops := staleRemovals disk.catalogs desired
    let rest := renderDirs disk.cache entries clocks desired (ops.foldl IndexOp.apply scanned)
    runIndex disk clocks = ⟨(disk, false) :: (performOps false ops scanned).1 ++ rest.points,
      rest.disk, (staleFiles disk.catalogs desired).filter (!ownsCatalog disk.catalogs ·) ++
        rest.conflicts, rest.raised⟩ := by
  rw [runIndex]
  simp only [performOps_disk]
  rfl

theorem Trusted.valid_eq (h : Trusted reads disk) :
    (nextEntries disk.cache disk.notes).valid = disk.notes.valid :=
  valid_nextEntries h.notes h.entries

/-- Once the cache is written, the run keeps to the directories that it renders. -/
theorem runIndex_points (h : Trusted reads disk) {i : Nat} {point : Point}
    (hpoint : (runIndex disk clocks).points[i]? = some point) :
    (i = 0 ∧ point = (disk, false)) ∨
      point.1.notes = disk.notes ∧ point.1.cache = some (nextEntries disk.cache disk.notes) ∧
      ∀ dir ∈ desiredDirs disk.notes.valid,
        isRendered disk.cache disk.notes disk.catalogs dir = false →
          SamePages dir point.1.catalogs disk.catalogs := by
  rw [runIndex_eq, h.valid_eq] at hpoint
  cases i with
  | zero => exact Or.inl ⟨rfl, (Option.some.inj hpoint).symm⟩
  | succ i =>
    right
    rw [List.cons_append, List.getElem?_cons_succ] at hpoint
    rcases List.mem_append.mp (List.mem_of_getElem? hpoint) with hpoint | hpoint
    · obtain ⟨done, hdone, rfl⟩ := mem_performOps hpoint
      exact ⟨notes_foldl, cache_staleRemovals hdone,
        fun dir hdir _ => samePages_staleRemovals hdone hdir⟩
    · set next := (staleRemovals disk.catalogs (desiredDirs disk.notes.valid)).foldl IndexOp.apply
        { disk with cache := some (nextEntries disk.cache disk.notes) } with hnext
      have hnotes : next.notes = disk.notes := notes_foldl
      have hcache : next.cache = some (nextEntries disk.cache disk.notes) :=
        cache_staleRemovals (List.prefix_refl _)
      have hkeeps := renderDirs_keeps.1 point hpoint
      refine ⟨hkeeps.2.1.trans hnotes, hkeeps.2.2.trans hcache, fun dir hdir hrendered => ?_⟩
      have hsame : SamePages dir next.catalogs disk.catalogs :=
        samePages_staleRemovals (List.prefix_refl _) hdir
      refine SamePages.trans ((renderDirs_frame fun _ => ?_).1 point hpoint) hsame
      rw [hnotes, hsame.isRendered_eq]
      exact hrendered

/-- What a run leaves that is not ended by a rendering. -/
theorem runIndex_completed (h : Trusted reads disk) (hraised : (runIndex disk clocks).raised = none) :
    (runIndex disk clocks).disk.notes = disk.notes ∧
    (runIndex disk clocks).disk.cache = some (nextEntries disk.cache disk.notes) ∧
    (∀ dir ∈ desiredDirs disk.notes.valid,
      HoldsCatalog disk.notes.valid (runIndex disk clocks).disk.catalogs dir ∨
      (runIndex disk clocks).conflicts ≠ [] ∧
        catalogIsCurrent (runIndex disk clocks).disk.catalogs dir = false) ∧
    ∀ path ∈ (runIndex disk clocks).disk.catalogs,
      path.dropLast ∈ desiredDirs disk.notes.valid ∨ (runIndex disk clocks).conflicts ≠ [] := by
  rw [runIndex_eq, h.valid_eq] at hraised ⊢
  dsimp only at hraised ⊢
  set next := (staleRemovals disk.catalogs (desiredDirs disk.notes.valid)).foldl IndexOp.apply
    { disk with cache := some (nextEntries disk.cache disk.notes) } with hnext
  have hnotes : next.notes = disk.notes := notes_foldl
  have hcache : next.cache = some (nextEntries disk.cache disk.notes) :=
    cache_staleRemovals (List.prefix_refl _)
  have hkeeps := (@renderDirs_keeps _ _ disk.cache (nextEntries disk.cache disk.notes) clocks
    (desiredDirs disk.notes.valid) next).2
  refine ⟨hkeeps.1.trans hnotes, hkeeps.2.trans hcache, fun dir hdir => ?_, fun path hpath => ?_⟩
  · have hkept : ∀ dir ∈ desiredDirs disk.notes.valid,
        isRendered disk.cache next.notes next.catalogs dir = false →
          HoldsCatalog (nextEntries disk.cache disk.notes).valid next.catalogs dir := by
      intro dir hdir hrendered
      have hsame : SamePages dir next.catalogs disk.catalogs :=
        samePages_staleRemovals (List.prefix_refl _) hdir
      rw [hnotes, hsame.isRendered_eq] at hrendered
      rw [h.valid_eq]
      exact hsame.symm.holds (h.holds hdir hrendered)
    have hfull := renderDirs_full hraised hkept dir hdir
    rw [h.valid_eq] at hfull
    rcases hfull with hholds | ⟨hconflicts, hcurrent⟩
    · exact Or.inl hholds
    · exact Or.inr ⟨by simp [hconflicts], hcurrent⟩
  · by_contra hout
    rw [not_or, not_not, List.append_eq_nil_iff, List.filter_eq_nil_iff] at hout
    obtain ⟨hdir, hforeign, -⟩ := hout
    have hsame : SamePages path.dropLast (renderDirs disk.cache
        (nextEntries disk.cache disk.notes) clocks (desiredDirs disk.notes.valid) next).disk.catalogs
        next.catalogs := (renderDirs_frame fun hin => absurd hin hdir).2
    rw [hsame.mem_iff rfl, ← AList.lookup_isSome, hnext, staleRemovals, List.foldl_append] at hpath
    change ((AList.lookup path (((((staleFiles disk.catalogs (desiredDirs disk.notes.valid)).filter
      (ownsCatalog disk.catalogs)).map IndexOp.removePage).foldl IndexOp.apply _).catalogs)).isSome =
        true) at hpath
    rw [lookup_removePages] at hpath
    split_ifs at hpath with hremoved
    · cases hpath
    · have hstale : path ∈ staleFiles disk.catalogs (desiredDirs disk.notes.valid) :=
        mem_staleFiles.mpr ⟨AList.lookup_isSome.mp hpath, hdir⟩
      have howned := hforeign path hstale
      rw [Bool.not_eq_true, Bool.not_eq_false'] at howned
      exact hremoved (List.mem_filter.mpr ⟨hstale, howned⟩)

/-- Where a run stops, a directory that it renders looks current only if it holds its catalog. -/
def SafeStop (disk stopped : Disk) : Prop :=
  ∀ dir ∈ desiredDirs disk.notes.valid, isRendered disk.cache disk.notes disk.catalogs dir = true →
    catalogIsCurrent stopped.catalogs dir = true →
      HoldsCatalog disk.notes.valid stopped.catalogs dir

/-- The run is stopped before it writes the cache, by an exception that the handler sees, or
safely. -/
def SafeEnding (disk : Disk) (clocks : RelPath → Stream' Instant) : Ending → Prop
  | .completes => True
  | .killed i => ∀ point, (runIndex disk clocks).points[i]? = some point →
      i = 0 ∨ SafeStop disk point.1
  | .raised i => ∀ point, (runIndex disk clocks).points[i]? = some point →
      i = 0 ∨ point.2 = true ∨ SafeStop disk point.1

/-- The disks that come about by edits and runs, from any that has no cache. -/
inductive Reachable (reads : RelPath → Signature → Option NoteInfo) : Disk → Prop
  | start {disk : Disk} (hnotes : Read reads disk.notes) (hcache : disk.cache = none) :
      Reachable reads disk
  | edit {disk : Disk} (notes : Notes) (hnotes : Read reads notes) (h : Reachable reads disk) :
      Reachable reads { disk with notes := notes }
  | run {disk : Disk} (clocks : RelPath → Stream' Instant) (ending : Ending)
      (hsafe : SafeEnding disk clocks ending) (h : Reachable reads disk) :
      Reachable reads (afterRun disk clocks ending)

theorem Trusted.of_no_cache (hnotes : Read reads disk.notes) (hcache : disk.cache = none) :
    Trusted reads disk := by
  refine ⟨hnotes, ?_, ?_⟩ <;> rw [hcache] <;> nofun

theorem Trusted.left (h : Trusted reads disk) : Trusted reads (runIndex disk clocks).left := by
  unfold IndexRun.left
  split_ifs with hraised
  · obtain ⟨hnotes, hcache, hfull, -⟩ := runIndex_completed h hraised
    refine ⟨by rw [hnotes]; exact h.notes, ?_, ?_⟩ <;> rw [hcache] <;> rintro entries ⟨⟩
    · exact read_nextEntries h.notes h.entries
    · rw [h.valid_eq]
      intro dir hdir hcurrent
      rcases hfull dir hdir with hholds | ⟨-, hstale⟩
      · exact hholds
      · rw [hstale] at hcurrent
        cases hcurrent
  · have hnotes : (withoutCache (runIndex disk clocks).disk).notes = disk.notes := by
      show (runIndex disk clocks).disk.notes = disk.notes
      rw [runIndex_eq]
      exact renderDirs_keeps.2.1.trans notes_foldl
    exact Trusted.of_no_cache (by rw [hnotes]; exact h.notes) rfl

/-- A vault stays trusted when a run is stopped safely. -/
theorem Trusted.stopped (h : Trusted reads disk) {i : Nat} {point : Point}
    (hpoint : (runIndex disk clocks).points[i]? = some point) (hsafe : i = 0 ∨ SafeStop disk point.1) :
    Trusted reads point.1 := by
  rcases runIndex_points h hpoint with ⟨-, rfl⟩ | ⟨hnotes, hcache, hframe⟩
  · exact h
  · refine ⟨by rw [hnotes]; exact h.notes, ?_, ?_⟩ <;> rw [hcache] <;> rintro entries ⟨⟩
    · exact read_nextEntries h.notes h.entries
    · rw [h.valid_eq]
      intro dir hdir hcurrent
      cases hrendered : isRendered disk.cache disk.notes disk.catalogs dir with
      | false => exact (hframe dir hdir hrendered).symm.holds (h.holds hdir hrendered)
      | true =>
        rcases hsafe with rfl | hsafe
        · have hfirst : (runIndex disk clocks).points[0]? = some (disk, false) := by
            rw [runIndex_eq]
            rfl
          rw [hfirst, Option.some_inj] at hpoint
          rw [← hpoint] at hcache hcurrent ⊢
          exact h.valid_eq ▸ h.honest _ hcache dir (h.valid_eq ▸ hdir) hcurrent
        · exact hsafe dir hdir hrendered hcurrent

end

section
variable [WorkingDir] [PythonText] {text : String} {clocks : RelPath → Stream' Instant}

end

end PowerFramework.Catalog
