import PowerFramework.Catalog.Pagination
/-!
# Exact catalogs

When the pages of a catalog hold its entries, each once, within the limit: whatever the clock
returns exactly when every page that some clock lets be filled still fits as it is rendered with
any time (`generateCatalogPages_exact_iff`).  A page is never longer than it was probed at a time
whose text is as long (`paginatedExactly_of_steady`); only a time without microseconds has a
shorter one.
-/

namespace PowerFramework.Catalog

open Lib Lib.Failure Lib.Json Lib.JsonText Lib.Padded

/-! ## Entries -/

section
variable [WorkingDir] {folder : String}

theorem catalogLink_ok_iff {relPath : String} :
    (∃ link, catalogLink folder relPath = .ok link) ↔ relPath ≠ "" := by
  unfold catalogLink
  simp only
  rw [exists_bind_eq_ok]
  have hblank : (relPath.map fun c => if c = '\\' then '/' else c) = "" ↔ relPath = "" := by
    rw [← String.toList_inj, String.toList_map]
    simp
  constructor
  · rintro ⟨target, htarget, -⟩ hpath
    rw [hblank.mpr hpath, PosixPath.relpath, if_pos rfl] at htarget
    cases htarget
  · intro hpath
    cases htarget : PosixPath.relpath WorkingDir.cwd
        (relPath.map fun c => if c = '\\' then '/' else c) folder with
    | error e => exact absurd (hblank.mp (PosixPath.relpath_eq_error.mp htarget).1) hpath
    | ok target => exact ⟨target, rfl, _, rfl⟩

theorem noteCatalogBlock_ok_iff {note : NoteInfo} :
    (∃ block, noteCatalogBlock folder note = .ok block) ↔ note.relPath ≠ "" := by
  rw [← @catalogLink_ok_iff _ folder]
  unfold noteCatalogBlock
  rw [exists_bind_eq_ok]
  constructor
  · rintro ⟨link, hlink, -⟩
    exact ⟨link, hlink⟩
  · rintro ⟨link, hlink⟩
    exact ⟨link, hlink, _, rfl⟩

theorem exists_childCatalogBlock (child : String) (noteCount : Int) :
    ∃ block, childCatalogBlock folder child noteCount = .ok block := by
  unfold childCatalogBlock
  rw [exists_bind_eq_ok]
  have hpath : child ++ "/_index.md" ≠ "" := by
    intro h
    have := congrArg String.length h
    simp at this
  obtain ⟨link, hlink⟩ := (@catalogLink_ok_iff _ folder _).mpr hpath
  exact ⟨link, hlink, _, rfl⟩

variable [PythonText] {request : CatalogRequest}

/-- The entries are rendered unless some note has a blank path. -/
theorem catalogBlocks_ok_iff :
    (∃ blocks, catalogBlocks request = .ok blocks) ↔ ∀ note ∈ request.notes, note.relPath ≠ "" := by
  unfold catalogBlocks
  rw [exists_bind_eq_ok]
  constructor
  · rintro ⟨children, -, hnotes⟩ note hnote
    rw [exists_bind_eq_ok] at hnotes
    obtain ⟨notes, hnotes, -⟩ := hnotes
    obtain ⟨block, -, hblock⟩ := exists_of_mapM hnotes ((List.mem_insertionSort _).mpr hnote)
    exact noteCatalogBlock_ok_iff.mp ⟨block, hblock⟩
  · intro hnamed
    obtain ⟨children, hchildren⟩ := @exists_mapM _ _ _
      (fun child => childCatalogBlock request.folder child
        ((request.noteCounts.lookup child).getD 0)) (request.childDirs.insertionSort (· ≤ ·))
      fun child _ => exists_childCatalogBlock child _
    refine ⟨children, hchildren, ?_⟩
    rw [exists_bind_eq_ok]
    obtain ⟨notes, hnotes⟩ := @exists_mapM _ _ _ (noteCatalogBlock request.folder)
      (request.notes.insertionSort fun a b => noteKey a ≤ noteKey b) fun note hnote => (@noteCatalogBlock_ok_iff _ request.folder note).mpr
        (hnamed note ((List.mem_insertionSort _).mp hnote))
    exact ⟨notes, hnotes, _, rfl⟩

theorem length_catalogBlocks {blocks : List String} (h : catalogBlocks request = .ok blocks) :
    blocks.length = request.childDirs.length + request.notes.length := by
  unfold catalogBlocks at h
  obtain ⟨children, hchildren, h⟩ := bind_eq_ok.mp h
  obtain ⟨notes, hnotes, h⟩ := bind_eq_ok.mp h
  cases h
  rw [List.length_append, length_of_mapM hchildren, length_of_mapM hnotes,
    List.length_insertionSort, List.length_insertionSort]

end

section
variable {folder : String} {pageCount page i : Nat} {pages : List (List String)}
  {clock : Stream' Instant}

theorem getElem?_renderPages :
    (renderPages folder pageCount page pages clock)[i]? = pages[i]?.map fun blocks =>
      (catalogPageFilename (page + i),
        renderCatalogPage folder blocks (page + i) pageCount (clock.get i)) := by
  induction pages generalizing page i clock with
  | nil => simp [renderPages]
  | cons blocks pages ih =>
    cases i with
    | zero => rfl
    | succ i =>
      rw [renderPages, List.getElem?_cons_succ, List.getElem?_cons_succ, ih,
        show page + 1 + i = page + (i + 1) by omega]
      rfl

theorem map_fst_renderPages :
    (renderPages folder pageCount page pages clock).map Prod.fst =
      (List.range' page pages.length).map catalogPageFilename := by
  induction pages generalizing page clock with
  | nil => rfl
  | cons blocks pages ih =>
    rw [renderPages, List.map_cons, ih, List.length_cons, List.range'_succ, List.map_cons]

theorem length_renderPages :
    (renderPages folder pageCount page pages clock).length = pages.length := by
  have h := congrArg List.length (@map_fst_renderPages folder pageCount page pages clock)
  simpa using h

theorem catalogPageFilename_injective {a b : Nat}
    (h : catalogPageFilename a = catalogPageFilename b) : a = b := by
  have hlong : ∀ n : Nat, "_index.md" ≠ "_index-" ++ toString n ++ ".md" := by
    intro n heq
    have := congrArg (fun s => s.toList[6]?) heq
    simp at this
  unfold catalogPageFilename at h
  split_ifs at h with ha hb hb
  · omega
  · exact absurd h (hlong b)
  · exact absurd h.symm (hlong a)
  · rw [String.append_left_inj, String.append_right_inj] at h
    exact toString_injective h

/-! ## Sizes -/

theorem ascii_of_isDigit {c : Char} (h : c.isDigit = true) : c.toNat < 128 := by
  rw [Char.isDigit_iff_toNat] at h
  exact h.2.trans_lt (by decide)

theorem size_toString (n : Nat) : (toString n).utf8ByteSize = (Nat.toDigits 10 n).length := by
  rw [Nat.toString_eq_ofList_toDigits]
  exact Utf8.utf8ByteSize_ofList fun c hc =>
    ascii_of_isDigit (Nat.isDigit_of_mem_toDigits (by decide) (by decide) hc)

theorem size_toString_mono {a b : Nat} (h : a ≤ b) :
    (toString a).utf8ByteSize ≤ (toString b).utf8ByteSize := by
  rw [size_toString, size_toString, Nat.length_toDigits_le_iff (by decide) Nat.length_toDigits_pos]
  exact h.trans_lt ((Nat.length_toDigits_le_iff (by decide) Nat.length_toDigits_pos).mp le_rfl)

theorem size_zeroPad {width n : Nat} (hwidth : 0 < width) (hn : n < 10 ^ width) :
    (String.ofList (zeroPad width n)).utf8ByteSize = width := by
  rw [Utf8.utf8ByteSize_ofList fun c hc => ascii_of_isDigit (isDigit_of_mem_zeroPad hc)]
  exact (length_zeroPad_eq hwidth n).mpr hn

theorem size_mark_zeroPad {mark : Char} (hmark : mark.toNat < 128) {width n : Nat}
    (hwidth : 0 < width) (hn : n < 10 ^ width) :
    (String.ofList (mark :: zeroPad width n)).utf8ByteSize = width + 1 := by
  rw [Utf8.utf8ByteSize_ofList, List.length_cons, (length_zeroPad_eq hwidth n).mpr hn]
  intro c hc
  rcases List.mem_cons.mp hc with rfl | hc
  · exact hmark
  · exact ascii_of_isDigit (isDigit_of_mem_zeroPad hc)

/-- Seven characters are left out when there are no microseconds. -/
theorem size_isoformat (now : Instant) :
    now.isoformat.utf8ByteSize = if now.microsecond.val = 0 then 25 else 32 := by
  have hyear := @size_zeroPad 4 (now.year + 1) (by decide) (by omega)
  have hmonth := @size_mark_zeroPad '-' (by decide) 2 (now.month + 1) (by decide) (by omega)
  have hday := @size_mark_zeroPad '-' (by decide) 2 (now.day + 1) (by decide) (by omega)
  have hhour := @size_mark_zeroPad 'T' (by decide) 2 now.hour (by decide) (by omega)
  have hminute := @size_mark_zeroPad ':' (by decide) 2 now.minute (by decide) (by omega)
  have hsecond := @size_mark_zeroPad ':' (by decide) 2 now.second (by decide) (by omega)
  have hmicro := @size_mark_zeroPad '.' (by decide) 6 now.microsecond (by decide) (by omega)
  have hzone : (String.ofList "+00:00".toList).utf8ByteSize = 6 := rfl
  unfold Instant.isoformat
  simp only [String.ofList_append, String.utf8ByteSize_append, hyear, hmonth, hday, hhour, hminute,
    hsecond, hzone]
  split_ifs
  · rfl
  · rw [hmicro]


/-- The line that leads to the files of the pages before and after the page at `i`. -/
def linkLine (filenames : List String) (i : Nat) : String :=
  " | ".intercalate (((filenames.take i).getLast?.map previousLink).toList ++
    [pageLabel (i + 1) filenames.length] ++ ((filenames.drop (i + 1)).head?.map nextLink).toList)

theorem catalogNavigation_eq {n : Nat} (hi : i < n) :
    catalogNavigation folder (i + 1) n =
      linkLine ((List.range' 1 n).map catalogPageFilename) i :: parentLines folder ++ [""] := by
  have hprevious : (if 1 < i + 1 then [previousLink (catalogPageFilename (i + 1 - 1))] else []) =
      (((((List.range' 1 n).map catalogPageFilename).take i).getLast?).map
        previousLink).toList := by
    cases i with
    | zero => rfl
    | succ j =>
      rw [if_pos (by omega), List.getLast?_take, if_neg (by omega), Nat.add_sub_cancel,
        List.getElem?_map, List.getElem?_range' (by omega)]
      simp [Nat.add_comm]
  have hnext : (if i + 1 < n then [nextLink (catalogPageFilename (i + 1 + 1))] else []) =
      (((((List.range' 1 n).map catalogPageFilename).drop (i + 1)).head?).map
        nextLink).toList := by
    rw [List.head?_drop, List.getElem?_map]
    split_ifs with hlast
    · rw [List.getElem?_range' hlast]
      simp [Nat.add_comm]
    · rw [List.getElem?_eq_none (by simpa using hlast)]
      rfl
  unfold catalogNavigation navigationLinks linkLine
  rw [hprevious, hnext, List.length_map, List.length_range']

/-- A file name is no longer for a lower number. -/
theorem size_catalogPageFilename_mono {a b : Nat} (ha : 0 < a) (h : a ≤ b) :
    (catalogPageFilename a).utf8ByteSize ≤ (catalogPageFilename b).utf8ByteSize := by
  have hsize : ∀ n : Nat, ("_index-" ++ toString n ++ ".md").utf8ByteSize =
      10 + (toString n).utf8ByteSize := by
    intro n
    rw [String.utf8ByteSize_append, String.utf8ByteSize_append]
    show 7 + _ + 3 = _
    omega
  have hone : "_index.md".utf8ByteSize = 9 := rfl
  unfold catalogPageFilename
  split_ifs with ha' hb
  · exact le_rfl
  · rw [hsize, hone]
    omega
  · omega
  · rw [hsize, hsize]
    have := size_toString_mono h
    omega

theorem size_navigationLinks (page pageCount : Nat) :
    (" | ".intercalate (navigationLinks page pageCount)).utf8ByteSize =
      (if 1 < page then 19 + (catalogPageFilename (page - 1)).utf8ByteSize else 0) +
        (9 + (toString page).utf8ByteSize + (toString pageCount).utf8ByteSize) +
        (if page < pageCount then 15 + (catalogPageFilename (page + 1)).utf8ByteSize else 0) := by
  have hprevious : ∀ name, (previousLink name).utf8ByteSize = 16 + name.utf8ByteSize := by
    intro name
    rw [previousLink, String.utf8ByteSize_append, String.utf8ByteSize_append]
    show 14 + _ + 2 = _
    omega
  have hnext : ∀ name, (nextLink name).utf8ByteSize = 12 + name.utf8ByteSize := by
    intro name
    rw [nextLink, String.utf8ByteSize_append, String.utf8ByteSize_append]
    show 10 + _ + 2 = _
    omega
  have hlabel : (pageLabel page pageCount).utf8ByteSize =
      9 + (toString page).utf8ByteSize + (toString pageCount).utf8ByteSize := by
    rw [pageLabel, String.utf8ByteSize_append, String.utf8ByteSize_append,
      String.utf8ByteSize_append]
    show 5 + _ + 4 + _ = _
    omega
  have hbar : " | ".utf8ByteSize = 3 := rfl
  unfold navigationLinks
  split_ifs <;>
  simp only [List.nil_append, List.append_nil, List.cons_append,
    String.intercalate_cons_cons, String.intercalate_singleton, String.utf8ByteSize_append,
    hprevious, hnext, hlabel, hbar] <;>
  omega

/-- The links of a page take no more than those of a page in the middle of more pages. -/
theorem size_navigationLinks_le {hint : Nat} (hpage : 0 < page) (hcount : page ≤ pageCount)
    (hhint : pageCount ≤ hint) :
    (" | ".intercalate (navigationLinks page pageCount)).utf8ByteSize ≤
      (" | ".intercalate (navigationLinks hint (hint + 1))).utf8ByteSize := by
  rw [size_navigationLinks, size_navigationLinks]
  have hnumber := @size_toString_mono page hint (by omega)
  have hpages := @size_toString_mono pageCount (hint + 1) (by omega)
  have hnext := @size_catalogPageFilename_mono (page + 1) (hint + 1) (by omega) (by omega)
  rw [if_pos (show hint < hint + 1 by omega)]
  by_cases hfirst : 1 < page
  · have hprevious := @size_catalogPageFilename_mono (page - 1) (hint - 1) (by omega) (by omega)
    rw [if_pos hfirst, if_pos (show 1 < hint by omega)]
    split_ifs <;> omega
  · rw [if_neg hfirst]
    split_ifs <;> omega

/-- A page is no longer than a probe at a time whose text is as long. -/
theorem weight_frontLines_le {hint : Nat} {now probed : Instant} (hpage : 0 < page)
    (hcount : page ≤ pageCount) (hhint : pageCount ≤ hint)
    (htime : now.isoformat.utf8ByteSize ≤ probed.isoformat.utf8ByteSize) :
    weight (frontLines folder page pageCount now) ≤
      weight (frontLines folder hint (hint + 1) probed) := by
  have hnumber := @size_toString_mono page hint (by omega)
  have hpages := @size_toString_mono pageCount (hint + 1) (by omega)
  have hlinks := size_navigationLinks_le hpage hcount hhint
  simp only [frontLines, catalogHeader, catalogNavigation, weight_append, weight_cons,
    String.utf8ByteSize_append]
  omega

end
/-! ## What a catalog promises -/

/-- The pages are within the limit, in files of their own, and hold the entries in order; each page
says which of how many it is, and links to the one before and the one after. -/
structure Paginates (folder : String) (limit : Int) (blocks : List String)
    (pages : List (String × String)) : Prop where
  bounded : ∀ page ∈ pages, page.2.utf8ByteSize ≤ limit
  named : (pages.map Prod.fst).Nodup
  partition : ∃ groups : List (List String), groups.flatten = blocks ∧
    groups.length = pages.length ∧ ∀ i group page, groups[i]? = some group → pages[i]? = some page →
      page.1 = catalogPageFilename (i + 1) ∧ ∃ now, page.2 =
        "\n".intercalate (catalogHeader folder (i + 1) pages.length now ++ headingLines folder ++
          (linkLine (pages.map Prod.fst) i :: parentLines folder ++ [""]) ++ entryLines group)

/-- The catalog paginates its entries, or is refused for one that does not fit on a page of its own,
as pages are probed, at some reading of the clock. -/
def PaginatedExactly [WorkingDir] [PythonText] (request : CatalogRequest)
    (clock : Stream' Instant) : Prop :=
  match generateCatalogPages request clock with
  | .error exn => ∃ blocks, catalogBlocks request = .ok blocks ∧ ∃ block ∈ blocks,
      exn = entryExceedsLimit request.folder block ∧ ∃ now ∈ Set.range clock.get,
        request.limit < (probe request.folder blocks.length [block] now).utf8ByteSize
  | .ok pages => ∃ blocks, catalogBlocks request = .ok blocks ∧
      Paginates request.folder request.limit blocks pages

/-- The limit is positive, no note has a blank path, the page without entries fits at any time, and
so does every page of a split of the entries, as it is rendered. -/
structure Paginable [WorkingDir] [PythonText] (request : CatalogRequest) : Prop where
  positive : 0 < request.limit
  named : ∀ note ∈ request.notes, note.relPath ≠ ""
  blank : request.notes = [] → request.childDirs = [] → ∀ now,
    (renderCatalogPage request.folder [] 1 1 now).utf8ByteSize ≤ request.limit
  full : ∀ blocks pages, catalogBlocks request = .ok blocks →
    Split request.folder request.limit blocks.length Set.univ blocks pages →
    ∀ i page, pages[i]? = some page → ∀ now,
      (renderCatalogPage request.folder page (i + 1) pages.length now).utf8ByteSize ≤ request.limit

theorem pageExceedsLimit_ne (folder filename content block : String) :
    pageExceedsLimit folder filename content ≠ entryExceedsLimit folder block := by
  intro h
  have hletter := congrArg (fun exn : Exn => exn.message.toList[8]?) h
  simp [pageExceedsLimit, entryExceedsLimit, valueError] at hletter

section
variable {folder : String} {limit : Int} {blocks : List String} {pages : List (List String)}
  {clock rest : Stream' Instant}

theorem flatten_of_partitionBlocks
    (h : partitionBlocks folder limit blocks clock = .ok (pages, rest)) :
    pages.flatten = blocks := by
  by_cases hne : blocks = []
  · rw [partitionBlocks, if_pos hne] at h
    cases h
    rw [hne]
    rfl
  · exact (partitionBlocks_ok hne h).1.entries

/-- Rendered pages that fit paginate the entries. -/
theorem paginates_renderPages (hentries : pages.flatten = blocks)
    (hfits : ∀ page ∈ renderPages folder pages.length 1 pages rest,
      (page.2.utf8ByteSize : Int) ≤ limit) :
    Paginates folder limit blocks (renderPages folder pages.length 1 pages rest) := by
  refine ⟨hfits, ?_, pages, hentries, length_renderPages.symm, ?_⟩
  · rw [map_fst_renderPages]
    exact List.Nodup.map (fun _ _ => catalogPageFilename_injective) List.nodup_range'
  · intro i group page hgroup hpage
    obtain ⟨hi, -⟩ := List.getElem?_eq_some_iff.mp hgroup
    rw [getElem?_renderPages, hgroup, Nat.add_comm 1 i, Option.map_some, Option.some_inj] at hpage
    obtain ⟨hname, htext⟩ := Prod.ext_iff.mp hpage
    refine ⟨hname.symm, rest.get i, ?_⟩
    rw [← htext, length_renderPages, map_fst_renderPages, ← catalogNavigation_eq hi]
    dsimp only
    unfold renderCatalogPage
    rfl

/-- All rendered pages fit. -/
theorem forall_renderPages_iff :
    (∀ page ∈ renderPages folder pages.length 1 pages rest,
        (page.2.utf8ByteSize : Int) ≤ limit) ↔
      ∀ i page, pages[i]? = some page →
        (renderCatalogPage folder page (i + 1) pages.length (rest.get i)).utf8ByteSize ≤ limit := by
  constructor
  · intro h i page hpage
    have hrendered := @getElem?_renderPages folder pages.length 1 i pages rest
    rw [hpage, Nat.add_comm 1 i, Option.map_some] at hrendered
    have hfits := h _ (List.mem_of_getElem? hrendered)
    dsimp only at hfits
    exact hfits
  · intro h rendered hrendered
    obtain ⟨i, hi⟩ := List.mem_iff_getElem?.mp hrendered
    rw [getElem?_renderPages, Nat.add_comm 1 i] at hi
    obtain ⟨page, hpage, heq⟩ := Option.map_eq_some_iff.mp hi
    have hfits := h i page hpage
    rw [← heq]
    dsimp only
    exact hfits

variable [WorkingDir] [PythonText] {request : CatalogRequest}

omit [WorkingDir] [PythonText] in
theorem eq_of_getElem?_blank {i : Nat} {page : List String}
    (h : ([[]] : List (List String))[i]? = some page) : i = 0 ∧ page = [] := by
  cases i with
  | zero => exact ⟨rfl, (Option.some.inj h).symm⟩
  | succ i => cases h

theorem generateCatalogPages_of_ok (hpositive : 0 < request.limit)
    (hblocks : catalogBlocks request = .ok blocks) : generateCatalogPages request clock =
      partitionBlocks request.folder request.limit blocks clock >>= fun found =>
        let rendered := renderPages request.folder found.1.length 1 found.1 found.2
        match rendered.filter fun page => request.limit < (page.2.utf8ByteSize : Int) with
        | (filename, content) :: _ => .error (pageExceedsLimit request.folder filename content)
        | [] => .ok rendered := by
  unfold generateCatalogPages raiseIf
  rw [if_neg (by omega), hblocks]
  rfl

/-- With one clock, the promise is kept when the pages it leads to fit as they are rendered. -/
theorem paginatedExactly_iff (hpositive : 0 < request.limit)
    (hblocks : catalogBlocks request = .ok blocks) : PaginatedExactly request clock ↔
      ∀ pages rest, partitionBlocks request.folder request.limit blocks clock = .ok (pages, rest) →
        ∀ i page, pages[i]? = some page → (renderCatalogPage request.folder page (i + 1)
          pages.length (rest.get i)).utf8ByteSize ≤ request.limit := by
  unfold PaginatedExactly
  rw [generateCatalogPages_of_ok hpositive hblocks]
  cases hpartition : partitionBlocks request.folder request.limit blocks clock with
  | error exn => exact ⟨nofun, fun _ => ⟨blocks, hblocks, partitionBlocks_error hpartition⟩⟩
  | ok found =>
    obtain ⟨pages, rest⟩ := found
    have hentries := flatten_of_partitionBlocks hpartition
    show (match (match (renderPages request.folder pages.length 1 pages rest).filter _ with
      | (filename, content) :: _ => Except.error (pageExceedsLimit request.folder filename content)
      | [] => Except.ok (renderPages request.folder pages.length 1 pages rest)) with
      | .error exn => _
      | .ok pages => _) ↔ _
    cases hlarge : (renderPages request.folder pages.length 1 pages rest).filter
        fun page => request.limit < (page.2.utf8ByteSize : Int) with
    | nil =>
      have hfits : ∀ page ∈ renderPages request.folder pages.length 1 pages rest,
          (page.2.utf8ByteSize : Int) ≤ request.limit := by
        simpa [List.filter_eq_nil_iff] using hlarge
      refine ⟨fun _ pages' rest' heq => ?_, fun _ => ⟨blocks, hblocks,
        paginates_renderPages hentries hfits⟩⟩
      cases heq
      exact forall_renderPages_iff.mp hfits
    | cons large others =>
      obtain ⟨filename, content⟩ := large
      have hmem := List.mem_filter.mp (hlarge ▸ List.mem_cons_self)
      constructor
      · rintro ⟨_, -, block, -, heq, -⟩
        exact absurd heq (pageExceedsLimit_ne _ _ _ _)
      · intro h
        have hfits := forall_renderPages_iff.mpr (h pages rest rfl) _ hmem.1
        have := of_decide_eq_true hmem.2
        omega

theorem paginatedExactly_positive (h : PaginatedExactly request clock) : 0 < request.limit := by
  by_contra hnot
  unfold PaginatedExactly generateCatalogPages raiseIf at h
  rw [if_pos (by omega)] at h
  obtain ⟨_, -, block, -, heq, -⟩ := h
  have hletter := congrArg (fun exn : Exn => exn.message.toList[0]?) heq
  simp [entryExceedsLimit, valueError] at hletter

theorem paginatedExactly_blocks (h : PaginatedExactly request clock) :
    ∃ blocks, catalogBlocks request = .ok blocks := by
  unfold PaginatedExactly at h
  split at h
  · exact ⟨_, h.choose_spec.1⟩
  · exact ⟨_, h.choose_spec.1⟩

theorem blank_iff (hblocks : catalogBlocks request = .ok blocks) :
    blocks = [] ↔ request.notes = [] ∧ request.childDirs = [] := by
  rw [← List.length_eq_zero_iff, length_catalogBlocks hblocks]
  simp [and_comm]

/-- Whatever the clock returns, the catalog keeps its promise exactly when every page of a split of
the entries fits as it is rendered. -/
theorem generateCatalogPages_exact_iff (request : CatalogRequest) :
    (∀ clock, PaginatedExactly request clock) ↔ Paginable request := by
  constructor
  · intro hexact
    have hsome := hexact (Stream'.const ⟨0, 0, 0, 0, 0, 0, 0⟩)
    have hpositive := paginatedExactly_positive hsome
    have hblocks := paginatedExactly_blocks hsome
    refine ⟨hpositive, catalogBlocks_ok_iff.mp hblocks, ?_, ?_⟩
    · intro hnotes hchildren now
      obtain ⟨blocks, hblocks⟩ := hblocks
      have hnil := (blank_iff hblocks).mpr ⟨hnotes, hchildren⟩
      subst hnil
      exact (paginatedExactly_iff hpositive hblocks).mp (hexact (Stream'.const now)) _ _
        partitionBlocks_nil 0 [] rfl
    · intro blocks pages hblocks hsplit i page hpage now
      have hne : blocks ≠ [] := by
        rintro rfl
        have hmem := List.mem_of_getElem? hpage
        exact (hsplit.fits page hmem).1 (List.flatten_eq_nil_iff.mp hsplit.entries page hmem)
      obtain ⟨clock, hpartition⟩ := exists_clock hne hsplit (Stream'.const now)
      exact (paginatedExactly_iff hpositive hblocks).mp (hexact clock) _ _ hpartition i page hpage
  · intro h clock
    obtain ⟨blocks, hblocks⟩ := catalogBlocks_ok_iff.mpr h.named
    rw [paginatedExactly_iff h.positive hblocks]
    intro pages rest hpartition i page hpage
    by_cases hne : blocks = []
    · have hnone := (blank_iff hblocks).mp hne
      rw [hne, partitionBlocks_nil] at hpartition
      cases hpartition
      obtain ⟨rfl, rfl⟩ := eq_of_getElem?_blank hpage
      exact h.blank hnone.1 hnone.2 _
    · have hsplit := (partitionBlocks_ok hne hpartition).1.mono (Set.subset_univ _)
      exact h.full blocks pages hblocks hsplit i page hpage _

/-- The promise is kept by a clock whose readings all have microseconds, or all have none. -/
theorem paginatedExactly_of_steady (hpositive : 0 < request.limit)
    (hnamed : ∀ note ∈ request.notes, note.relPath ≠ "")
    (hblank : request.notes = [] → request.childDirs = [] → ∀ now,
      (renderCatalogPage request.folder [] 1 1 now).utf8ByteSize ≤ request.limit)
    (hsteady : ∀ i j, (clock.get i).microsecond.val = 0 → (clock.get j).microsecond.val = 0) :
    PaginatedExactly request clock := by
  obtain ⟨blocks, hblocks⟩ := catalogBlocks_ok_iff.mpr hnamed
  rw [paginatedExactly_iff hpositive hblocks]
  intro pages rest hpartition i page hpage
  by_cases hne : blocks = []
  · have hnone := (blank_iff hblocks).mp hne
    rw [hne, partitionBlocks_nil] at hpartition
    cases hpartition
    obtain ⟨rfl, rfl⟩ := eq_of_getElem?_blank hpage
    exact hblank hnone.1 hnone.2 _
  · obtain ⟨hsplit, hrest⟩ := partitionBlocks_ok hne hpartition
    obtain ⟨hi, -⟩ := List.getElem?_eq_some_iff.mp hpage
    obtain ⟨hpage, now, ⟨call, hcall⟩, hfits⟩ := hsplit.fits page (List.mem_of_getElem? hpage)
    obtain ⟨call', hcall'⟩ := hrest i
    have htime : (rest.get i).isoformat.utf8ByteSize ≤ now.isoformat.utf8ByteSize := by
      rw [size_isoformat, size_isoformat, ← hcall, ← hcall']
      have := hsteady call call'
      split_ifs <;> omega
    have hlength : pages.length ≤ blocks.length := by
      rw [← hsplit.entries]
      exact length_le_length_flatten fun page hpage => (hsplit.fits page hpage).1
    have hfront := @weight_frontLines_le request.folder pages.length (i + 1) blocks.length
      (rest.get i) now (by omega) (by omega) hlength htime
    have hreal := @size_renderCatalogPage request.folder (i + 1) pages.length (rest.get i) page
    have hprobe := @size_renderCatalogPage request.folder blocks.length (blocks.length + 1) now page
    unfold probe at hfits
    omega

end

/-- The first second of a year, and its first microsecond. -/
def wholeSecond : Instant := ⟨2025, 0, 0, 0, 0, 0, 0⟩

/-- The time passes from a whole second while the pages are probed. -/
def unevenClock : Stream' Instant := fun call =>
  if call < 5 then wholeSecond else { wholeSecond with microsecond := 1 }

/-- A directory of three, one of which fits on a page that is probed at a whole second. -/
def threeFolders : CatalogRequest where
  folder := "01_Projects"
  notes := []
  childDirs := ["01_Projects/a", "01_Projects/b", "01_Projects/c"]
  noteCounts := []
  maxBytes := some 444

theorem threeFolders_refused :
    @generateCatalogPages ⟨[]⟩ PythonText.ascii threeFolders unevenClock =
      .error (valueError "catalog_page_exceeds_limit:01_Projects/_index-2.md:449") := by
  decide +kernel

/-- Three entries that fit, on pages of which the second one does not. -/
theorem threeFolders_not_exact :
    ¬ ∀ clock, @PaginatedExactly ⟨[]⟩ PythonText.ascii threeFolders clock := by
  intro h
  have hexact := h unevenClock
  unfold PaginatedExactly at hexact
  rw [threeFolders_refused] at hexact
  obtain ⟨_, -, block, -, hexn, -⟩ := hexact
  have hletter := congrArg (fun exn : Exn => exn.message.toList[8]?) hexn
  simp [entryExceedsLimit, valueError] at hletter

end PowerFramework.Catalog
