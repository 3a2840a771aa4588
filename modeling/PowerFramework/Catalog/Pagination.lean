import Mathlib.Data.List.Chain
import Mathlib.Data.Stream.Init
import PowerFramework.Catalog.Pages
import PowerFramework.Lib.Run
import PowerFramework.Lib.Utf8
/-!
# Splitting the entries

The entries of a catalog are split into pages: each page fits as it was probed, and would not have
with the first entry of the next one.  Every split is the one that some clock leads to
(`exists_clock`).
-/

namespace PowerFramework.Catalog

open Lib Lib.Failure Lib.Json Lib.JsonText Lib.Run

/-! ## Sizes -/

/-- The bytes of some lines with their line ends. -/
def weight (lines : List String) : Nat := (lines.map fun line => line.utf8ByteSize + 1).sum

@[simp] theorem weight_nil : weight [] = 0 := rfl

@[simp] theorem weight_cons (line : String) (lines : List String) :
    weight (line :: lines) = line.utf8ByteSize + 1 + weight lines := by
  simp [weight]

@[simp] theorem weight_append (front back : List String) :
    weight (front ++ back) = weight front + weight back := by
  simp [weight]

/-- The lines of a page above its entries. -/
def frontLines (folder : String) (page pageCount : Nat) (now : Instant) : List String :=
  catalogHeader folder page pageCount now ++ headingLines folder ++
    catalogNavigation folder page pageCount

section
variable {folder : String} {page pageCount hint : Nat} {now : Instant} {blocks : List String}

theorem size_renderCatalogPage :
    (renderCatalogPage folder blocks page pageCount now).utf8ByteSize + 1 =
      weight (frontLines folder page pageCount now) + weight (entryLines blocks) := by
  have hsize := @Utf8.utf8ByteSize_intercalate "\n"
    (frontLines folder page pageCount now ++ entryLines blocks) (by simp [frontLines, catalogHeader])
  rw [← weight_append]
  exact hsize

theorem entryLines_of_ne_nil (hne : blocks ≠ []) : entryLines blocks = blocks := if_neg hne

/-- A probe with fewer entries is no longer. -/
theorem size_probe_mono {more : List String} (hne : blocks ≠ []) :
    (probe folder hint blocks now).utf8ByteSize ≤
      (probe folder hint (blocks ++ more) now).utf8ByteSize := by
  have hfew := @size_renderCatalogPage folder hint (hint + 1) now blocks
  have hmany := @size_renderCatalogPage folder hint (hint + 1) now (blocks ++ more)
  rw [entryLines_of_ne_nil hne] at hfew
  rw [entryLines_of_ne_nil (by simp [hne]), weight_append] at hmany
  unfold probe
  omega

end

/-! ## Splits of the entries -/

/-- A page and the first entry of the next one were too much for one page, at some reading. -/
def Overfull (folder : String) (limit : Int) (hint : Nat) (readings : Set Instant)
    (page next : List String) : Prop :=
  ∃ now ∈ readings, ∃ block ∈ next.head?,
    limit < (probe folder hint (page ++ [block]) now).utf8ByteSize

/-- The entries by page: each page fits, and would not with one entry more, at some readings. -/
structure Split (folder : String) (limit : Int) (hint : Nat) (readings : Set Instant)
    (blocks : List String) (pages : List (List String)) : Prop where
  entries : pages.flatten = blocks
  fits : ∀ page ∈ pages, page ≠ [] ∧
    ∃ now ∈ readings, (probe folder hint page now).utf8ByteSize ≤ limit
  tight : pages.IsChain (Overfull folder limit hint readings)

section
variable {folder : String} {limit : Int} {hint : Nat} {readings : Set Instant}
  {blocks done : List String} {pages : List (List String)} {block : String} {s next : Paging}
  {exn : Exn} {clock rest : Stream' Instant}

theorem Split.mono {more : Set Instant} (hmore : readings ⊆ more)
    (h : Split folder limit hint readings blocks pages) :
    Split folder limit hint more blocks pages := by
  refine ⟨h.entries, fun page hpage => ?_, h.tight.imp fun page next => ?_⟩
  · obtain ⟨hne, now, hnow, hfits⟩ := h.fits page hpage
    exact ⟨hne, now, hmore hnow, hfits⟩
  · rintro ⟨now, hnow, block, hblock, hfull⟩
    exact ⟨now, hmore hnow, block, hblock, hfull⟩

/-- What one entry does: it goes on the page being filled, or starts the next page. -/
theorem addBlock_cases (h : addBlock folder limit hint s block = .ok next) :
    ((probe folder hint (s.current ++ [block]) s.clock.head).utf8ByteSize ≤ limit ∧
        next = ⟨s.pages, s.current ++ [block], s.clock.tail⟩) ∨
      s.current ≠ [] ∧
        limit < (probe folder hint (s.current ++ [block]) s.clock.head).utf8ByteSize ∧
        (probe folder hint [block] s.clock.tail.head).utf8ByteSize ≤ limit ∧
        next = ⟨s.pages ++ [s.current], [block], s.clock.tail.tail⟩ := by
  unfold addBlock at h
  split_ifs at h with hfits hcurrent hsingle
  · exact .inl ⟨hfits, (Except.ok.inj h).symm⟩
  · exact .inr ⟨hcurrent, by omega, by omega, (Except.ok.inj h).symm⟩

/-- An entry is refused when it does not fit on a page of its own. -/
theorem addBlock_error (h : addBlock folder limit hint s block = .error exn) :
    exn = entryExceedsLimit folder block ∧
      ∃ call, limit < (probe folder hint [block] (s.clock.get call)).utf8ByteSize := by
  unfold addBlock at h
  split_ifs at h with hfits hcurrent hsingle
  · rw [hcurrent, List.nil_append] at hfits
    exact ⟨(Except.error.inj h).symm, 0, not_le.mp hfits⟩
  · exact ⟨(Except.error.inj h).symm, 1, hsingle⟩

/-- The pages so far split the entries so far. -/
structure Filling (folder : String) (limit : Int) (hint : Nat) (readings : Set Instant)
    (done : List String) (s : Paging) : Prop where
  ahead : ∀ call, s.clock.get call ∈ readings
  split : done = [] ∧ s.pages = [] ∧ s.current = [] ∨
    Split folder limit hint readings done (s.pages ++ [s.current])

/-- One entry more keeps the split. -/
theorem Filling.step (h : Filling folder limit hint readings done s)
    (hstep : addBlock folder limit hint s block = .ok next) :
    Filling folder limit hint readings (done ++ [block]) next := by
  rcases addBlock_cases hstep with ⟨hfits, rfl⟩ | ⟨hcurrent, hfull, hfits, rfl⟩
  · refine ⟨fun call => h.ahead (call + 1), .inr ?_⟩
    rcases h.split with ⟨rfl, hpages, hcurrent⟩ | hsplit
    · rw [hcurrent, List.nil_append] at hfits
      rw [hpages, hcurrent]
      exact ⟨rfl, by simpa using ⟨_, h.ahead 0, hfits⟩, List.isChain_singleton _⟩
    · have hcurrent := (hsplit.fits s.current (by simp)).1
      constructor
      · rw [← hsplit.entries]
        simp
      · intro page hpage
        rcases List.mem_append.mp hpage with hpage | hpage
        · exact hsplit.fits page (List.mem_append_left _ hpage)
        · rw [List.mem_singleton] at hpage
          rw [hpage]
          exact ⟨by simp, _, h.ahead 0, hfits⟩
      · have htight := List.isChain_append.mp hsplit.tight
        refine List.isChain_append.mpr ⟨htight.1, List.isChain_singleton _, ?_⟩
        intro page hpage next hnext
        have hold := htight.2.2 page hpage s.current rfl
        simp only [List.head?_cons, Option.mem_some_iff] at hnext
        rw [← hnext]
        unfold Overfull at hold ⊢
        rwa [List.head?_append_of_ne_nil _ hcurrent]
  · refine ⟨fun call => h.ahead (call + 2), .inr ?_⟩
    rcases h.split with ⟨-, -, hnil⟩ | hsplit
    · exact absurd hnil hcurrent
    · constructor
      · rw [← hsplit.entries]
        simp
      · intro page hpage
        rcases List.mem_append.mp hpage with hpage | hpage
        · exact hsplit.fits page hpage
        · rw [List.mem_singleton] at hpage
          rw [hpage]
          exact ⟨by simp, _, h.ahead 1, hfits⟩
      · refine List.isChain_append.mpr ⟨hsplit.tight, List.isChain_singleton _, ?_⟩
        intro page hpage next hnext
        simp only [List.getLast?_append, List.getLast?_singleton, Option.some_or,
          Option.mem_some_iff, List.head?_cons] at hpage hnext
        rw [← hpage, ← hnext]
        exact ⟨_, h.ahead 0, block, rfl, hfull⟩

theorem Filling.run (h : Filling folder limit hint readings done s)
    (hrun : blocks.foldlM (addBlock folder limit hint) s = .ok next) :
    Filling folder limit hint readings (done ++ blocks) next := by
  induction blocks generalizing done s with
  | nil =>
    rw [foldlM_nil_eq_ok] at hrun
    rw [List.append_nil, ← hrun]
    exact h
  | cons block blocks ih =>
    obtain ⟨mid, hstep, hrest⟩ := foldlM_cons_eq_ok.mp hrun
    have hmid := ih (h.step hstep) hrest
    rwa [List.append_assoc] at hmid

theorem Filling.refused (h : Filling folder limit hint readings done s)
    (hrun : blocks.foldlM (addBlock folder limit hint) s = .error exn) :
    ∃ block ∈ blocks, exn = entryExceedsLimit folder block ∧
      ∃ now ∈ readings, limit < (probe folder hint [block] now).utf8ByteSize := by
  induction blocks generalizing done s with
  | nil => cases hrun
  | cons block blocks ih =>
    rw [List.foldlM_cons] at hrun
    rcases bind_eq_error.mp hrun with hstep | ⟨mid, hstep, hrest⟩
    · obtain ⟨hexn, call, hfull⟩ := addBlock_error hstep
      exact ⟨block, List.mem_cons_self, hexn, _, h.ahead call, hfull⟩
    · obtain ⟨other, hother, hexn⟩ := ih (h.step hstep) hrest
      exact ⟨other, List.mem_cons_of_mem _ hother, hexn⟩

theorem Filling.start (clock : Stream' Instant) :
    Filling folder limit hint (Set.range clock.get) [] ⟨[], [], clock⟩ :=
  ⟨fun call => ⟨call, rfl⟩, .inl ⟨rfl, rfl, rfl⟩⟩

/-- The entries are partitioned into pages that split them. -/
theorem partitionBlocks_ok (hne : blocks ≠ [])
    (h : partitionBlocks folder limit blocks clock = .ok (pages, rest)) :
    Split folder limit blocks.length (Set.range clock.get) blocks pages ∧
      ∀ call, rest.get call ∈ Set.range clock.get := by
  unfold partitionBlocks at h
  rw [if_neg hne, bind_eq_ok] at h
  obtain ⟨s, hrun, hpages⟩ := h
  cases hpages
  have hfilling := (Filling.start clock).run hrun
  refine ⟨?_, hfilling.ahead⟩
  rcases hfilling.split with ⟨hnil, -, -⟩ | hsplit
  · exact absurd hnil hne
  · rw [if_neg (hsplit.fits s.current (by simp)).1]
    exact hsplit

theorem partitionBlocks_nil : partitionBlocks folder limit [] clock = .ok ([[]], clock) := rfl

theorem partitionBlocks_error (h : partitionBlocks folder limit blocks clock = .error exn) :
    ∃ block ∈ blocks, exn = entryExceedsLimit folder block ∧
      ∃ now ∈ Set.range clock.get,
        limit < (probe folder blocks.length [block] now).utf8ByteSize := by
  unfold partitionBlocks at h
  split_ifs at h with hnil
  rcases bind_eq_error.mp h with hrun | ⟨s, -, hpages⟩
  · exact (Filling.start clock).refused hrun
  · cases hpages

theorem length_le_length_flatten {α : Type} {xss : List (List α)} (h : ∀ xs ∈ xss, xs ≠ []) :
    xss.length ≤ xss.flatten.length := by
  induction xss with
  | nil => rfl
  | cons xs xss ih =>
    have hrest := ih fun ys hys => h ys (List.mem_cons_of_mem _ hys)
    have hfirst := List.length_pos_iff.mpr (h xs List.mem_cons_self)
    rw [List.flatten_cons, List.length_append, List.length_cons]
    omega

/-! ## A clock for every split -/

/-- At a time it fits at, the rest of a page is filled. -/
theorem foldlM_fill {current more : List String} {now : Instant}
    (hfits : (probe folder hint (current ++ more) now).utf8ByteSize ≤ limit) :
    more.foldlM (addBlock folder limit hint)
        ⟨pages, current, List.replicate more.length now ++ₛ clock⟩ =
      .ok ⟨pages, current ++ more, clock⟩ := by
  induction more generalizing current with
  | nil =>
    rw [List.append_nil]
    rfl
  | cons block more ih =>
    rw [← List.singleton_append, ← List.append_assoc] at hfits
    have hfirst := @size_probe_mono folder hint now (current ++ [block]) more (by simp)
    have hstep : addBlock folder limit hint
        ⟨pages, current, List.replicate (more.length + 1) now ++ₛ clock⟩ block =
        .ok ⟨pages, current ++ [block], List.replicate more.length now ++ₛ clock⟩ := by
      unfold addBlock
      exact if_pos (by
        show ((probe folder hint (current ++ [block]) now).utf8ByteSize : Int) ≤ limit
        omega)
    rw [List.length_cons, List.foldlM_cons, hstep]
    have hrest := ih hfits
    rwa [List.append_assoc, List.singleton_append] at hrest

/-- The pages after the one being filled are filled at some readings. -/
theorem exists_readings {current : List String} (hcurrent : current ≠ [])
    (hfits : ∀ page ∈ pages, page ≠ [] ∧
      ∃ now ∈ readings, (probe folder hint page now).utf8ByteSize ≤ limit)
    (htight : (current :: pages).IsChain (Overfull folder limit hint readings))
    (before : List (List String)) :
    ∃ stamps front last, last ≠ [] ∧ front ++ [last] = before ++ current :: pages ∧
      ∀ clock, pages.flatten.foldlM (addBlock folder limit hint)
        ⟨before, current, stamps ++ₛ clock⟩ = .ok ⟨front, last, clock⟩ := by
  induction pages generalizing current before with
  | nil => exact ⟨[], before, current, hcurrent, rfl, fun _ => rfl⟩
  | cons page pages ih =>
    obtain ⟨hoverfull, htight'⟩ := List.isChain_cons_cons.mp htight
    obtain ⟨hpage, now, -, hnow⟩ := hfits page List.mem_cons_self
    obtain ⟨full, -, block, hblock, hfull⟩ := hoverfull
    obtain ⟨more, rfl⟩ : ∃ more, page = block :: more := by
      cases page with
      | nil => cases hblock
      | cons b more =>
        cases hblock
        exact ⟨more, rfl⟩
    obtain ⟨stamps, front, last, hlast, hfront, hrun⟩ :=
      ih hpage (fun other hother => hfits other (List.mem_cons_of_mem _ hother)) htight'
        (before ++ [current])
    refine ⟨full :: now :: (List.replicate more.length now ++ stamps), front, last, hlast, ?_, ?_⟩
    · rw [hfront]
      simp
    · intro clock
      have hsingle := @size_probe_mono folder hint now [block] more (by simp)
      have hturn : addBlock folder limit hint
          ⟨before, current, (full :: now :: (List.replicate more.length now ++ stamps)) ++ₛ clock⟩
            block =
          .ok ⟨before ++ [current], [block], List.replicate more.length now ++ₛ (stamps ++ₛ clock)⟩ := by
        unfold addBlock
        rw [if_neg, if_neg hcurrent, if_neg]
        · rw [← Stream'.append_append_stream]
          rfl
        · show ¬ limit < ((probe folder hint [block] now).utf8ByteSize : Int)
          rw [List.singleton_append] at hsingle
          omega
        · show ¬ ((probe folder hint (current ++ [block]) full).utf8ByteSize : Int) ≤ limit
          omega
      rw [List.flatten_cons, List.cons_append, List.foldlM_cons, hturn]
      have hfill := @foldlM_fill folder limit hint (before ++ [current]) (stamps ++ₛ clock)
        [block] more now hnow
      rw [← hrun clock]
      show (more ++ pages.flatten).foldlM (addBlock folder limit hint) _ = _
      rw [List.foldlM_append, hfill]
      rfl

/-- Every split is what the entries are partitioned into, by some clock. -/
theorem exists_clock (hne : blocks ≠ [])
    (h : Split folder limit blocks.length readings blocks pages) (rest : Stream' Instant) :
    ∃ clock, partitionBlocks folder limit blocks clock = .ok (pages, rest) := by
  obtain ⟨hentries, hfits, htight⟩ := h
  cases pages with
  | nil => exact absurd hentries.symm hne
  | cons page pages =>
    obtain ⟨hpage, now, -, hnow⟩ := hfits page List.mem_cons_self
    obtain ⟨stamps, front, last, hlast, hfront, hrun⟩ := exists_readings hpage
      (fun other hother => hfits other (List.mem_cons_of_mem _ hother)) htight []
    refine ⟨List.replicate page.length now ++ₛ (stamps ++ₛ rest), ?_⟩
    have hfill := @foldlM_fill folder limit blocks.length [] (stamps ++ₛ rest) [] page now hnow
    unfold partitionBlocks
    rw [if_neg hne]
    nth_rewrite 2 [← hentries]
    rw [List.flatten_cons, List.foldlM_append, hfill]
    show (pages.flatten.foldlM (addBlock folder limit blocks.length) _ >>= _) = _
    rw [List.nil_append, hrun rest]
    show Except.ok _ = _
    rw [if_neg hlast, hfront, List.nil_append]

end

end PowerFramework.Catalog
