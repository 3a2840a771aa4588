import PowerFramework.Lib.Segments
import PowerFramework.Retrieval.Packing
/-!
# Sanitised identifiers

What `_safe_identifier` makes of a text is an `Identifier` unless a drive letter is left in front
once another one has been dropped, or the cut at 256 characters falls behind two dots
(`isIdentifier_safeIdentifier_iff`).
-/

namespace PowerFramework.Retrieval

open Lib Lib.Json Lib.Text Lib.Segments Search

/-! ## What is kept -/

/-- The segments that are kept behind scheme and drive. -/
def keptSegments (val : String) : List (List Char) :=
  ((withoutDrive (afterScheme (stripSlashes val.toList))).splitOn '/').filter
    fun part => part ≠ [] ∧ part ≠ ['.', '.']

def keptText (val : String) : List Char := ['/'].intercalate (keptSegments val)

/-- The prefix goes in front of a text that does not start with a letter or digit. -/
def fronted (lead : String) (text : List Char) : List Char :=
  match text with
  | c :: cs => if isAlnum c then c :: cs else lead.toList ++ '-' :: c :: cs
  | [] => lead.toList ++ ['-']

/-- A character that an identifier cannot have is replaced. -/
def replaced (c : Char) : Char := if isIdentifierChar c then c else '_'

/-- The text starts with a letter and a colon. -/
def DriveLike (text : List Char) : Prop :=
  ∃ c rest, text = c :: ':' :: rest ∧ (isUpper c || isLower c) = true

/-- The characters before the cut are a slash and two dots. -/
def CutAtDots (text : List Char) : Prop := (text.drop 253).take 3 = ['/', '.', '.']

/-! ## Characters -/

section
variable {c : Char} {lead : String} {text : List Char}

theorem isIdentifierChar_replaced (c : Char) : isIdentifierChar (replaced c) = true := by
  unfold replaced
  split_ifs with hc
  · exact hc
  · rfl

theorem isAlnum_replaced (c : Char) : isAlnum (replaced c) = isAlnum c := by
  unfold replaced
  split_ifs with hc
  · rfl
  · rw [Bool.not_eq_true, isIdentifierChar, Bool.or_eq_false_iff, Bool.or_eq_false_iff] at hc
    cases halnum : isAlnum c with
    | true =>
      rw [isTokenChar_of_isAlnum halnum] at hc
      cases hc.1.1
    | false => rfl

/-- The replacement is neither a slash nor a dot nor a colon nor a letter. -/
theorem replaced_eq_iff {mark : Char} (hmark : isIdentifierChar mark = true) (hne : mark ≠ '_') :
    replaced c = mark ↔ c = mark := by
  unfold replaced
  split_ifs with hc
  · exact Iff.rfl
  · constructor
    · intro heq
      exact absurd heq.symm hne
    · rintro rfl
      exact absurd hmark hc

theorem map_replaced_of_forall (h : ∀ c ∈ text, isIdentifierChar c = true) :
    text.map replaced = text := by
  conv_rhs => rw [← List.map_id text]
  apply List.map_congr_left
  intro c hc
  exact if_pos (h c hc)

theorem fronted_map_replaced (hlead : ∀ c ∈ lead.toList, isIdentifierChar c = true) :
    fronted lead (text.map replaced) = (fronted lead text).map replaced := by
  have hdash : ['-'].map replaced = ['-'] := rfl
  cases text with
  | nil =>
    show lead.toList ++ ['-'] = (lead.toList ++ ['-']).map replaced
    rw [List.map_append, map_replaced_of_forall hlead, hdash]
  | cons c cs =>
    rw [List.map_cons, fronted, fronted, isAlnum_replaced]
    split_ifs
    · rfl
    · rw [List.map_append, map_replaced_of_forall hlead, List.map_cons, List.map_cons]
      rfl

theorem lt_of_isIdentifierChar (hc : isIdentifierChar c = true) : c.toNat < 128 := by
  simp only [isIdentifierChar, isTokenChar, isAlnum, isDigit, isUpper, isLower, Bool.or_eq_true,
    Bool.and_eq_true, decide_eq_true_eq, beq_iff_eq] at hc
  rcases hc with ((((((hc | hc) | hc) | rfl) | rfl) | rfl) | rfl) | rfl
  · omega
  · omega
  · omega
  all_goals decide

/-- No character of an identifier is a percent sign, in lower case either. -/
theorem toLower_ne_percent (hc : isIdentifierChar c = true) : c.toLower ≠ '%' := by
  intro heq
  have hascii : ∀ n < 128, (Char.ofNat n).toLower = '%' → Char.ofNat n = '%' := by decide
  have hpercent := hascii c.toNat (lt_of_isIdentifierChar hc)
  rw [Char.ofNat_toNat] at hpercent
  rw [hpercent heq] at hc
  exact absurd hc (by decide)

end

/-! ## Checks of an identifier -/

section
variable {text : List Char}

theorem isDrive_ofList_iff : isDrive (String.ofList text) = true ↔ DriveLike text := by
  unfold isDrive DriveLike
  rw [String.toList_ofList]
  constructor
  · intro h
    split at h
    · rename_i c rest
      exact ⟨c, rest, rfl, h⟩
    · cases h
  · rintro ⟨c, rest, rfl, hletter⟩
    exact hletter

theorem isEncoded_eq_false (hchars : ∀ c ∈ text, isIdentifierChar c = true) :
    isEncoded (String.ofList text) = false := by
  have hpercent : ∀ escape : String, '%' ∈ escape.toList →
      isWithin escape (String.ofList (text.map Char.toLower)) = false := by
    intro escape hescape
    rw [isWithin, decide_eq_false_iff_not, String.toList_ofList]
    intro hwithin
    obtain ⟨c, hc, hlower⟩ := List.mem_map.mp (hwithin.subset hescape)
    exact toLower_ne_percent (hchars c hc) hlower
  unfold isEncoded
  rw [String.toList_ofList]
  simp only [List.any_cons, List.any_nil, Bool.or_false, Bool.or_eq_false_iff]
  exact ⟨hpercent _ (by decide), hpercent _ (by decide), hpercent _ (by decide),
    hpercent _ (by decide)⟩

theorem isEscaped_ofList_iff (hchars : ∀ c ∈ text, isIdentifierChar c = true) :
    isEscaped (String.ofList text) = true ↔ [':', '/', '/'] <:+: text := by
  have hbackslash : isWithin "\\" (String.ofList text) = false := by
    rw [isWithin, decide_eq_false_iff_not, @String.toList_ofList text]
    intro hwithin
    have hmem := hchars '\\' (hwithin.subset (List.mem_singleton_self _))
    exact absurd hmem (by decide)
  rw [isEscaped, hbackslash, isEncoded_eq_false hchars, Bool.or_false, Bool.or_false, isWithin,
    decide_eq_true_iff, @String.toList_ofList text]
  rfl

theorem isIdentifier_ofList : isIdentifier (String.ofList text) = (isSafe text &&
    !isAbsolute (String.ofList text) && !isEscaped (String.ofList text) &&
    !traverses (String.ofList text)) := by
  unfold isIdentifier
  rw [@String.toList_ofList text]
  rfl

theorem isSafe_cases (h : isSafe text = true) : ∃ c cs, text = c :: cs ∧ isAlnum c = true ∧
    (∀ c ∈ text, isIdentifierChar c = true) ∧ text.length ≤ 256 := by
  cases text with
  | nil => cases h
  | cons c cs =>
    simp only [isSafe, Bool.and_eq_true, List.all_eq_true, decide_eq_true_eq] at h
    refine ⟨c, cs, rfl, h.1.1, ?_, by rw [List.length_cons]; omega⟩
    rw [List.forall_mem_cons]
    refine ⟨?_, h.1.2⟩
    rw [isIdentifierChar, isTokenChar_of_isAlnum h.1.1]
    rfl

/-- A text is an identifier of at most 256 characters unless it is a drive, holds a scheme or goes
up. -/
theorem isIdentifier_ofList_iff {c : Char} {cs : List Char} (htext : text = c :: cs)
    (hfirst : isAlnum c = true) (hchars : ∀ c ∈ text, isIdentifierChar c = true)
    (hlength : text.length ≤ 256) : isIdentifier (String.ofList text) = true ↔
      ¬ DriveLike text ∧ ¬ [':', '/', '/'] <:+: text ∧ ['.', '.'] ∉ text.splitOn '/' := by
  have hsafe : isSafe text = true := by
    rw [htext] at hchars hlength ⊢
    rw [List.forall_mem_cons] at hchars
    rw [List.length_cons] at hlength
    simp only [isSafe, hfirst, Bool.true_and, Bool.and_eq_true, List.all_eq_true,
      decide_eq_true_eq]
    exact ⟨hchars.2, by omega⟩
  have hstart : ∀ mark : String, mark.toList.head?.any isAlnum = false → mark ≠ "" →
      startsWith mark (String.ofList text) = false := by
    intro mark hmark hne
    rw [startsWith, @String.toList_ofList text, htext]
    cases hchars : mark.toList with
    | nil => exact absurd (String.toList_eq_nil_iff.mp hchars) hne
    | cons m ms =>
      rw [hchars] at hmark
      rw [List.isPrefixOf_cons_cons, Bool.and_eq_false_iff]
      left
      rw [beq_eq_false_iff_ne]
      rintro rfl
      rw [List.head?_cons, Option.any_some, hfirst] at hmark
      cases hmark
  have habsolute : isAbsolute (String.ofList text) = true ↔ DriveLike text := by
    rw [isAbsolute, hstart "/" (by decide) (by decide), hstart "\\" (by decide) (by decide),
      Bool.false_or, Bool.false_or, isDrive_ofList_iff]
  have htraverses : traverses (String.ofList text) = true ↔ ['.', '.'] ∈ text.splitOn '/' := by
    rw [traverses, String.toList_ofList, List.any_eq_true]
    simp
  rw [isIdentifier_ofList, hsafe, Bool.true_and, Bool.and_eq_true, Bool.and_eq_true,
    Bool.not_eq_true', Bool.not_eq_true', Bool.not_eq_true', ← Bool.not_eq_true, ← Bool.not_eq_true,
    ← Bool.not_eq_true, habsolute, isEscaped_ofList_iff hchars, htraverses, and_assoc]

theorem isSafe_of_isIdentifier {value : String} (h : isIdentifier value = true) :
    isSafe value.toList = true := by
  rw [← String.ofList_toList (s := value), isIdentifier_ofList] at h
  simp only [Bool.and_eq_true] at h
  exact h.1.1.1

end

/-! ## The cleaned text -/

section
variable {text marks : List Char} {val lead uuid : String}

theorem map_replaced_eq_iff (hmarks : ∀ mark ∈ marks, isIdentifierChar mark = true ∧ mark ≠ '_') :
    text.map replaced = marks ↔ text = marks := by
  induction text generalizing marks with
  | nil => rfl
  | cons c text ih =>
    cases marks with
    | nil => simp
    | cons mark marks =>
      rw [List.forall_mem_cons] at hmarks
      rw [List.map_cons, List.cons.injEq, List.cons.injEq, ih hmarks.2,
        replaced_eq_iff hmarks.1.1 hmarks.1.2]

theorem map_intercalate (f : Char → Char) (mark : Char) (pieces : List (List Char)) :
    ([mark].intercalate pieces).map f = [f mark].intercalate (pieces.map (List.map f)) := by
  induction pieces with
  | nil => rfl
  | cons piece pieces ih =>
    cases pieces with
    | nil => simp [List.intercalate]
    | cons next pieces =>
      rw [List.map_cons, List.map_cons, List.intercalate_cons_cons, List.intercalate_cons_cons,
        List.map_append, List.map_append, ih]
      rfl

theorem map_replaced_keptText : (keptText val).map replaced =
    ['/'].intercalate ((keptSegments val).map (List.map replaced)) := map_intercalate _ _ _

/-- The pieces of the joined text are the segments, or there is nothing. -/
theorem pieces_joined : (keptText val).map replaced = [] ∨
    ((keptText val).map replaced).splitOn '/' = (keptSegments val).map (List.map replaced) := by
  by_cases hsegments : keptSegments val = []
  · left
    rw [keptText, hsegments]
    rfl
  · right
    rw [map_replaced_keptText]
    apply List.splitOn_intercalate
    · intro segment hsegment hslash
      obtain ⟨kept, hkept, rfl⟩ := List.mem_map.mp hsegment
      obtain ⟨c, hc, hreplaced⟩ := List.mem_map.mp hslash
      rw [replaced_eq_iff (by decide) (by decide)] at hreplaced
      rw [hreplaced] at hc
      exact not_mem_of_mem_splitOn (List.mem_filter.mp hkept).1 hc
    · simpa using hsegments

theorem kept_of_mem {segment : List Char} (h : segment ∈ keptSegments val) :
    segment ≠ [] ∧ segment ≠ ['.', '.'] := of_decide_eq_true (List.mem_filter.mp h).2

theorem dots_not_mem_joined : ['.', '.'] ∉ ((keptText val).map replaced).splitOn '/' := by
  rcases @pieces_joined val with hnil | hpieces
  · rw [hnil]
    decide
  · rw [hpieces]
    intro hmem
    obtain ⟨segment, hsegment, heq⟩ := List.mem_map.mp hmem
    rw [map_replaced_eq_iff (by decide)] at heq
    exact (kept_of_mem hsegment).2 heq

theorem scheme_not_in_joined : ¬ [':', '/', '/'] <:+: (keptText val).map replaced := by
  rcases @pieces_joined val with hnil | hpieces
  · rw [hnil]
    decide
  · have hdouble : ¬ ['/', '/'] <:+: (keptText val).map replaced := by
      apply no_double
      rw [hpieces]
      intro hmem
      obtain ⟨segment, hsegment, heq⟩ := List.mem_map.mp hmem
      exact (kept_of_mem hsegment).1 (List.map_eq_nil_iff.mp heq)
    intro hscheme
    exact hdouble ((List.suffix_cons ':' ['/', '/']).isInfix.trans hscheme)

/-- The text starts with a letter or digit, or follows the prefix and a dash. -/
theorem fronted_cases (lead : String) (text : List Char) :
    (fronted lead text = text ∧ ∃ c cs, text = c :: cs ∧ isAlnum c = true) ∨
      fronted lead text = lead.toList ++ '-' :: text := by
  cases text with
  | nil => exact Or.inr rfl
  | cons c cs =>
    rw [fronted]
    split_ifs with halnum
    · exact Or.inl ⟨rfl, c, cs, rfl, halnum⟩
    · exact Or.inr rfl

/-- The cleaned text is an identifier but for its length, unless it looks like a drive. -/
structure Cleaned (text : List Char) : Prop where
  first : ∃ c cs, text = c :: cs ∧ isAlnum c = true
  chars : ∀ c ∈ text, isIdentifierChar c = true
  scheme : ¬ [':', '/', '/'] <:+: text
  dots : ['.', '.'] ∉ text.splitOn '/'

theorem cleaned_fronted (hlead : isIdentifier lead = true) :
    Cleaned (fronted lead ((keptText val).map replaced)) := by
  obtain ⟨l, ls, hls, hfirst, hchars, hlength⟩ := isSafe_cases (isSafe_of_isIdentifier hlead)
  have hchecks := hlead
  rw [← String.ofList_toList (s := lead), isIdentifier_ofList_iff hls hfirst hchars hlength]
    at hchecks
  have hjoined : ∀ c ∈ (keptText val).map replaced, isIdentifierChar c = true := by
    intro c hc
    obtain ⟨d, -, rfl⟩ := List.mem_map.mp hc
    exact isIdentifierChar_replaced d
  rcases fronted_cases lead ((keptText val).map replaced) with ⟨heq, hstart⟩ | heq
  · rw [heq]
    exact ⟨hstart, hjoined, scheme_not_in_joined, dots_not_mem_joined⟩
  · rw [heq]
    refine ⟨⟨l, ls ++ '-' :: (keptText val).map replaced, by rw [hls]; rfl, hfirst⟩, ?_,
      not_infix_join (by decide) hchecks.2.1 scheme_not_in_joined,
      not_mem_splitOn_join (by decide) (by decide) hchecks.2.2 dots_not_mem_joined⟩
    intro c hc
    rcases List.mem_append.mp hc with hc | hc
    · exact hchars c hc
    · rcases List.mem_cons.mp hc with rfl | hc
      · decide
      · exact hjoined c hc

/-! ## The cut -/

/-- A cut text goes up only if the cut falls behind two dots. -/
theorem dots_mem_take_iff (hdots : ['.', '.'] ∉ text.splitOn '/') :
    ['.', '.'] ∈ (text.take 256).splitOn '/' ↔ CutAtDots text := by
  unfold CutAtDots
  constructor
  · intro hmem
    obtain ⟨hpiece, front, back, heq, hfront, hback⟩ := mem_splitOn_iff.mp hmem
    rcases hback with rfl | ⟨behind, rfl⟩
    · rw [List.append_nil] at heq
      have hlength : front.length = 254 := by
        by_contra hne
        have htake := congrArg List.length heq
        rw [List.length_append, List.length_take] at htake
        simp only [List.length_cons, List.length_nil] at htake
        have hwhole : text.take 256 = text := List.take_of_length_le (by omega)
        rw [hwhole] at hmem
        exact hdots hmem
      rcases hfront with rfl | ⟨before, rfl⟩
      · simp at hlength
      · rw [List.length_append, List.length_singleton] at hlength
        have hbefore : before.length = 253 := by omega
        have htext : text = before ++ (['/', '.', '.'] ++ text.drop 256) := by
          conv_lhs => rw [← List.take_append_drop 256 text, heq]
          simp
        rw [htext, List.drop_left' hbefore]
        rfl
    · exfalso
      apply hdots
      rw [mem_splitOn_iff]
      refine ⟨hpiece, front, '/' :: behind ++ text.drop 256, ?_, hfront,
        Or.inr ⟨behind ++ text.drop 256, rfl⟩⟩
      conv_lhs => rw [← List.take_append_drop 256 text, heq]
      simp
  · intro hcut
    rw [mem_splitOn_iff]
    refine ⟨by decide, text.take 253 ++ ['/'], [], ?_, Or.inr ⟨_, rfl⟩, Or.inl rfl⟩
    have htake : text.take 256 = text.take 253 ++ (text.drop 253).take 3 := by
      rw [← List.take_add]
    rw [htake, hcut]
    simp

theorem driveLike_map_replaced : DriveLike (text.map replaced) ↔ DriveLike text := by
  have hletter : ∀ c, (isUpper (replaced c) || isLower (replaced c)) = (isUpper c || isLower c) := by
    intro c
    by_cases hc : isIdentifierChar c = true
    · rw [replaced, if_pos hc]
    · rw [replaced, if_neg hc]
      rw [Bool.not_eq_true, isIdentifierChar, isTokenChar, isAlnum] at hc
      simp only [Bool.or_eq_false_iff] at hc
      rw [hc.1.1.1.1.1.1.2, hc.1.1.1.1.1.2]
      rfl
  constructor
  · rintro ⟨c, rest, heq, hc⟩
    cases text with
    | nil => cases heq
    | cons first text =>
      cases text with
      | nil => cases heq
      | cons second text =>
        rw [List.map_cons, List.map_cons, List.cons.injEq, List.cons.injEq] at heq
        obtain ⟨rfl, hcolon, rfl⟩ := heq
        rw [replaced_eq_iff (by decide) (by decide)] at hcolon
        rw [hletter] at hc
        exact ⟨first, text, by rw [hcolon], hc⟩
  · rintro ⟨c, rest, rfl, hc⟩
    exact ⟨replaced c, rest.map replaced, rfl, by rw [hletter, hc]⟩

theorem cutAtDots_map_replaced : CutAtDots (text.map replaced) ↔ CutAtDots text := by
  unfold CutAtDots
  rw [← List.map_drop, ← List.map_take, map_replaced_eq_iff (by decide)]

theorem driveLike_take : DriveLike (text.take 256) ↔ DriveLike text := by
  unfold DriveLike
  constructor
  · rintro ⟨c, rest, heq, hc⟩
    refine ⟨c, rest ++ text.drop 256, ?_, hc⟩
    conv_lhs => rw [← List.take_append_drop 256 text, heq]
    rfl
  · rintro ⟨c, rest, rfl, hc⟩
    exact ⟨c, rest.take 254, rfl, hc⟩

/-- The prefix makes no drive, and hides none. -/
theorem driveLike_fronted (hlead : isIdentifier lead = true) :
    DriveLike (fronted lead text) ↔ DriveLike text := by
  obtain ⟨l, ls, hls, hfirst, hchars, hlength⟩ := isSafe_cases (isSafe_of_isIdentifier hlead)
  rw [← String.ofList_toList (s := lead), isIdentifier_ofList_iff hls hfirst hchars hlength]
    at hlead
  cases text with
  | nil =>
    constructor
    · rintro ⟨c, rest, heq, hc⟩
      exfalso
      rw [fronted, hls] at heq
      cases ls with
      | nil => cases heq
      | cons second ls =>
        obtain ⟨rfl, rfl, -⟩ : l = c ∧ second = ':' ∧ ls ++ ['-'] = rest := by simpa using heq
        exact hlead.1 ⟨l, ls, hls, hc⟩
    · rintro ⟨c, rest, heq, -⟩
      cases heq
  | cons first text =>
    rw [fronted]
    split_ifs with halnum
    · exact Iff.rfl
    · constructor
      · rintro ⟨c, rest, heq, hc⟩
        exfalso
        rw [hls] at heq
        cases ls with
        | nil =>
          rw [List.cons_append, List.nil_append, List.cons.injEq, List.cons.injEq] at heq
          exact absurd heq.2.1 (by decide)
        | cons second ls =>
          rw [List.cons_append, List.cons_append, List.cons.injEq, List.cons.injEq] at heq
          obtain ⟨rfl, rfl, -⟩ := heq
          exact hlead.1 ⟨l, ls, hls, hc⟩
      · rintro ⟨c, rest, heq, hc⟩
        obtain ⟨rfl, -⟩ := List.cons.inj heq
        rw [isAlnum, Bool.or_assoc, hc, Bool.or_true] at halnum
        exact absurd rfl halnum

/-! ## Valid identifiers -/

theorem isSafe_take (h : Cleaned text) : isSafe (text.take 256) = true := by
  obtain ⟨c, cs, rfl, hfirst⟩ := h.first
  rw [List.take_succ_cons, isSafe, hfirst, Bool.true_and, Bool.and_eq_true, decide_eq_true_eq,
    List.all_eq_true]
  refine ⟨?_, by rw [List.length_take]; omega⟩
  intro d hd
  exact h.chars d (List.mem_cons_of_mem _ (List.mem_of_mem_take hd))

/-- The cleaned text is cut, and never replaced by a digest. -/
theorem safeIdentifier_eq (hval : val ≠ "") (hlead : isIdentifier lead = true) :
    safeIdentifier uuid lead val =
      String.ofList ((fronted lead ((keptText val).map replaced)).take 256) := by
  rw [safeIdentifier, if_neg hval]
  exact if_pos (isSafe_take (cleaned_fronted hlead))

theorem isIdentifier_take (h : Cleaned text) :
    isIdentifier (String.ofList (text.take 256)) = true ↔ ¬ DriveLike text ∧ ¬ CutAtDots text := by
  obtain ⟨c, cs, htext, hfirst⟩ := h.first
  have htake : text.take 256 = c :: cs.take 255 := by rw [htext]; rfl
  have hchars : ∀ d ∈ text.take 256, isIdentifierChar d = true := by
    intro d hd
    exact h.chars d (List.mem_of_mem_take hd)
  have hscheme : ¬ [':', '/', '/'] <:+: text.take 256 := by
    intro hwithin
    exact h.scheme (hwithin.trans (List.take_prefix _ _).isInfix)
  rw [isIdentifier_ofList_iff htake hfirst hchars (List.length_take_le _ _), driveLike_take,
    dots_mem_take_iff h.dots]
  constructor
  · rintro ⟨hdrive, -, hcut⟩
    exact ⟨hdrive, hcut⟩
  · rintro ⟨hdrive, hcut⟩
    exact ⟨hdrive, hscheme, hcut⟩

/-- The replacement makes no drive and no dots, and hides none. -/
theorem kept_iff (hlead : isIdentifier lead = true) :
    (¬ DriveLike (fronted lead ((keptText val).map replaced)) ∧
      ¬ CutAtDots (fronted lead ((keptText val).map replaced))) ↔
    ¬ DriveLike (keptText val) ∧ ¬ CutAtDots (fronted lead (keptText val)) := by
  obtain ⟨l, ls, hls, -, hchars, -⟩ := isSafe_cases (isSafe_of_isIdentifier hlead)
  rw [driveLike_fronted hlead, driveLike_map_replaced, fronted_map_replaced hchars,
    cutAtDots_map_replaced]

theorem kept_of_isIdentifier (hval : val ≠ "") (hlead : isIdentifier lead = true)
    (h : isIdentifier (safeIdentifier uuid lead val) = true) :
    ¬ DriveLike (keptText val) ∧ ¬ CutAtDots (fronted lead (keptText val)) := by
  rw [safeIdentifier_eq hval hlead, isIdentifier_take (cleaned_fronted hlead)] at h
  exact (kept_iff hlead).mp h

/-- A text is made a valid identifier unless what is kept of it still starts with a drive, or the
cut falls behind two dots. -/
theorem isIdentifier_safeIdentifier_iff (uuid : String) (hval : val ≠ "")
    (hlead : isIdentifier lead = true) :
    isIdentifier (safeIdentifier uuid lead val) = true ↔
      ¬ DriveLike (keptText val) ∧ ¬ CutAtDots (fronted lead (keptText val)) := by
  constructor
  · exact kept_of_isIdentifier hval hlead
  · intro h
    rw [safeIdentifier_eq hval hlead, isIdentifier_take (cleaned_fronted hlead)]
    exact (kept_iff hlead).mpr h

theorem isIdentifier_safeIdentifier_path :
    isIdentifier (safeIdentifier "" "req" "C:/notes/../plan.md") = true ↔
      ¬ DriveLike (keptText "C:/notes/../plan.md") ∧
        ¬ CutAtDots (fronted "req" (keptText "C:/notes/../plan.md")) :=
  isIdentifier_safeIdentifier_iff "" (by decide) (by decide)

/-- Only one drive is dropped. -/
theorem isIdentifier_safeIdentifier_drives :
    ¬ ∀ uuid lead val : String, val ≠ "" → isIdentifier lead = true →
      isIdentifier (safeIdentifier uuid lead val) = true := by
  intro h
  have hvalid := h "" "req" "C:D:plan" (by decide) (by decide)
  have hkept := kept_of_isIdentifier (by decide) (by decide) hvalid
  exact hkept.1 ⟨'D', "plan".toList, by decide, by decide⟩

end

/-! ## Packs -/

section
variable [PythonText] {uuid : String} {ids : PackIds} {intent : QueryIntent}
  {accessPolicy : AccessPolicy} {result : PlannerResult}

/-- No pack is compiled for a request whose identifier stays a drive, or is cut behind two dots. -/
theorem compile_error_of_request (hid : ids.requestId ≠ "")
    (h : DriveLike (keptText ids.requestId) ∨ CutAtDots (fronted "req" (keptText ids.requestId))) :
    compile uuid ids intent accessPolicy result =
      .error (validationError "validation error for ContextPack") := by
  have hrequest : isIdentifier (safeIdentifier uuid "req" ids.requestId) ≠ true := by
    intro hvalid
    obtain ⟨hdrive, hcut⟩ := kept_of_isIdentifier hid (by decide) hvalid
    exact h.elim hdrive hcut
  apply dif_neg
  intro hvalid
  simp only [PackArguments.valid, PackArguments.fieldsValid, Bool.and_eq_true] at hvalid
  exact hrequest hvalid.1.2.1.1.1.1.1.1.1

end

end PowerFramework.Retrieval
