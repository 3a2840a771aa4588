import Mathlib.Data.List.Infix
/-!
# LIKE

The patterns of SQLite's `LIKE … ESCAPE`: a sequence, one character, or a character up to the
case of the ASCII letters.
-/

namespace PowerFramework.Lib.Sql

/-- An item of a pattern. -/
inductive Wild where
  | sequence
  | single
  | char (c : Char)
  deriving DecidableEq, Repr

/-- The items of a pattern text, behind an escape character or not; a pattern that ends in its
escape character has none. -/
def wilds (escape : Char) : Bool → List Char → Option (List Wild)
  | false, [] => some []
  | true, [] => none
  | true, c :: rest => (wilds escape false rest).map (.char c :: ·)
  | false, c :: rest =>
      if c = '%' then (wilds escape false rest).map (.sequence :: ·)
      else if c = escape then wilds escape true rest
      else if c = '_' then (wilds escape false rest).map (.single :: ·)
      else (wilds escape false rest).map (.char c :: ·)

/-- Some end of the text satisfies the test. -/
def someEnd (test : List Char → Bool) : List Char → Bool
  | [] => test []
  | c :: text => test (c :: text) || someEnd test text

def covers : List Wild → List Char → Bool
  | [], text => text.isEmpty
  | .sequence :: pattern, text => someEnd (covers pattern) text
  | .single :: pattern, text =>
      match text with
      | [] => false
      | _ :: text => covers pattern text
  | .char c :: pattern, text =>
      match text with
      | [] => false
      | d :: text => d.toLower = c.toLower && covers pattern text

/-- `text LIKE pattern ESCAPE escape` -/
def like (escape : Char) (text pattern : List Char) : Bool :=
  match wilds escape false pattern with
  | none => false
  | some pattern => covers pattern text

/-! ## Texts up to the case of their letters -/

def lowered (text : List Char) : List Char := text.map Char.toLower

@[simp] theorem lowered_append (s t : List Char) : lowered (s ++ t) = lowered s ++ lowered t :=
  List.map_append

@[simp] theorem length_lowered (s : List Char) : (lowered s).length = s.length :=
  List.length_map _

theorem lowered_prefix {s t : List Char} (h : s <+: t) : lowered s <+: lowered t := h.map _

theorem lowered_infix {s t : List Char} (h : s <:+: t) : lowered s <:+: lowered t := by
  obtain ⟨before, after, rfl⟩ := h
  refine ⟨lowered before, lowered after, ?_⟩
  simp

/-! ## What a pattern covers -/

theorem someEnd_iff {test : List Char → Bool} {text : List Char} :
    someEnd test text = true ↔ ∃ tail, tail <:+ text ∧ test tail = true := by
  induction text with
  | nil => simp [someEnd]
  | cons c text ih =>
      rw [someEnd, Bool.or_eq_true, ih]
      constructor
      · rintro (h | ⟨tail, htail, h⟩)
        · exact ⟨_, List.suffix_rfl, h⟩
        · exact ⟨tail, htail.trans (List.suffix_cons c text), h⟩
      · rintro ⟨tail, htail, h⟩
        rcases List.suffix_cons_iff.mp htail with rfl | htail
        · exact Or.inl h
        · exact Or.inr ⟨tail, htail, h⟩

theorem covers_sequence {pattern : List Wild} {text : List Char} :
    covers (.sequence :: pattern) text = true ↔
      ∃ tail, tail <:+ text ∧ covers pattern tail = true := someEnd_iff

theorem covers_end (text : List Char) : covers [.sequence] text = true :=
  covers_sequence.mpr ⟨[], List.nil_suffix, rfl⟩

theorem covers_chars {word : List Char} {pattern : List Wild} {text : List Char} :
    covers (word.map Wild.char ++ pattern) text = true ↔
      ∃ tail, lowered text = lowered word ++ lowered tail ∧ tail = text.drop word.length ∧
        covers pattern tail = true := by
  induction word generalizing text with
  | nil => simp [lowered]
  | cons c word ih =>
      cases text with
      | nil => simp [covers, lowered]
      | cons d text =>
          rw [List.map_cons, List.cons_append, covers, Bool.and_eq_true, decide_eq_true_iff, ih]
          simp only [lowered, List.map_cons, List.cons_append, List.length_cons, List.drop_succ_cons,
            List.cons.injEq]
          constructor
          · rintro ⟨hc, tail, h, htail, hcovers⟩
            exact ⟨tail, ⟨hc, h⟩, htail, hcovers⟩
          · rintro ⟨tail, ⟨hc, h⟩, htail, hcovers⟩
            exact ⟨hc, tail, h, htail, hcovers⟩

/-- A word before anything covers the texts that start with the word in some case. -/
theorem covers_word {word text : List Char} :
    covers (word.map Wild.char ++ [.sequence]) text = true ↔ lowered word <+: lowered text := by
  rw [covers_chars]
  constructor
  · rintro ⟨tail, h, -, -⟩
    exact ⟨lowered tail, h.symm⟩
  · rintro ⟨tail, h⟩
    refine ⟨text.drop word.length, ?_, rfl, covers_end _⟩
    have hdrop : lowered (text.drop word.length) = (lowered text).drop word.length :=
      List.map_drop ..
    rw [hdrop, ← h, ← length_lowered word, List.drop_left]

/-- A word between anything covers the texts that contain the word in some case. -/
theorem covers_within {word text : List Char} :
    covers (.sequence :: (word.map Wild.char ++ [.sequence])) text = true ↔
      lowered word <:+: lowered text := by
  rw [covers_sequence, List.infix_iff_prefix_suffix]
  constructor
  · rintro ⟨tail, htail, h⟩
    exact ⟨lowered tail, covers_word.mp h, htail.map _⟩
  · rintro ⟨part, hpart, hsuffix⟩
    obtain ⟨before, hbefore⟩ := hsuffix
    have hdrop : lowered (text.drop before.length) = part := by
      rw [lowered, List.map_drop]
      change (lowered text).drop before.length = part
      rw [← hbefore, List.drop_left]
    refine ⟨text.drop before.length, List.drop_suffix _ _, covers_word.mpr ?_⟩
    rwa [hdrop]

/-! ## The items of a text -/

/-- A character that stands for itself. -/
def Plain (escape c : Char) : Prop := c ≠ '%' ∧ c ≠ '_' ∧ c ≠ escape

theorem wilds_plain {escape c : Char} {rest : List Char} (h : Plain escape c) :
    wilds escape false (c :: rest) = (wilds escape false rest).map (.char c :: ·) := by
  obtain ⟨hsequence, hsingle, hescape⟩ := h
  rw [wilds, if_neg hsequence, if_neg hescape, if_neg hsingle]

theorem wilds_escape {escape c : Char} {rest : List Char} (h : escape ≠ '%') :
    wilds escape false (escape :: c :: rest) = (wilds escape false rest).map (.char c :: ·) := by
  rw [wilds, if_neg h, if_pos rfl, wilds]

/-- A text whose characters each stand for one item. -/
theorem wilds_flatMap {escape : Char} {spell : Char → List Char} {rest : List Char}
    (hspell : ∀ c rest, wilds escape false (spell c ++ rest) =
      (wilds escape false rest).map (.char c :: ·)) (word : List Char) :
    wilds escape false (word.flatMap spell ++ rest) =
      (wilds escape false rest).map (word.map Wild.char ++ ·) := by
  induction word with
  | nil => simp
  | cons c word ih =>
      rw [List.flatMap_cons, List.append_assoc, hspell, ih, Option.map_map]
      rfl

end PowerFramework.Lib.Sql
