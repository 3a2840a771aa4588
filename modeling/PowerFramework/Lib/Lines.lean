import Mathlib.Data.List.DropRight
import Mathlib.Data.List.Basic
/-!
# Lines

Universal newlines: a text is cut at `\n`, `\r` and `\r\n`.  Cutting respects the
concatenation of a newline-terminated text with any other (`universalLines_append`), and
`kept` and `tail` split a text right after its last newline.
-/

namespace PowerFramework.Lib.Lines

variable {α : Type} [DecidableEq α] (lf cr : α)

/-- Every `\r\n` and every other `\r` becomes `\n`. -/
def translate : List α → List α
  | [] => []
  | [c] => [if c = cr then lf else c]
  | c :: d :: rest =>
      if c = cr then
        if d = lf then lf :: translate rest else lf :: translate (d :: rest)
      else c :: translate (d :: rest)

/-- The lines of a text, without their newlines. -/
def splitLines : List α → List (List α)
  | [] => []
  | c :: rest =>
      if c = lf then [] :: splitLines rest
      else match splitLines rest with
        | [] => [[c]]
        | line :: lines => (c :: line) :: lines

def universalLines (text : List α) : List (List α) := splitLines lf (translate lf cr text)

/-- The text is empty or its last line ends in a newline. -/
def Terminated (text : List α) : Prop := text = [] ∨ ∃ front, text = front ++ [lf]

/-- `text[:text.rfind("\n") + 1]` -/
def kept (text : List α) : List α := text.rdropWhile fun c => c != lf

/-- `text[text.rfind("\n") + 1:]` -/
def tail (text : List α) : List α := text.rtakeWhile fun c => c != lf

variable {lf cr}

theorem translate_cons_of_ne {c : α} {rest : List α} (hc : c ≠ cr) :
    translate lf cr (c :: rest) = c :: translate lf cr rest := by
  cases rest <;> simp [translate, hc]

theorem translate_append (hne : lf ≠ cr) (front rest : List α) :
    translate lf cr (front ++ lf :: rest) =
      translate lf cr (front ++ [lf]) ++ translate lf cr rest := by
  induction front using translate.induct lf cr with
  | case1 =>
      rw [List.nil_append, List.nil_append, translate_cons_of_ne hne, translate_cons_of_ne hne]
      rfl
  | case2 c =>
      by_cases hc : c = cr
      · simp [translate, hc]
      · rw [List.singleton_append, translate_cons_of_ne hc, translate_cons_of_ne hne,
          List.singleton_append, translate_cons_of_ne hc, translate_cons_of_ne hne]
        rfl
  | case3 rest' ih => simpa [translate] using ih
  | case4 d rest' hd ih => simpa [translate, hd] using ih
  | case5 c d rest' hc ih => simpa [translate, hc] using ih

theorem translate_eq_self {text : List α} (h : cr ∉ text) : translate lf cr text = text := by
  induction text with
  | nil => rfl
  | cons c rest ih =>
      rw [List.mem_cons, not_or] at h
      rw [translate_cons_of_ne (Ne.symm h.1), ih h.2]

theorem translate_terminated (hne : lf ≠ cr) (front : List α) :
    ∃ front', translate lf cr (front ++ [lf]) = front' ++ [lf] := by
  induction front using translate.induct lf cr with
  | case1 => exact ⟨[], by simp [translate, hne]⟩
  | case2 c =>
      by_cases hc : c = cr
      · exact ⟨[], by simp [translate, hc]⟩
      · exact ⟨[c], by simp [translate, hc, hne]⟩
  | case3 rest' ih =>
      obtain ⟨front', h⟩ := ih
      exact ⟨lf :: front', by simpa [translate] using h⟩
  | case4 d rest' hd ih =>
      obtain ⟨front', h⟩ := ih
      exact ⟨lf :: front', by simpa [translate, hd] using h⟩
  | case5 c d rest' hc ih =>
      obtain ⟨front', h⟩ := ih
      exact ⟨c :: front', by simpa [translate, hc] using h⟩

theorem splitLines_append (front rest : List α) :
    splitLines lf (front ++ lf :: rest) = splitLines lf (front ++ [lf]) ++ splitLines lf rest := by
  induction front with
  | nil => simp [splitLines]
  | cons c front ih =>
      by_cases hc : c = lf
      · simp [splitLines, hc, ih]
      · have hne : splitLines lf (front ++ [lf]) ≠ [] := by
          cases front with
          | nil => simp [splitLines]
          | cons d front =>
              rw [List.cons_append, splitLines]
              split
              · simp
              · split <;> simp
        simp only [List.cons_append, splitLines, if_neg hc, ih]
        cases hlines : splitLines lf (front ++ [lf]) with
        | nil => exact absurd hlines hne
        | cons line lines => rfl

theorem splitLines_eq_singleton {text : List α} (hne : text ≠ []) (h : lf ∉ text) :
    splitLines lf text = [text] := by
  induction text with
  | nil => exact absurd rfl hne
  | cons c rest ih =>
      rw [List.mem_cons, not_or] at h
      rw [splitLines, if_neg (Ne.symm h.1)]
      cases rest with
      | nil => rfl
      | cons d rest => rw [ih (by simp) h.2]

theorem universalLines_append (hne : lf ≠ cr) {text : List α} (h : Terminated lf text)
    (rest : List α) :
    universalLines lf cr (text ++ rest) =
      universalLines lf cr text ++ universalLines lf cr rest := by
  rcases h with rfl | ⟨front, rfl⟩
  · rfl
  · rw [List.append_assoc, List.singleton_append]
    simp only [universalLines]
    rw [translate_append hne]
    obtain ⟨front', heq⟩ := translate_terminated hne front
    rw [heq, List.append_assoc, List.singleton_append, splitLines_append]

/-- One terminated line without newlines inside is read back as it was written. -/
theorem universalLines_line (hne : lf ≠ cr) {text : List α} (hlf : lf ∉ text) (hcr : cr ∉ text) :
    universalLines lf cr (text ++ [lf]) = [text] := by
  have hmem : cr ∉ text ++ [lf] := by simp [hcr, hne.symm]
  rw [universalLines, translate_eq_self hmem]
  induction text with
  | nil => simp [splitLines]
  | cons c rest ih =>
      rw [List.mem_cons, not_or] at hlf hcr
      rw [List.cons_append, splitLines, if_neg (Ne.symm hlf.1), ih hlf.2 hcr.2]
      simp [hcr.2, hne.symm]

omit [DecidableEq α] in
theorem Terminated.append {a b : List α} (ha : Terminated lf a) (hb : Terminated lf b) :
    Terminated lf (a ++ b) := by
  rcases hb with rfl | ⟨front, rfl⟩
  · rwa [List.append_nil]
  · exact Or.inr ⟨a ++ front, by rw [List.append_assoc]⟩

theorem kept_append_tail (lf : α) (text : List α) : kept lf text ++ tail lf text = text :=
  List.rdropWhile_append_rtakeWhile

theorem terminated_kept (text : List α) : Terminated lf (kept lf text) := by
  rcases List.eq_nil_or_concat (kept lf text) with hnil | ⟨front, last, hkept⟩
  · exact Or.inl hnil
  · have hne : kept lf text ≠ [] := by simp [hkept]
    have hlast := List.rdropWhile_last_not _ text hne
    have hget : (kept lf text).getLast hne = last := by simp [hkept]
    have heq : last = lf := by
      have : ¬ ((kept lf text).getLast hne != lf) = true := hlast
      simpa [hget] using this
    exact Or.inr ⟨front, by rw [hkept, heq, List.concat_eq_append]⟩

theorem notMem_tail (text : List α) : lf ∉ tail lf text := by
  intro h
  simpa using List.mem_rtakeWhile_imp h

theorem kept_eq_self {text : List α} (h : Terminated lf text) : kept lf text = text := by
  rcases h with rfl | ⟨front, rfl⟩
  · rfl
  · exact List.rdropWhile_concat_neg _ _ _ (by simp)

theorem tail_eq_nil {text : List α} (h : Terminated lf text) : tail lf text = [] := by
  have := kept_append_tail lf text
  rw [kept_eq_self h] at this
  simpa using this

theorem terminated_iff {text : List α} : Terminated lf text ↔ tail lf text = [] := by
  refine ⟨tail_eq_nil, fun h => ?_⟩
  have := kept_append_tail lf text
  rw [h, List.append_nil] at this
  exact this ▸ terminated_kept text

theorem kept_append {text rest : List α} (h : Terminated lf text) (hrest : lf ∉ rest) :
    kept lf (text ++ rest) = text := by
  induction rest using List.reverseRecOn with
  | nil => rw [List.append_nil, kept_eq_self h]
  | append_singleton rest c ih =>
      have hc : c ≠ lf := fun heq => hrest (by simp [heq])
      have hmem : lf ∉ rest := fun hmem => hrest (by simp [hmem])
      rw [← List.append_assoc, kept, List.rdropWhile_concat_pos _ _ _ (by simpa using hc)]
      exact ih hmem

end PowerFramework.Lib.Lines
