import Mathlib.Data.List.Basic
/-!
# Universal newlines

What a file that is opened in text mode reads for `\r\n` and `\r`.  A text is read as it stands
exactly when it has no carriage return.
-/

namespace PowerFramework.Lib.Newlines

/-- A text as it is read in text mode. -/
def translate : List Char → List Char
  | [] => []
  | '\r' :: '\n' :: text => '\n' :: translate text
  | '\r' :: text => '\n' :: translate text
  | c :: text => c :: translate text

theorem cr_notMem_translate (text : List Char) : '\r' ∉ translate text := by
  fun_induction translate text with
  | case1 => exact List.not_mem_nil
  | case2 text ih => simpa using ih
  | case3 text hnext ih => simpa using ih
  | case4 c text hcrlf hcr ih =>
    rw [List.mem_cons, not_or]
    exact ⟨fun h => hcr h.symm, ih⟩

theorem translate_of_notMem {text : List Char} (h : '\r' ∉ text) : translate text = text := by
  fun_induction translate text with
  | case1 => rfl
  | case2 text ih => exact absurd List.mem_cons_self h
  | case3 text hnext ih => exact absurd List.mem_cons_self h
  | case4 c text hcrlf hcr ih =>
    rw [List.mem_cons, not_or] at h
    rw [ih h.2]

theorem translate_eq_self_iff {text : List Char} : translate text = text ↔ '\r' ∉ text := by
  constructor
  · intro h
    rw [← h]
    exact cr_notMem_translate text
  · exact translate_of_notMem

end PowerFramework.Lib.Newlines
