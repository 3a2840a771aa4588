import Mathlib.Algebra.Group.Nat.Defs
import Mathlib.Data.List.Basic
/-!
# Zero-padded numbers

The decimal digits of a number behind zeros up to a width.  Two numbers that fit the width are
ordered as their texts are.
-/

namespace PowerFramework.Lib.Padded

/-- `f"{n:0{width}d}"` -/
def zeroPad (width n : Nat) : List Char := (Nat.toDigits 10 n).leftpad width '0'

theorem isDigit_of_mem_zeroPad {width n : Nat} {c : Char} (h : c ∈ zeroPad width n) :
    c.isDigit = true := by
  unfold zeroPad List.leftpad at h
  rcases List.mem_append.mp h with hzero | hdigit
  · rw [List.eq_of_mem_replicate hzero]
    rfl
  · exact Nat.isDigit_of_mem_toDigits (by decide) (by decide) hdigit

@[simp] theorem ofDigitChars_zeroPad (width n : Nat) :
    Nat.ofDigitChars 10 (zeroPad width n) 0 = n := by
  simp [zeroPad, List.leftpad, Nat.ofDigitChars_append]

theorem zeroPad_injective {width n m : Nat} (h : zeroPad width n = zeroPad width m) : n = m := by
  have hvalue := congrArg (Nat.ofDigitChars 10 · 0) h
  simpa using hvalue

theorem toString_injective {a b : Nat} (h : toString a = toString b) : a = b := by
  rw [Nat.toString_eq_ofList_toDigits, Nat.toString_eq_ofList_toDigits, String.ofList_inj] at h
  exact @zeroPad_injective 0 a b (by simpa [zeroPad] using h)

/-- The text has the width exactly when the number fits it. -/
theorem length_zeroPad_eq {width : Nat} (hwidth : 0 < width) (n : Nat) :
    (zeroPad width n).length = width ↔ n < 10 ^ width := by
  rw [← Nat.length_toDigits_le_iff (by decide) hwidth]
  simp only [zeroPad, List.leftpad, List.length_append, List.length_replicate]
  omega

theorem ofDigitChars_cons_eq (c : Char) (digits : List Char) :
    Nat.ofDigitChars 10 (c :: digits) 0 =
      10 ^ digits.length * (c.toNat - '0'.toNat) + Nat.ofDigitChars 10 digits 0 := by
  rw [Nat.ofDigitChars_cons, Nat.mul_zero, Nat.zero_add, Nat.ofDigitChars_eq_ofDigitChars_zero]

theorem ofDigitChars_lt {digits : List Char} (h : ∀ c ∈ digits, c.isDigit = true) :
    Nat.ofDigitChars 10 digits 0 < 10 ^ digits.length := by
  induction digits with
  | nil => decide
  | cons c digits ih =>
    rw [List.forall_mem_cons] at h
    have hc : c.toNat - '0'.toNat ≤ 9 := by
      have hdigit := h.1
      simp only [Char.isDigit, Bool.and_eq_true, decide_eq_true_eq] at hdigit
      have hle : c.toNat ≤ 57 := hdigit.2
      show c.toNat - 48 ≤ 9
      omega
    have hrest := ih h.2
    have hscaled := Nat.mul_le_mul_left (10 ^ digits.length) hc
    rw [ofDigitChars_cons_eq, List.length_cons, Nat.pow_succ]
    omega

/-- Texts of one length are ordered as the numbers they stand for. -/
theorem lt_of_ofDigitChars_lt {xs ys : List Char} (hlength : xs.length = ys.length)
    (hxs : ∀ c ∈ xs, c.isDigit = true) (hys : ∀ c ∈ ys, c.isDigit = true)
    (h : Nat.ofDigitChars 10 xs 0 < Nat.ofDigitChars 10 ys 0) : xs < ys := by
  induction xs generalizing ys with
  | nil =>
    cases ys with
    | nil => exact absurd h (Nat.lt_irrefl _)
    | cons y ys => cases hlength
  | cons x xs ih =>
    cases ys with
    | nil => cases hlength
    | cons y ys =>
      rw [List.forall_mem_cons] at hxs hys
      have hrest : xs.length = ys.length := Nat.succ.inj hlength
      have hboundx := ofDigitChars_lt hxs.2
      have hboundy := ofDigitChars_lt hys.2
      rw [ofDigitChars_cons_eq, ofDigitChars_cons_eq, hrest] at h
      rw [hrest] at hboundx
      have hzero : ∀ c : Char, c.isDigit = true → '0'.toNat ≤ c.toNat := by
        intro c hc
        simp only [Char.isDigit, Bool.and_eq_true, decide_eq_true_eq] at hc
        exact hc.1
      have hx := hzero x hxs.1
      have hy := hzero y hys.1
      rw [List.cons_lt_cons_iff]
      rcases Nat.lt_trichotomy x.toNat y.toNat with hlt | heq | hgt
      · exact .inl hlt
      · refine .inr ⟨Char.toNat_inj.mp heq, ih hrest hxs.2 hys.2 ?_⟩
        rw [heq] at h
        omega
      · -- A larger first digit makes up for everything behind it.
        have hsucc : y.toNat - '0'.toNat + 1 ≤ x.toNat - '0'.toNat := by omega
        have hscaled := Nat.mul_le_mul_left (10 ^ ys.length) hsucc
        rw [Nat.mul_add, Nat.mul_one] at hscaled
        omega

theorem zeroPad_lt {width n m : Nat} (hwidth : 0 < width) (hlt : n < m) (hm : m < 10 ^ width) :
    zeroPad width n < zeroPad width m := by
  have hn : (zeroPad width n).length = width :=
    (length_zeroPad_eq hwidth n).mpr (Nat.lt_trans hlt hm)
  have hlength : (zeroPad width n).length = (zeroPad width m).length := by
    rw [hn, (length_zeroPad_eq hwidth m).mpr hm]
  refine lt_of_ofDigitChars_lt hlength (fun c => isDigit_of_mem_zeroPad)
    (fun c => isDigit_of_mem_zeroPad) ?_
  rw [ofDigitChars_zeroPad, ofDigitChars_zeroPad]
  exact hlt

/-- Behind texts of one length that are apart, nothing matters. -/
theorem append_lt_append {xs ys : List Char} (hlength : xs.length = ys.length) (h : xs < ys)
    {as bs : List Char} : xs ++ as < ys ++ bs := by
  induction xs generalizing ys with
  | nil =>
    cases ys with
    | nil => exact absurd h (List.not_lt_nil _)
    | cons y ys => cases hlength
  | cons x xs ih =>
    cases ys with
    | nil => cases hlength
    | cons y ys =>
      rw [List.cons_append, List.cons_append, List.cons_lt_cons_iff]
      rcases List.cons_lt_cons_iff.mp h with hlt | ⟨heq, hrest⟩
      · exact .inl hlt
      · exact .inr ⟨heq, ih (Nat.succ.inj hlength) hrest⟩

end PowerFramework.Lib.Padded
