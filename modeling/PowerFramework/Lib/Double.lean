import Mathlib.Algebra.Group.Nat.Defs
import Mathlib.Algebra.GroupWithZero.Nat
import Mathlib.Data.List.Basic
import Mathlib.Data.Nat.Find
/-!
# Binary floating point

The doubles of IEEE 754 as their three fields, and the rounding of a quotient of naturals to
the nearest double, ties to even.  Rounding a value that is a double gives that double back
(`round_scaled`).
-/

namespace PowerFramework.Lib

instance exponents_neZero : NeZero 2048 := ⟨by decide⟩

instance fractions_neZero : NeZero 0x10000000000000 := ⟨by decide⟩

structure Double where
  negative : Bool
  exponent : Fin 2048
  fraction : Fin 0x10000000000000
  deriving DecidableEq, Repr

namespace Double

def isFinite (x : Double) : Bool := x.exponent.val < 2047

def nan : Double := ⟨false, 2047, 0x8000000000000⟩

def infinity (negative : Bool) : Double := ⟨negative, 2047, 0⟩

def mantissa (x : Double) : Nat :=
  if x.exponent.val = 0 then x.fraction.val else 2 ^ 52 + x.fraction.val

def shift (x : Double) : Nat := x.exponent.val - 1

/-- The magnitude of a finite double in units of `2 ^ -1074`. -/
def scaled (x : Double) : Nat := x.mantissa * 2 ^ x.shift

/-- The double of magnitude `mantissa * 2 ^ (shift - 1074)`. -/
def ofParts (negative : Bool) (mantissa shift : Nat) : Double :=
  if mantissa < 2 ^ 52 then ⟨negative, 0, Fin.ofNat _ mantissa⟩
  else if shift < 2046 then ⟨negative, Fin.ofNat _ (shift + 1), Fin.ofNat _ (mantissa - 2 ^ 52)⟩
  else infinity negative

/-- The quotient `n / unit`, rounded to the nearest natural, ties to even. -/
def roundHalfEven (n unit : Nat) : Nat :=
  if unit < 2 * (n % unit) ∨ (2 * (n % unit) = unit ∧ n / unit % 2 = 1) then n / unit + 1
  else n / unit

/-- The least shift at which `n / d` has a mantissa of at most 53 bits. -/
def leastShift (n d : Nat) : Option Nat :=
  (List.range 2046).find? fun shift => n < d * 2 ^ (53 + shift)

/-- The double nearest to `n / d` in units of `2 ^ -1074`, for the shift of its mantissa. -/
def roundAt (negative : Bool) (n d shift : Nat) : Double :=
  let mantissa := roundHalfEven n (d * 2 ^ shift)
  if mantissa = 2 ^ 53 then ofParts negative (2 ^ 52) (shift + 1)
  else ofParts negative mantissa shift

/-- The double nearest to `n / d` in units of `2 ^ -1074`. -/
def round (negative : Bool) (n d : Nat) : Double :=
  (leastShift n d).elim (infinity negative) (roundAt negative n d)

/-- The double nearest to `digits * 10 ^ power`. -/
def ofDecimal (negative : Bool) (digits : Nat) (power : Int) : Double :=
  match power with
  | .ofNat k => round negative (digits * 10 ^ k * 2 ^ 1074) 1
  | .negSucc k => round negative (digits * 2 ^ 1074) (10 ^ (k + 1))

theorem mantissa_lt (x : Double) : x.mantissa < 2 ^ 53 := by
  have := x.fraction.isLt
  unfold mantissa
  split <;> omega

theorem le_mantissa {x : Double} (h : 0 < x.shift) : 2 ^ 52 ≤ x.mantissa := by
  have hexp : x.exponent.val ≠ 0 := by
    unfold shift at h
    omega
  rw [mantissa, if_neg hexp]
  omega

theorem ofParts_self {x : Double} (hx : x.isFinite = true) :
    ofParts x.negative x.mantissa x.shift = x := by
  obtain ⟨negative, exponent, fraction⟩ := x
  have hfinite : exponent.val < 2047 := by simpa [isFinite] using hx
  have hfraction := fraction.isLt
  by_cases hexp : exponent.val = 0
  · have hzero : exponent = 0 := Fin.ext hexp
    subst hzero
    simp only [ofParts, mantissa, Fin.val_zero, if_pos]
    rw [if_pos (by omega)]
    simp
  · simp only [ofParts, mantissa, shift, if_neg hexp]
    rw [if_neg (by omega), if_pos (by omega), Nat.sub_add_cancel (by omega),
      Nat.add_sub_cancel_left]
    simp

theorem roundHalfEven_mul {unit : Nat} (hunit : 0 < unit) (m : Nat) :
    roundHalfEven (m * unit) unit = m := by
  rw [roundHalfEven, Nat.mul_mod_left, Nat.mul_div_cancel _ hunit, if_neg (by omega)]

theorem leastShift_scaled {x : Double} (hx : x.isFinite = true) {d : Nat} (hd : 0 < d) :
    leastShift (d * x.scaled) d = some x.shift := by
  have hfinite : x.exponent.val < 2047 := by simpa [isFinite] using hx
  rw [leastShift, List.find?_range_eq_some]
  refine ⟨?_, by simp only [shift, List.mem_range]; omega, ?_⟩
  · have := x.mantissa_lt
    rw [decide_eq_true_eq, scaled, Nat.pow_add]
    exact Nat.mul_lt_mul_of_pos_left (Nat.mul_lt_mul_of_pos_right this (Nat.two_pow_pos _)) hd
  · intro j hj
    have hmant := le_mantissa (x := x) (by omega)
    have hle : 2 ^ (53 + j) ≤ x.scaled := calc
      2 ^ (53 + j) ≤ 2 ^ (52 + x.shift) := Nat.pow_le_pow_right (by omega) (by omega)
      _ = 2 ^ 52 * 2 ^ x.shift := Nat.pow_add ..
      _ ≤ x.scaled := Nat.mul_le_mul_right _ hmant
    have := Nat.mul_le_mul_left d hle
    simpa using this

theorem roundAt_scaled {x : Double} (hx : x.isFinite = true) {d : Nat} (hd : 0 < d) :
    roundAt x.negative (d * x.scaled) d x.shift = x := by
  have hne : x.mantissa ≠ 2 ^ 53 := Nat.ne_of_lt x.mantissa_lt
  have hq : roundHalfEven (d * x.scaled) (d * 2 ^ x.shift) = x.mantissa := by
    rw [scaled, ← Nat.mul_assoc, Nat.mul_comm d, Nat.mul_assoc,
      roundHalfEven_mul (Nat.mul_pos hd (Nat.two_pow_pos _))]
  simp only [roundAt, hq, if_neg hne, ofParts_self hx]

theorem round_scaled {x : Double} (hx : x.isFinite = true) {d : Nat} (hd : 0 < d) :
    round x.negative (d * x.scaled) d = x := by
  rw [round, leastShift_scaled hx hd, Option.elim_some, roundAt_scaled hx hd]

theorem ofDecimal_neg {x : Double} (hx : x.isFinite = true) {digits k : Nat}
    (h : digits * 2 ^ 1074 = 10 ^ (k + 1) * x.scaled) :
    ofDecimal x.negative digits (Int.negSucc k) = x := by
  rw [ofDecimal, h]
  exact round_scaled hx (Nat.pow_pos (by omega))

end Double

end PowerFramework.Lib
