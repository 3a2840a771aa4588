import Mathlib.Algebra.Order.Ring.Int
import PowerFramework.Lib.PythonValue
/-!
# Python numbers

Comparison and equality across `bool`, `int` and `float`, and `==` of whole values.
-/

namespace PowerFramework.Lib

/-- A double that is no number. -/
def Double.isNaN (x : Double) : Bool := x.exponent.val = 2047 && x.fraction.val ≠ 0

/-- The place of a double in their order, in which the two zeros stand together. -/
def Double.rank (x : Double) : Int :=
  let bits : Nat := x.exponent.val * 2 ^ 52 + x.fraction.val
  if x.negative then -bits else bits

/-- `x < y` -/
def Double.lt (x y : Double) : Bool := !x.isNaN && !y.isNaN && x.rank < y.rank

/-- `max(x, y)` -/
def Double.pyMax (x y : Double) : Double := if x.lt y then y else x

/-- `min(x, y)` -/
def Double.pyMin (x y : Double) : Double := if y.lt x then y else x

namespace Json

open Failure

/-- The value of a number; the finite ones in units of `2 ^ -1074`. -/
inductive Magnitude where
  | finite (units : Int)
  | infinite (negative : Bool)
  | nan

def Double.magnitude (x : Double) : Magnitude :=
  if x.isFinite then .finite (if x.negative then -x.scaled else x.scaled)
  else if x.isNaN then .nan
  else .infinite x.negative

def Value.magnitude? : Value → Option Magnitude
  | .bool b => some (.finite (if b then 2 ^ 1074 else 0))
  | .int n => some (.finite (n * 2 ^ 1074))
  | .float x => some (Double.magnitude x)
  | _ => none

def Magnitude.le : Magnitude → Magnitude → Bool
  | .finite a, .finite b => a ≤ b
  | .infinite negative, .finite _ => negative
  | .finite _, .infinite negative => !negative
  | .infinite a, .infinite b => a || !b
  | _, _ => false

def Magnitude.eq : Magnitude → Magnitude → Bool
  | .finite a, .finite b => a = b
  | .infinite a, .infinite b => a = b
  | _, _ => false

/-- `a <= b` of numbers or of texts. -/
def Value.le (a b : Value) : Except Exn Bool :=
  match a.magnitude?, b.magnitude? with
  | some x, some y => .ok (x.le y)
  | _, _ =>
      match a, b with
      | .str s, .str t => .ok (s.toList ≤ t.toList)
      | _, _ => .error (typeError "'<=' not supported between instances")

/-- `a + 1` -/
def Value.succ : Value → Except Exn Value
  | .bool b => .ok (.int (if b then 2 else 1))
  | .int n => .ok (.int (n + 1))
  | .float x =>
      match Double.magnitude x with
      | .finite units =>
          .ok (.float (Double.round (units + 2 ^ 1074 < 0) (units + 2 ^ 1074).natAbs 1))
      | _ => .ok (.float x)
  | _ => .error (typeError "unsupported operand type(s) for +")

def Key.magnitude? (key : Key) : Option Magnitude := key.toValue.magnitude?

/-- `a == b` of two keys that are no strings. -/
def Key.same : Key → Key → Bool
  | .none, .none => true
  | a, b =>
      match a.magnitude?, b.magnitude? with
      | some x, some y => x.eq y
      | _, _ => false

mutual

/-- `a == b` -/
def Value.same : Value → Value → Bool
  | .null, .null => true
  | .str s, .str t => s = t
  | .list a, .list b => sameList a b
  | .tuple a, .tuple b => sameList a b
  | .dict a, .dict b => sameDict a b
  | .keyed k v a, .keyed l w b => k.same l && v.same w && sameKeyed a b
  | a, b =>
      match a.magnitude?, b.magnitude? with
      | some x, some y => x.eq y
      | _, _ => false

def sameList : List Value → List Value → Bool
  | [], [] => true
  | x :: xs, y :: ys => x.same y && sameList xs ys
  | _, _ => false

def sameDict : Dict → Dict → Bool
  | [], [] => true
  | (k, x) :: xs, (l, y) :: ys => decide (k = l) && x.same y && sameDict xs ys
  | _, _ => false

def sameKeyed : List (Key × Value) → List (Key × Value) → Bool
  | [], [] => true
  | (k, x) :: xs, (l, y) :: ys => k.same l && x.same y && sameKeyed xs ys
  | _, _ => false

end

/-- A value that is equal to itself, as far as its own level goes. -/
def equalsItself : Value → Bool
  | .float x => x.isFinite
  | .keyed .. | .other => false
  | _ => true

mutual

theorem same_self : ∀ v : Value, v.everywhere equalsItself = true → v.same v = true
  | .null, _ => by rw [Value.same]
  | .bool b, _ => by simp [Value.same, Value.magnitude?, Magnitude.eq]
  | .int n, _ => by simp [Value.same, Value.magnitude?, Magnitude.eq]
  | .float x, h => by
      have hfinite : x.isFinite = true := h
      simp [Value.same, Value.magnitude?, Double.magnitude, hfinite, Magnitude.eq]
  | .str s, _ => by simp [Value.same]
  | .list items, h => by
      rw [Value.everywhere, Bool.and_eq_true] at h
      rw [Value.same]
      exact sameList_self items h.2
  | .tuple items, h => by
      rw [Value.everywhere, Bool.and_eq_true] at h
      rw [Value.same]
      exact sameList_self items h.2
  | .dict items, h => by
      rw [Value.everywhere, Bool.and_eq_true] at h
      rw [Value.same]
      exact sameDict_self items h.2
  | .keyed .., h => by
      rw [Value.everywhere, Bool.and_eq_true] at h
      cases h.1
  | .other, h => absurd h (by decide)

theorem sameList_self : ∀ items, everywhereList equalsItself items = true →
    sameList items items = true
  | [], _ => by rw [sameList]
  | v :: items, h => by
      rw [everywhereList, Bool.and_eq_true] at h
      rw [sameList, same_self v h.1, sameList_self items h.2]
      rfl

theorem sameDict_self : ∀ items, everywhereDict equalsItself items = true →
    sameDict items items = true
  | [], _ => by rw [sameDict]
  | (key, v) :: items, h => by
      rw [everywhereDict, Bool.and_eq_true] at h
      rw [sameDict, same_self v h.1, sameDict_self items h.2]
      simp

end

theorem units_pos : (0 : Int) < 2 ^ 1074 := pow_pos two_pos 1074

theorem le_int (m n : Int) : Value.le (.int m) (.int n) = .ok (decide (m ≤ n)) := by
  have hunits := units_pos
  simp only [Value.le, Value.magnitude?, Magnitude.le]
  generalize (2 : Int) ^ 1074 = units at hunits
  simp only [mul_le_mul_iff_of_pos_right hunits]

theorem same_int (m n : Int) : Value.same (.int m) (.int n) = decide (m = n) := by
  have hunits := units_pos
  simp only [Value.same, Value.magnitude?, Magnitude.eq]
  generalize (2 : Int) ^ 1074 = units at hunits
  simp only [mul_left_inj' hunits.ne']

theorem same_str (s t : String) : Value.same (.str s) (.str t) = decide (s = t) := by
  rw [Value.same]

end Json

end PowerFramework.Lib
