import Mathlib.Data.List.TakeWhile
import Mathlib.Tactic.IntervalCases
import PowerFramework.Lib.Double
/-!
# JSON numbers

The number scanner of Python's `json` module, and the texts it writes: integers in decimal,
finite doubles as the shortest decimal that reads back as the same double.  What was written
is scanned as it was, in front of any text that cannot continue a number
(`scanNumber_intText`, `scanNumber_floatText`).
-/

namespace PowerFramework.Lib.JsonNumber

inductive Number where
  | int (value : Int)
  | float (value : Double)
  deriving DecidableEq, Repr

/-! ## Scanning -/

def scanSign : List Char → Bool × List Char
  | '-' :: rest => (true, rest)
  | rest => (false, rest)

/-- `0|[1-9]\d*` -/
def scanInt : List Char → Option (List Char × List Char)
  | [] => none
  | c :: rest =>
      if c = '0' then some (['0'], rest)
      else if c.isDigit then some (c :: rest.takeWhile Char.isDigit, rest.dropWhile Char.isDigit)
      else none

/-- `\d+` -/
def scanDigits (text : List Char) : Option (List Char × List Char) :=
  if text.takeWhile Char.isDigit = [] then none
  else some (text.takeWhile Char.isDigit, text.dropWhile Char.isDigit)

/-- `\.\d+` -/
def scanFraction : List Char → Option (List Char × List Char)
  | [] => none
  | c :: rest => if c = '.' then scanDigits rest else none

def scanExponentSign : List Char → Bool × List Char
  | [] => (false, [])
  | c :: rest =>
      if c = '-' then (true, rest) else if c = '+' then (false, rest) else (false, c :: rest)

/-- `[eE][-+]?\d+` -/
def scanExponent : List Char → Option (Int × List Char)
  | [] => none
  | c :: rest =>
      if c = 'e' ∨ c = 'E' then
        let (negative, rest) := scanExponentSign rest
        (scanDigits rest).map fun (digits, rest) =>
          let value : Int := Nat.ofDigitChars 10 digits 0
          (if negative then -value else value, rest)
      else none

/-- The number whose scanned parts are given. -/
def makeNumber (negative : Bool) (whole : List Char) (fraction : Option (List Char))
    (exponent : Option Int) : Number :=
  if fraction = none ∧ exponent = none then
    let value : Int := Nat.ofDigitChars 10 whole 0
    .int (if negative then -value else value)
  else
    let digits := fraction.getD []
    .float (.ofDecimal negative (Nat.ofDigitChars 10 (whole ++ digits) 0)
      (exponent.getD 0 - digits.length))

/-- `(-?(?:0|[1-9]\d*))(\.\d+)?([eE][-+]?\d+)?` -/
def scanNumber (text : List Char) : Option (Number × List Char) :=
  let (negative, text) := scanSign text
  (scanInt text).map fun (whole, text) =>
    let fraction := scanFraction text
    let text := (fraction.map Prod.snd).getD text
    let exponent := scanExponent text
    let text := (exponent.map Prod.snd).getD text
    (makeNumber negative whole (fraction.map Prod.fst) (exponent.map Prod.fst), text)

/-! ## Writing -/

/-- `int.__repr__` -/
def intText : Int → List Char
  | .ofNat n => Nat.toDigits 10 n
  | .negSucc n => '-' :: Nat.toDigits 10 (n + 1)

/-- The decimal `0.digits * 10 ^ point` in the layout of `float.__repr__`. -/
def layout (digits : List Char) (point : Int) : List Char :=
  if point ≤ -4 ∨ 16 < point then
    let exponent := point - 1
    let magnitude := Nat.toDigits 10 exponent.natAbs
    let mantissa := match digits with
      | [] => []
      | [d] => [d]
      | d :: rest => d :: '.' :: rest
    mantissa ++ ['e', if exponent < 0 then '-' else '+'] ++
      (if magnitude.length < 2 then '0' :: magnitude else magnitude)
  else if point ≤ 0 then
    '0' :: '.' :: List.replicate point.natAbs '0' ++ digits
  else if digits.length ≤ point.toNat then
    digits ++ List.replicate (point.toNat - digits.length) '0' ++ ['.', '0']
  else digits.take point.toNat ++ '.' :: digits.drop point.toNat

def signText (x : Double) : List Char := if x.negative then ['-'] else []

/-- The least `point` with `|x| < 10 ^ point`. -/
def decimalPoint (x : Double) : Int :=
  (((List.range 640).find? fun j => x.scaled * 10 ^ 330 < 2 ^ 1074 * 10 ^ j).getD 0 : Nat) - 330

/-- The two decimals of `width` digits around `|x|`, the nearer one first. -/
def neighbours (x : Double) (width : Nat) : List (List Char) :=
  let power := width - decimalPoint x
  let n := x.scaled * 10 ^ power.toNat
  let d := 2 ^ 1074 * 10 ^ (-power).toNat
  let low := n / d
  let nearer := if 2 * (n % d) < d ∨ (2 * (n % d) = d ∧ low % 2 = 0) then [low, low + 1]
    else [low + 1, low]
  nearer.map fun decimal =>
    let digits := Nat.toDigits 10 decimal
    let stripped := (digits.reverse.dropWhile (· = '0')).reverse
    layout stripped (digits.length - power)

def candidates (x : Double) : List (List Char) :=
  if x.scaled = 0 then [['0', '.', '0']]
  else (List.range 17).flatMap fun i => neighbours x (i + 1)

/-- `|x|` in units of `10 ^ -1074`. -/
def exactDigits (x : Double) : Nat := x.scaled * 5 ^ 1074

/-- All the digits of `|x|`. -/
def exactText (x : Double) : List Char :=
  Nat.toDigits 10 (exactDigits x) ++ ['e', '-', '1', '0', '7', '4']

/-- `float.__repr__`: the shortest text that reads back as `x`. -/
def floatText (x : Double) : List Char :=
  (((candidates x).map (signText x ++ ·)).find? fun text =>
    scanNumber text = some (.float x, [])).getD (signText x ++ exactText x)

/-! ## What was written is scanned as it was -/

/-- No number goes on with this character. -/
def endsNumber (c : Char) : Bool :=
  !(c.isDigit || c == '.' || c == 'e' || c == 'E' || c == '+' || c == '-')

/-- A text that cannot continue a number. -/
def NumberEnd (rest : List Char) : Prop := ∀ c tail, rest = c :: tail → endsNumber c = true

theorem numberEnd_nil : NumberEnd [] := by
  intro c tail h
  cases h

theorem numberEnd_cons {c : Char} {tail : List Char} (hc : endsNumber c = true) :
    NumberEnd (c :: tail) := by
  intro d tail' h
  cases h
  exact hc

/-- The scanned part stays scanned and `rest` stays behind it. -/
def withRest {β : Type} (rest : List Char) (scanned : β × List Char) : β × List Char :=
  (scanned.1, scanned.2 ++ rest)

section
variable {rest : List Char} (hrest : NumberEnd rest)
include hrest

theorem takeWhile_append (text : List Char) :
    (text ++ rest).takeWhile Char.isDigit = text.takeWhile Char.isDigit ∧
      (text ++ rest).dropWhile Char.isDigit = text.dropWhile Char.isDigit ++ rest := by
  induction text with
  | nil =>
      cases rest with
      | nil => exact ⟨rfl, rfl⟩
      | cons c tail =>
          have hc : c.isDigit = false := by
            have := hrest c tail rfl
            simp only [endsNumber, Bool.not_eq_true', Bool.or_eq_false_iff] at this
            exact this.1.1.1.1.1
          simp [hc]
  | cons c text ih => by_cases hc : c.isDigit <;> simp [hc, ih]

theorem scanDigits_append (text : List Char) :
    scanDigits (text ++ rest) = (scanDigits text).map (withRest rest) := by
  obtain ⟨htake, hdrop⟩ := takeWhile_append hrest text
  rw [scanDigits, scanDigits, htake, hdrop]
  split <;> rfl

theorem scanFraction_append (text : List Char) :
    scanFraction (text ++ rest) = (scanFraction text).map (withRest rest) := by
  cases text with
  | nil =>
      cases rest with
      | nil => rfl
      | cons c tail =>
          have hc : c ≠ '.' := by
            have := hrest c tail rfl
            rintro rfl
            simp [endsNumber] at this
          simp [scanFraction, hc]
  | cons c text =>
      simp only [List.cons_append, scanFraction]
      split
      · exact scanDigits_append hrest text
      · rfl

theorem scanExponentSign_append {text : List Char} :
    scanExponentSign (text ++ rest) = withRest rest (scanExponentSign text) := by
  cases text with
  | nil =>
      cases rest with
      | nil => rfl
      | cons c tail =>
          have := hrest c tail rfl
          have hminus : c ≠ '-' := by rintro rfl; simp [endsNumber] at this
          have hplus : c ≠ '+' := by rintro rfl; simp [endsNumber] at this
          simp [scanExponentSign, hminus, hplus, withRest]
  | cons c text =>
      simp only [List.cons_append, scanExponentSign]
      split_ifs <;> rfl

theorem scanExponent_append (text : List Char) :
    scanExponent (text ++ rest) = (scanExponent text).map (withRest rest) := by
  cases text with
  | nil =>
      cases rest with
      | nil => rfl
      | cons c tail =>
          have := hrest c tail rfl
          have hc : ¬ (c = 'e' ∨ c = 'E') := by rintro (rfl | rfl) <;> simp [endsNumber] at this
          simp [scanExponent, hc]
  | cons c text =>
      simp only [List.cons_append, scanExponent]
      split
      · rw [scanExponentSign_append hrest]
        simp only [withRest, scanDigits_append hrest, Option.map_map]
        rfl
      · rfl

theorem scanInt_append (text : List Char) :
    scanInt (text ++ rest) = (scanInt text).map (withRest rest) := by
  cases text with
  | nil =>
      cases rest with
      | nil => rfl
      | cons c tail =>
          have := hrest c tail rfl
          have hdigit : c.isDigit = false := by
            simp only [endsNumber, Bool.not_eq_true', Bool.or_eq_false_iff] at this
            exact this.1.1.1.1.1
          have hzero : c ≠ '0' := by rintro rfl; simp at hdigit
          simp [scanInt, hdigit, hzero]
  | cons c text =>
      obtain ⟨htake, hdrop⟩ := takeWhile_append hrest text
      simp only [List.cons_append, scanInt, htake, hdrop]
      split_ifs <;> rfl

theorem scanSign_append (text : List Char) :
    scanSign (text ++ rest) = withRest rest (scanSign text) := by
  cases text with
  | nil =>
      cases rest with
      | nil => rfl
      | cons c tail =>
          have := hrest c tail rfl
          have hc : c ≠ '-' := by rintro rfl; simp [endsNumber] at this
          simp [scanSign, hc, withRest]
  | cons c text =>
      by_cases hc : c = '-'
      · subst hc
        rfl
      · simp [scanSign, hc, withRest]

theorem scanNumber_append (text : List Char) :
    scanNumber (text ++ rest) = (scanNumber text).map (withRest rest) := by
  simp only [scanNumber, scanSign_append hrest, withRest, scanInt_append hrest, Option.map_map]
  congr 1
  funext scanned
  obtain ⟨whole, text⟩ := scanned
  simp only [Function.comp, withRest, scanFraction_append hrest]
  cases scanFraction text with
  | none =>
      simp only [Option.map_none, Option.getD_none, scanExponent_append hrest]
      cases scanExponent text <;> rfl
  | some fraction =>
      simp only [Option.map_some, Option.getD_some, withRest, scanExponent_append hrest]
      cases scanExponent fraction.2 <;> rfl

end

theorem isDigit_toDigits {n : Nat} {c : Char} (hc : c ∈ Nat.toDigits 10 n) :
    c.isDigit = true :=
  Nat.isDigit_of_mem_toDigits (by omega) (by omega) hc

/-- Only zero is written with a leading zero. -/
theorem head_toDigits {n : Nat} (hn : 0 < n) :
    ∃ c cs, Nat.toDigits 10 n = c :: cs ∧ c ≠ '0' := by
  induction n using Nat.strongRecOn with
  | ind n ih =>
      rcases Nat.lt_or_ge n 10 with hlt | hge
      · refine ⟨n.digitChar, [], Nat.toDigits_of_lt_base hlt, ?_⟩
        interval_cases n <;> decide
      · obtain ⟨c, cs, heq, hc⟩ := ih (n / 10) (by omega) (by omega)
        rw [Nat.toDigits_of_base_le (by omega) hge, heq]
        exact ⟨c, cs ++ [(n % 10).digitChar], rfl, hc⟩

theorem scanInt_toDigits (n : Nat) {rest : List Char}
    (hrest : rest.takeWhile Char.isDigit = []) :
    scanInt (Nat.toDigits 10 n ++ rest) = some (Nat.toDigits 10 n, rest) := by
  have hdrop : rest.dropWhile Char.isDigit = rest := by
    have := List.takeWhile_append_dropWhile (p := Char.isDigit) (l := rest)
    rwa [hrest, List.nil_append] at this
  rcases Nat.eq_zero_or_pos n with rfl | hn
  · simp [Nat.toDigits_zero, scanInt]
  · obtain ⟨c, cs, heq, hc⟩ := head_toDigits hn
    have hdigits : ∀ d ∈ c :: cs, d.isDigit = true := fun d hd => isDigit_toDigits (heq ▸ hd)
    rw [List.forall_mem_cons] at hdigits
    rw [heq, List.cons_append, scanInt, if_neg hc, if_pos hdigits.1,
      List.takeWhile_append_of_pos hdigits.2, List.dropWhile_append_of_pos hdigits.2, hrest, hdrop,
      List.append_nil]

theorem scanSign_toDigits (n : Nat) (rest : List Char) :
    scanSign (Nat.toDigits 10 n ++ rest) = (false, Nat.toDigits 10 n ++ rest) := by
  cases heq : Nat.toDigits 10 n with
  | nil => exact absurd heq Nat.toDigits_ne_nil
  | cons c cs =>
      have hc : c ≠ '-' := by
        have := isDigit_toDigits (n := n) (c := c) (by simp [heq])
        rintro rfl
        simp at this
      simp [scanSign, hc]

theorem scanNumber_intText {rest : List Char} (hrest : NumberEnd rest) (n : Int) :
    scanNumber (intText n ++ rest) = some (.int n, rest) := by
  have hplain : ∀ m : Nat, scanNumber (Nat.toDigits 10 m) = some (.int m, []) := by
    intro m
    have hsign := scanSign_toDigits m []
    have hint := @scanInt_toDigits m [] rfl
    rw [List.append_nil] at hsign hint
    simp only [scanNumber, hsign, hint, Option.map_some, scanFraction, scanExponent,
      Option.map_none, Option.getD_none, makeNumber, and_self, if_true, Nat.ofDigitChars_ten_toDigits,
      Bool.false_eq_true, if_false]
  rw [scanNumber_append hrest]
  cases n with
  | ofNat m =>
      rw [intText, hplain]
      rfl
  | negSucc m =>
      have hint := @scanInt_toDigits (m + 1) [] rfl
      rw [List.append_nil] at hint
      simp only [intText, scanNumber, scanSign, hint, Option.map_some, scanFraction, scanExponent,
        Option.map_none, Option.getD_none, makeNumber, and_self, if_true,
        Nat.ofDigitChars_ten_toDigits, withRest, List.nil_append]
      rfl

theorem ofDecimal_exactDigits {x : Double} (hx : x.isFinite = true) :
    Double.ofDecimal x.negative (exactDigits x) (Int.negSucc 1073) = x := by
  have hpow : ∀ m n : Nat, m * 5 ^ n * 2 ^ n = 10 ^ n * m := by
    intro m n
    rw [Nat.mul_assoc, ← Nat.mul_pow, Nat.mul_comm]
  exact Double.ofDecimal_neg hx (hpow x.scaled 1074)

theorem scanNumber_scientific (negative : Bool) (n : Nat) :
    scanNumber ((if negative then ['-'] else []) ++
        (Nat.toDigits 10 n ++ ['e', '-', '1', '0', '7', '4'])) =
      some (.float (.ofDecimal negative n (Int.negSucc 1073)), []) := by
  have hsign : ∀ text, scanSign (Nat.toDigits 10 n ++ text) = (false, Nat.toDigits 10 n ++ text) :=
    scanSign_toDigits n
  have hexponent : scanExponent ['e', '-', '1', '0', '7', '4'] = some (-1074, []) := by decide
  have hfraction : scanFraction ['e', '-', '1', '0', '7', '4'] = none := by decide
  have hpower : (-1074 : Int) - (([] : List Char).length : Int) = Int.negSucc 1073 := by decide
  have hbody := @scanInt_toDigits n ['e', '-', '1', '0', '7', '4'] (by decide)
  cases negative with
  | true =>
      simp only [if_true, List.singleton_append, scanNumber, scanSign, hbody, Option.map_some,
        hfraction, hexponent, Option.map_none, Option.getD_none, Option.getD_some, makeNumber,
        reduceCtorEq, and_false, if_false, List.append_nil, Nat.ofDigitChars_ten_toDigits, hpower]
  | false =>
      simp only [Bool.false_eq_true, if_false, List.nil_append, scanNumber, hsign, hbody,
        Option.map_some, hfraction, hexponent, Option.map_none, Option.getD_none,
        Option.getD_some, makeNumber, reduceCtorEq, and_false, List.append_nil,
        Nat.ofDigitChars_ten_toDigits, hpower]

theorem scanNumber_exactText {x : Double} (hx : x.isFinite = true) :
    scanNumber (signText x ++ exactText x) = some (.float x, []) := by
  rw [signText, exactText, scanNumber_scientific, ofDecimal_exactDigits hx]

theorem scanNumber_floatText {rest : List Char} (hrest : NumberEnd rest) {x : Double}
    (hx : x.isFinite = true) : scanNumber (floatText x ++ rest) = some (.float x, rest) := by
  have halone : scanNumber (floatText x) = some (.float x, []) := by
    unfold floatText
    cases hfind : ((candidates x).map (signText x ++ ·)).find? fun text =>
        scanNumber text = some (.float x, []) with
    | none => exact scanNumber_exactText hx
    | some text => simpa using List.find?_some hfind
  rw [scanNumber_append hrest, halone]
  rfl

end PowerFramework.Lib.JsonNumber
