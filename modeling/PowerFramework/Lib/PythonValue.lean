import PowerFramework.Lib.Json
/-!
# Python values in use

Truth, iteration, hashing and the conversions `int()` and `float()` of the values a JSON payload
can hold.
-/

namespace PowerFramework.Lib.Json

open Failure

/-- The text functions of Python that follow tables of the Unicode standard, and `str()` of a
value that is no string. -/
class PythonText where
  upper : String → String
  lower : String → String
  casefold : String → String
  str : Value → String
  int : String → Option Int
  float : String → Option Double

/-- The functions on ASCII texts that are no numbers. -/
abbrev PythonText.ascii : PythonText where
  upper s := String.ofList (s.toList.map Char.toUpper)
  lower s := String.ofList (s.toList.map Char.toLower)
  casefold s := String.ofList (s.toList.map Char.toLower)
  str _ := ""
  int _ := none
  float _ := none

def typeError (message : String) : Exn := ⟨"TypeError", message⟩

/-- `bool(value)` -/
def Value.truthy : Value → Bool
  | .null => false
  | .bool b => b
  | .int n => n != 0
  | .float x => x.mantissa != 0
  | .str s => s != ""
  | .list items => !items.isEmpty
  | .tuple items => !items.isEmpty
  | .dict items => !items.isEmpty
  | .keyed .. => true
  | .other => true

/-- `a or b` -/
def Value.or (a b : Value) : Value := if a.truthy then a else b

/-- `d.get(key)` -/
def getItem (d : Dict) (key : String) : Value := (d.lookup key).getD .null

/-- `d.get(key, default)` -/
def getItemD (d : Dict) (key : String) (default : Value) : Value := (d.lookup key).getD default

/-- `key in d` -/
def hasItem (d : Dict) (key : String) : Bool := (d.lookup key).isSome

/-- `value == text` -/
def Value.isText (value : Value) (text : String) : Bool :=
  match value with
  | .str s => s == text
  | _ => false

def Key.toValue : Key → Value
  | .none => .null
  | .bool b => .bool b
  | .int n => .int n
  | .float x => .float x

/-- `list(value)` -/
def Value.iterate : Value → Except Exn (List Value)
  | .list items => .ok items
  | .tuple items => .ok items
  | .str s => .ok (s.toList.map fun c => .str (String.singleton c))
  | .dict items => .ok (items.map fun item => .str item.1)
  | .keyed key _ rest => .ok (key.toValue :: rest.map fun item => item.1.toValue)
  | _ => .error (typeError "object is not iterable")

def Value.hashable : Value → Bool := Value.everywhere fun
  | .list _ | .dict _ | .keyed .. | .other => false
  | _ => true

/-- A value as a key of a dict of strings: only a string can be one, and what has no hash is
refused. -/
def hashKey (value : Value) : Except Exn (Option String) :=
  match value with
  | .str s => .ok (some s)
  | value =>
      if value.hashable then .ok none else .error (typeError "unhashable type")

/-- `int(value)` -/
def toInt [PythonText] : Value → Except Exn Int
  | .bool b => .ok (if b then 1 else 0)
  | .int n => .ok n
  | .float x =>
      if x.isFinite then
        let magnitude : Nat := x.scaled / 2 ^ 1074
        .ok (if x.negative then -magnitude else magnitude)
      else if x.fraction = 0 then .error ⟨"OverflowError", "cannot convert float infinity to integer"⟩
      else .error (valueError "cannot convert float NaN to integer")
  | .str s =>
      match PythonText.int s with
      | some n => .ok n
      | none => .error (valueError "invalid literal for int() with base 10")
  | _ => .error (typeError "int() argument must be a string or a real number")

/-- `float(value)` -/
def toFloat [PythonText] : Value → Except Exn Double
  | .bool b => .ok (Double.ofDecimal false (if b then 1 else 0) 0)
  | .int n =>
      let x := Double.ofDecimal (n < 0) n.natAbs 0
      if x.isFinite then .ok x
      else .error ⟨"OverflowError", "int too large to convert to float"⟩
  | .float x => .ok x
  | .str s =>
      match PythonText.float s with
      | some x => .ok x
      | none => .error (valueError "could not convert string to float")
  | _ => .error (typeError "float() argument must be a string or a real number")

mutual

/-- `default=str`: what has no JSON form stands as its `str()`. -/
def Value.defaultStr [PythonText] : Value → Value
  | .list items => .list (defaultStrList items)
  | .tuple items => .tuple (defaultStrList items)
  | .dict items => .dict (defaultStrDict items)
  | .keyed key value rest => .keyed key value.defaultStr (defaultStrKeyed rest)
  | .other => .str (PythonText.str .other)
  | value => value

def defaultStrList [PythonText] : List Value → List Value
  | [] => []
  | value :: values => value.defaultStr :: defaultStrList values

def defaultStrDict [PythonText] : Dict → Dict
  | [] => []
  | (key, value) :: items => (key, value.defaultStr) :: defaultStrDict items

def defaultStrKeyed [PythonText] : List (Key × Value) → List (Key × Value)
  | [] => []
  | (key, value) :: items => (key, value.defaultStr) :: defaultStrKeyed items

end

@[simp] theorem hashKey_str (s : String) : hashKey (.str s) = .ok (some s) := rfl

theorem hashKey_eq_some {value : Value} {key : String} :
    hashKey value = .ok (some key) ↔ value = .str key := by
  cases value <;> simp [hashKey] <;> split_ifs <;> simp

theorem Value.isText_iff {value : Value} {text : String} :
    value.isText text = true ↔ value = .str text := by
  cases value <;> simp [Value.isText]

end PowerFramework.Lib.Json
