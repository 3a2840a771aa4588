import Mathlib.Data.List.Lex
import Mathlib.Data.Char
import PowerFramework.Lib.Failure
import PowerFramework.Lib.JsonNumber
import PowerFramework.Lib.JsonText
/-!
# Python values as JSON

The values `json.dumps` is given, its compact text with sorted keys, and the scanner of
`json.loads`.  A dict is listed in key order, which is the order `sort_keys` writes it in, so
equal dicts are equal lists.
-/

namespace PowerFramework.Lib.Json

open Failure JsonNumber JsonText

/-- A dict key that is not a string. -/
inductive Key where
  | none
  | bool (b : Bool)
  | int (n : Int)
  | float (x : Double)
  deriving DecidableEq, Repr

/-- `keyed` is a dict with keys of another type than `str`, in the order `sorted` gives its
items; `other` is any value that has no UTF-8 JSON text, such as a set, a string with a lone
surrogate, or a dict that mixes strings with other keys. -/
inductive Value where
  | null
  | bool (b : Bool)
  | int (n : Int)
  | float (x : Double)
  | str (s : String)
  | list (items : List Value)
  | tuple (items : List Value)
  | dict (items : List (String × Value))
  | keyed (key : Key) (value : Value) (rest : List (Key × Value))
  | other
  deriving Repr, BEq

abbrev Dict := List (String × Value)

mutual

/-- `p` holds of the value and of every value inside it. -/
def Value.everywhere (p : Value → Bool) : Value → Bool
  | .null => p .null
  | .bool b => p (.bool b)
  | .int n => p (.int n)
  | .float x => p (.float x)
  | .str s => p (.str s)
  | .list items => p (.list items) && everywhereList p items
  | .tuple items => p (.tuple items) && everywhereList p items
  | .dict items => p (.dict items) && everywhereDict p items
  | .keyed key value rest =>
      p (.keyed key value rest) && (value.everywhere p && everywhereKeyed p rest)
  | .other => p .other

def everywhereList (p : Value → Bool) : List Value → Bool
  | [] => true
  | value :: values => value.everywhere p && everywhereList p values

def everywhereDict (p : Value → Bool) : Dict → Bool
  | [] => true
  | (_, value) :: items => value.everywhere p && everywhereDict p items

def everywhereKeyed (p : Value → Bool) : List (Key × Value) → Bool
  | [] => true
  | (_, value) :: items => value.everywhere p && everywhereKeyed p items

end

def sortedKeys : Dict → Bool
  | [] => true
  | (key, _) :: items => (items.all fun item => key.toList < item.1.toList) && sortedKeys items

/-- Every dict is listed in key order. -/
def Value.ordered : Value → Bool := Value.everywhere fun
  | .dict items => sortedKeys items
  | _ => true

/-- No tuple and no dict with other keys than strings: the types that JSON has. -/
def Value.native : Value → Bool := Value.everywhere fun
  | .tuple _ => false
  | .keyed .. => false
  | _ => true

/-! ## Writing -/

/-- `sys.get_int_max_str_digits()` -/
def maxStrDigits : Nat := 4300

def dumpsInt (n : Int) : Except Exn (List Char) := do
  raiseIf (maxStrDigits < (Nat.toDigits 10 n.natAbs).length)
    (valueError "Exceeds the limit (4300 digits) for integer string conversion")
  return intText n

def dumpsFloat (x : Double) : Except Exn (List Char) := do
  raiseIf (x.isFinite = false) (valueError "Out of range float values are not JSON compliant")
  return floatText x

def dumpsStr (s : String) : List Char := '"' :: s.toList.flatMap escapeChar ++ ['"']

/-- The text a key that is not a string is written as. -/
def dumpsKey : Key → Except Exn (List Char)
  | .none => .ok "null".toList
  | .bool b => .ok (if b then "true" else "false").toList
  | .int n => dumpsInt n
  | .float x => dumpsFloat x

/-- `",".join(texts)` -/
def joinComma : List (List Char) → List Char
  | [] => []
  | [text] => text
  | text :: texts => text ++ ',' :: joinComma texts

mutual

/-- `json.dumps(value, sort_keys=True, ensure_ascii=False, separators=(",", ":"),
allow_nan=False)` -/
def dumps : Value → Except Exn (List Char)
  | .null => .ok "null".toList
  | .bool b => .ok (if b then "true" else "false").toList
  | .int n => dumpsInt n
  | .float x => dumpsFloat x
  | .str s => .ok (dumpsStr s)
  | .list items => do
      let texts ← dumpsList items
      return '[' :: joinComma texts ++ [']']
  | .tuple items => do
      let texts ← dumpsList items
      return '[' :: joinComma texts ++ [']']
  | .dict items => do
      let texts ← dumpsDict items
      return '{' :: joinComma texts ++ ['}']
  | .keyed key value rest => do
      raiseIf (rest ≠ [] ∧ (key = .none ∨ rest.any (·.1 = .none)))
        ⟨"TypeError", "'<' not supported between instances of 'NoneType'"⟩
      let first ← dumpsKey key
      let text ← dumps value
      let texts ← dumpsKeyed rest
      return '{' :: joinComma (('"' :: first ++ '"' :: ':' :: text) :: texts) ++ ['}']
  | .other => .error ⟨"TypeError", "Object is not JSON serializable"⟩

def dumpsList : List Value → Except Exn (List (List Char))
  | [] => .ok []
  | value :: values => do
      let text ← dumps value
      let texts ← dumpsList values
      return text :: texts

def dumpsDict : Dict → Except Exn (List (List Char))
  | [] => .ok []
  | (key, value) :: items => do
      let text ← dumps value
      let texts ← dumpsDict items
      return (dumpsStr key ++ ':' :: text) :: texts

def dumpsKeyed : List (Key × Value) → Except Exn (List (List Char))
  | [] => .ok []
  | (key, value) :: items => do
      let first ← dumpsKey key
      let text ← dumps value
      let texts ← dumpsKeyed items
      return ('"' :: first ++ '"' :: ':' :: text) :: texts

end

/-! ## Scanning -/

def isSpace (c : Char) : Bool := c == ' ' || c == '\t' || c == '\n' || c == '\r'

def skip (text : List Char) : List Char := text.dropWhile isSpace

def hexValue (c : Char) : Option Nat :=
  if '0' ≤ c ∧ c ≤ '9' then some (c.toNat - 48)
  else if 'a' ≤ c ∧ c ≤ 'f' then some (c.toNat - 87)
  else if 'A' ≤ c ∧ c ≤ 'F' then some (c.toNat - 55)
  else none

def scanHex4 : List Char → Option (Nat × List Char)
  | a :: b :: c :: d :: rest => do
      let a ← hexValue a
      let b ← hexValue b
      let c ← hexValue c
      let d ← hexValue d
      return (((a * 16 + b) * 16 + c) * 16 + d, rest)
  | _ => none

def simpleEscape (c : Char) : Option Nat :=
  if c = '"' then some 34
  else if c = '\\' then some 92
  else if c = '/' then some 47
  else if c = 'b' then some 8
  else if c = 'f' then some 12
  else if c = 'n' then some 10
  else if c = 'r' then some 13
  else if c = 't' then some 9
  else none

/-- The second half of a surrogate pair, when one follows. -/
def scanLow : List Char → Option (Nat × List Char)
  | '\\' :: 'u' :: rest => scanHex4 rest
  | rest => some (0, rest)

/-- The code point after a backslash. -/
def scanEscape : List Char → Option (Nat × List Char)
  | [] => none
  | c :: rest =>
      if c = 'u' then do
        let (high, rest) ← scanHex4 rest
        if 0xD800 ≤ high ∧ high ≤ 0xDBFF then
          let (low, after) ← scanLow rest
          if 0xDC00 ≤ low ∧ low ≤ 0xDFFF then
            return (0x10000 + (high - 0xD800) * 0x400 + (low - 0xDC00), after)
          else return (high, rest)
        else return (high, rest)
      else (simpleEscape c).map (·, rest)

/-- The code points of a string, after its opening quote. -/
def scanString : Nat → List Char → Option (List Nat × List Char)
  | 0, _ => none
  | _ + 1, [] => none
  | fuel + 1, c :: rest =>
      if c = '"' then some ([], rest)
      else if c = '\\' then do
        let (code, rest) ← scanEscape rest
        let (codes, rest) ← scanString fuel rest
        return (code :: codes, rest)
      else if c.toNat < 32 then none
      else do
        let (codes, rest) ← scanString fuel rest
        return (c.toNat :: codes, rest)

def toChar? (code : Nat) : Option Char := if code.isValidChar then some (Char.ofNat code) else none

/-- The string with these code points, none when one is a surrogate. -/
def ofCodes (codes : List Nat) : Option String := (codes.mapM toChar?).map String.ofList

def strValue (codes : List Nat) : Value := ((ofCodes codes).map Value.str).getD .other

/-- `d[key] = value` -/
def setItem (key : String) (value : Value) : Dict → Dict
  | [] => [(key, value)]
  | (k, v) :: items =>
      if key.toList < k.toList then (key, value) :: (k, v) :: items
      else if key = k then (key, value) :: items
      else (k, v) :: setItem key value items

def dictOf (members : List (Option String × Value)) : Option Dict :=
  members.foldl (fun d member => do return setItem (← member.1) member.2 (← d)) (some [])

def dictValue (members : List (Option String × Value)) : Value :=
  ((dictOf members).map Value.dict).getD .other

/-- `text` behind `word`, when it starts with it. -/
def literal (word : String) (value : Value) (text : List Char) : Option (Value × List Char) :=
  if word.toList.isPrefixOf text then some (value, text.drop word.toList.length) else none

def scanNumberValue (text : List Char) : Option (Value × List Char) := do
  let (number, rest) ← scanNumber text
  match number with
  | .int n =>
      if maxStrDigits < (Nat.toDigits 10 n.natAbs).length then none else return (.int n, rest)
  | .float x => return (.float x, rest)

mutual

def scanValue : Nat → List Char → Option (Value × List Char)
  | 0, _ => none
  | _ + 1, [] => none
  | fuel + 1, c :: rest =>
      if c = '"' then do
        let (codes, rest) ← scanString (rest.length + 1) rest
        return (strValue codes, rest)
      else if c = '{' then
        match skip rest with
        | '}' :: rest => some (.dict [], rest)
        | rest => do
            let (members, rest) ← scanMembers fuel rest
            return (dictValue members, rest)
      else if c = '[' then
        match skip rest with
        | ']' :: rest => some (.list [], rest)
        | rest => do
            let (items, rest) ← scanItems fuel rest
            return (.list items, rest)
      else if c = 'n' then literal "null" .null (c :: rest)
      else if c = 't' then literal "true" (.bool true) (c :: rest)
      else if c = 'f' then literal "false" (.bool false) (c :: rest)
      else if c = 'N' then literal "NaN" (.float .nan) (c :: rest)
      else if c = 'I' then literal "Infinity" (.float (.infinity false)) (c :: rest)
      else (scanNumberValue (c :: rest)).or
        (literal "-Infinity" (.float (.infinity true)) (c :: rest))

def scanItems : Nat → List Char → Option (List Value × List Char)
  | 0, _ => none
  | fuel + 1, text => do
      let (value, rest) ← scanValue fuel text
      match skip rest with
      | ']' :: rest => return ([value], rest)
      | ',' :: rest =>
          let (values, rest) ← scanItems fuel (skip rest)
          return (value :: values, rest)
      | _ => none

def scanMembers : Nat → List Char → Option (List (Option String × Value) × List Char)
  | 0, _ => none
  | fuel + 1, '"' :: text => do
      let (codes, rest) ← scanString (text.length + 1) text
      match skip rest with
      | ':' :: rest =>
          let (value, rest) ← scanValue fuel (skip rest)
          match skip rest with
          | '}' :: rest => return ([(ofCodes codes, value)], rest)
          | ',' :: rest =>
              let (members, rest) ← scanMembers fuel (skip rest)
              return ((ofCodes codes, value) :: members, rest)
          | _ => none
      | _ => none
  | _ + 1, _ => none

end

/-- `json.loads(text)`; none is a `JSONDecodeError`. -/
def loads (text : List Char) : Option Value := do
  let text := skip text
  let (value, rest) ← scanValue (2 * text.length + 1) text
  if skip rest = [] then return value else none

end PowerFramework.Lib.Json
