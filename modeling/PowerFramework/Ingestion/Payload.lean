import PowerFramework.Lib.JsonPrint
import PowerFramework.Lib.PythonValue
/-!
# What ingestion does to a payload

`redact_secrets` replaces secrets in strings and the values of sensitive keys, and
`strip_raw_dialogue` takes the dialogue out of a payload, under the path it stood at.
-/

namespace PowerFramework.Ingestion

open Lib Lib.Json Lib.JsonNumber

/-! ## Redaction -/

/-- What the patterns make of a string, and which keys they call sensitive. -/
class Redaction where
  scrub : String → String
  sensitiveKey : String → Bool

def redacted : Value := .str "[REDACTED]"

/-- `isinstance(v, (int, float, bool))` -/
def isNumber : Value → Bool
  | .int _ => true
  | .float _ => true
  | .bool _ => true
  | _ => false

section
variable [Redaction]

open Redaction

/-- The string of an entry: of a sensitive key it is replaced where the patterns find nothing. -/
def redactText (key text : String) : Value :=
  if sensitiveKey key && scrub text == text then redacted else .str (scrub text)

mutual

/-- `redact_secrets`, without the record of what it found. -/
def redactSecrets : Value → Value
  | .null => .null
  | .bool b => .bool b
  | .int n => .int n
  | .float x => .float x
  | .str s => .str (scrub s)
  | .list items => .list (redactList items)
  | .tuple items => .tuple (redactList items)
  | .dict items => .dict (redactItems items)
  | .keyed key value rest => .keyed key (redactSecrets value) (redactKeyed rest)
  | .other => .other

def redactList : List Value → List Value
  | [] => []
  | value :: values => redactSecrets value :: redactList values

def redactItems : Dict → Dict
  | [] => []
  | (key, value) :: items =>
      (key, match value with
        | .str s => redactText key s
        | value =>
            if sensitiveKey key && isNumber value then redacted else redactSecrets value) ::
        redactItems items

/-- Keys that are no strings are never sensitive. -/
def redactKeyed : List (Key × Value) → List (Key × Value)
  | [] => []
  | (key, value) :: items => (key, redactSecrets value) :: redactKeyed items

end

end

/-! ## Dialogue -/

def rawDialogueKeys : List String := [
  "raw_dialogue", "dialogue_buffer", "transcript", "turns", "prompt_text", "completion_text",
  "messages", "reasoning", "thinking"]

/-- No key of the dict is one of dialogue. -/
def withoutDialogueKey : Value → Bool
  | .dict items => items.all fun item => !rawDialogueKeys.contains item.1
  | _ => true

/-- `contains_raw_dialogue`: a dict anywhere in the data has one of the keys. -/
def containsRawDialogue (data : Value) : Bool := !data.everywhere withoutDialogueKey

/-- `str(key)` -/
def keyText : Key → String
  | .none => "None"
  | .bool b => if b then "True" else "False"
  | .int n => String.ofList (intText n)
  | .float x =>
      if x.isFinite then String.ofList (floatText x)
      else if x.fraction ≠ 0 then "nan"
      else if x.negative then "-inf" else "inf"

/-- The path of a value: a text, or the key itself where the dict stands at an empty path. -/
inductive DataPath where
  | text (s : String)
  | key (k : Key)

def DataPath.show : DataPath → String
  | .text s => s
  | .key k => keyText k

/-- `bool(path)` -/
def DataPath.truthy : DataPath → Bool
  | .text s => s ≠ ""
  | .key .none => false
  | .key (.bool b) => b
  | .key (.int n) => n ≠ 0
  | .key (.float x) => x.scaled ≠ 0 || !x.isFinite

/-- `f"{path}.{k}" if path else k` -/
def DataPath.item (path : DataPath) (key : String) : DataPath :=
  .text (if path.truthy then path.show ++ "." ++ key else key)

def DataPath.keyed (path : DataPath) (key : Key) : DataPath :=
  if path.truthy then .text (path.show ++ "." ++ keyText key) else .key key

/-- `f"{path}[{i}]"` -/
def DataPath.index (path : DataPath) (i : Nat) : DataPath :=
  .text (path.show ++ "[" ++ toString i ++ "]")

mutual

/-- `_traverse` of `strip_raw_dialogue`: the value without dialogue, and the dialogue behind what
was extracted before. -/
def strip : Value → DataPath → Dict → Value × Dict
  | .null, _, extracted => (.null, extracted)
  | .bool b, _, extracted => (.bool b, extracted)
  | .int n, _, extracted => (.int n, extracted)
  | .float x, _, extracted => (.float x, extracted)
  | .str s, _, extracted => (.str s, extracted)
  | .list items, path, extracted =>
      let (items, extracted) := stripList items path 0 extracted
      (.list items, extracted)
  | .tuple items, path, extracted =>
      let (items, extracted) := stripList items path 0 extracted
      (.tuple items, extracted)
  | .dict items, path, extracted =>
      let (items, extracted) := stripItems items path extracted
      (.dict items, extracted)
  | .keyed key value rest, path, extracted =>
      let (value, extracted) := strip value (path.keyed key) extracted
      let (rest, extracted) := stripKeyed rest path extracted
      (.keyed key value rest, extracted)
  | .other, _, extracted => (.other, extracted)

def stripList : List Value → DataPath → Nat → Dict → List Value × Dict
  | [], _, _, extracted => ([], extracted)
  | value :: values, path, i, extracted =>
      let (value, extracted) := strip value (path.index i) extracted
      let (values, extracted) := stripList values path (i + 1) extracted
      (value :: values, extracted)

def stripItems : Dict → DataPath → Dict → Dict × Dict
  | [], _, extracted => ([], extracted)
  | (key, value) :: items, path, extracted =>
      if rawDialogueKeys.contains key then
        stripItems items path (setItem (path.item key).show value extracted)
      else
        let (value, extracted) := strip value (path.item key) extracted
        let (items, extracted) := stripItems items path extracted
        ((key, value) :: items, extracted)

def stripKeyed : List (Key × Value) → DataPath → Dict → List (Key × Value) × Dict
  | [], _, extracted => ([], extracted)
  | (key, value) :: items, path, extracted =>
      let (value, extracted) := strip value (path.keyed key) extracted
      let (items, extracted) := stripKeyed items path extracted
      ((key, value) :: items, extracted)

end

/-- `strip_raw_dialogue` of a payload -/
def stripRawDialogue (payload : Dict) : Dict × Dict := stripItems payload (.text "") []

end PowerFramework.Ingestion
