import Mathlib.Data.List.Infix
/-!
# JSON strings

The text `json.dumps(s, ensure_ascii=False)` gives a string: the two delimiters, a two
character escape for `"`, `\` and the five named controls, `\u00xx` for the other C0
controls, and every other character as it is; and with `ensure_ascii`, where every character that is
no printable ASCII one is escaped.
-/

namespace PowerFramework.Lib.JsonText

/-- The characters of a text are gone through one by one, and not all there are. -/
instance (priority := 1100) decidableForallMem {p : Char → Prop} [DecidablePred p]
    (text : List Char) : Decidable (∀ c ∈ text, p c) :=
  List.decidableBAll p text

def hexDigit (n : Nat) : Char :=
  if n < 10 then Char.ofNat (48 + n) else Char.ofNat (87 + n)

def escapeChar (c : Char) : List Char :=
  if c = '"' then ['\\', '"']
  else if c = '\\' then ['\\', '\\']
  else if c = '\n' then ['\\', 'n']
  else if c = '\r' then ['\\', 'r']
  else if c = '\t' then ['\\', 't']
  else if c.toNat = 12 then ['\\', 'f']
  else if c.toNat = 8 then ['\\', 'b']
  else if c.toNat < 32 then
    ['\\', 'u', '0', '0', hexDigit (c.toNat / 16), hexDigit (c.toNat % 16)]
  else [c]

def quote (s : String) : String :=
  String.ofList ('"' :: s.toList.flatMap escapeChar ++ ['"'])

def quoteOption : Option String → String
  | none => "null"
  | some s => quote s

def unicodeEscape (code : Nat) : List Char :=
  ['\\', 'u', hexDigit (code / 4096 % 16), hexDigit (code / 256 % 16),
    hexDigit (code / 16 % 16), hexDigit (code % 16)]

/-- A character as `json.dumps` writes it with `ensure_ascii`. -/
def asciiChar (c : Char) : List Char :=
  if c.toNat < 127 then escapeChar c
  else if c.toNat < 0x10000 then unicodeEscape c.toNat
  else unicodeEscape (0xD800 + (c.toNat - 0x10000) / 0x400) ++
    unicodeEscape (0xDC00 + (c.toNat - 0x10000) % 0x400)

def asciiText (text : String) : List Char := '"' :: text.toList.flatMap asciiChar ++ ['"']

end PowerFramework.Lib.JsonText
