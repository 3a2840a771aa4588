import Mathlib.Data.List.Infix
/-!
# Character classes and affixes

The small part of Python's `str` and `re` that file names and identifiers are checked with:
ASCII classes, bounded tokens `[A-Za-z0-9][A-Za-z0-9._-]{0,n}`, and suffix removal.
-/

namespace PowerFramework.Lib.Text

/-- Lists of texts, such as paths, are compared text by text. -/
instance texts_lawfulBEq : LawfulBEq (List String) := inferInstance

def isDigit (c : Char) : Bool := 48 ≤ c.toNat && c.toNat ≤ 57

def isUpper (c : Char) : Bool := 65 ≤ c.toNat && c.toNat ≤ 90

def isLower (c : Char) : Bool := 97 ≤ c.toNat && c.toNat ≤ 122

def isAlnum (c : Char) : Bool := isDigit c || isUpper c || isLower c

/-- `[A-Za-z0-9._-]` -/
def isTokenChar (c : Char) : Bool := isAlnum c || c == '.' || c == '_' || c == '-'

/-- `ord(char) < 32 or ord(char) == 127` -/
def isControl (c : Char) : Bool := c.toNat < 32 || c.toNat == 127

/-- `[0-9a-f]` -/
def isHex (c : Char) : Bool := isDigit c || (97 ≤ c.toNat && c.toNat ≤ 102)

/-- `re.fullmatch(r"[A-Za-z0-9][A-Za-z0-9._-]{0,extra}", s)` -/
def isToken (extra : Nat) (s : String) : Bool :=
  match s.toList with
  | [] => false
  | c :: cs => isAlnum c && cs.all isTokenChar && cs.length ≤ extra

/-- `re.fullmatch(prefix + r"[0-9a-f]{64}", s)` -/
def isDigestToken (lead s : String) : Bool :=
  lead.toList.isPrefixOf s.toList &&
    (s.toList.drop lead.toList.length).all isHex &&
    (s.toList.drop lead.toList.length).length == 64

/-- `s.endswith(suffix)` -/
def endsWith (suffix s : String) : Bool := suffix.toList.isSuffixOf s.toList

/-- `s.removesuffix(suffix)` -/
def removeSuffix (suffix s : String) : String :=
  if endsWith suffix s then
    String.ofList (s.toList.take (s.toList.length - suffix.toList.length))
  else s

theorem isTokenChar_of_isAlnum {c : Char} (hc : isAlnum c = true) : isTokenChar c = true := by
  simp [isTokenChar, hc]

theorem isTokenChar_of_mem {extra : Nat} {s : String} (hs : isToken extra s = true)
    {c : Char} (hc : c ∈ s.toList) : isTokenChar c = true := by
  unfold isToken at hs
  split at hs
  · exact absurd hs (by simp)
  · rename_i d ds heq
    rw [heq] at hc
    simp only [Bool.and_eq_true, List.all_eq_true] at hs
    rcases List.mem_cons.mp hc with rfl | hmem
    · exact isTokenChar_of_isAlnum hs.1.1
    · exact hs.1.2 c hmem

theorem endsWith_append (suffix s : String) : endsWith suffix (s ++ suffix) = true := by
  simp [endsWith, List.isSuffixOf_iff_suffix]

@[simp] theorem removeSuffix_append (suffix s : String) :
    removeSuffix suffix (s ++ suffix) = s := by
  rw [removeSuffix, if_pos (endsWith_append suffix s)]
  simp [String.toList_append]

/-- A suffix that disagrees in its last character is not removed. -/
theorem removeSuffix_of_not {suffix s : String} (h : endsWith suffix s = false) :
    removeSuffix suffix s = s := by
  simp [removeSuffix, h]

end PowerFramework.Lib.Text
