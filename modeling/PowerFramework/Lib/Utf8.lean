import Mathlib.Algebra.GroupWithZero.Nat
import Mathlib.Data.List.Basic
/-!
# UTF-8

Texts are character lists and their encodings byte lists.  A decoded byte list is the
encoding of its text (`decode_eq_some`), and an encoded text can be cut right after any
newline byte (`exists_split`).
-/

namespace PowerFramework.Lib.Utf8

/-- `text.encode("utf-8")` -/
def encode (text : List Char) : List UInt8 := text.flatMap String.utf8EncodeChar

/-- `data.decode("utf-8")` -/
def decode (data : List UInt8) : Option (List Char) :=
  data.toByteArray.utf8Decode?.map Array.toList

/-- How many bytes of an ill-formed sequence one replacement character stands for. -/
def maximalSubpart : List UInt8 → Nat
  | [] => 0
  | b :: rest =>
      let width := if 0xC2 ≤ b ∧ b ≤ 0xDF then 2 else if 0xE0 ≤ b ∧ b ≤ 0xEF then 3
        else if 0xF0 ≤ b ∧ b ≤ 0xF4 then 4 else 1
      let low : UInt8 := if b = 0xE0 then 0xA0 else if b = 0xF0 then 0x90 else 0x80
      let high : UInt8 := if b = 0xED then 0x9F else if b = 0xF4 then 0x8F else 0xBF
      match rest with
      | [] => 1
      | second :: more =>
          if 1 < width ∧ low ≤ second ∧ second ≤ high then
            2 + ((more.take (width - 2)).takeWhile fun b => 0x80 ≤ b ∧ b ≤ 0xBF).length
          else 1

def decodeReplaceFuel : Nat → List UInt8 → List Char
  | 0, _ => []
  | _, [] => []
  | fuel + 1, data =>
      match data.toByteArray.utf8DecodeChar? 0 with
      | some c => c :: decodeReplaceFuel fuel (data.drop c.utf8Size)
      | none => '\uFFFD' :: decodeReplaceFuel fuel (data.drop (maximalSubpart data))

/-- `data.decode("utf-8", errors="replace")` -/
def decodeReplace (data : List UInt8) : List Char := decodeReplaceFuel data.length data

theorem toByteArray_encode (text : List Char) : (encode text).toByteArray = text.utf8Encode := rfl

theorem decode_encode (text : List Char) : decode (encode text) = some text := by
  rw [decode, toByteArray_encode, List.utf8Decode?_utf8Encode]
  rfl

@[simp] theorem encode_nil : encode [] = [] := rfl

@[simp] theorem encode_cons (c : Char) (text : List Char) :
    encode (c :: text) = String.utf8EncodeChar c ++ encode text := rfl

@[simp] theorem encode_append (a b : List Char) : encode (a ++ b) = encode a ++ encode b := by
  simp [encode]

theorem length_encode_le (text : List Char) : (encode text).length ≤ 4 * text.length := by
  induction text with
  | nil => simp
  | cons c text ih =>
      rw [encode_cons, List.length_append, List.length_cons, String.length_utf8EncodeChar]
      have := Char.utf8Size_le_four c
      omega

theorem utf8ByteSize_le (text : String) : text.utf8ByteSize ≤ 4 * text.length := by
  have hchars : ∀ cs : List Char, (String.ofList cs).utf8ByteSize ≤ 4 * cs.length := by
    intro cs
    induction cs with
    | nil => simp
    | cons c cs ih =>
      have hone : (String.ofList [c]).utf8ByteSize ≤ 4 := by
        simpa using Char.utf8Size_le_four c
      rw [← List.singleton_append, String.ofList_append, String.utf8ByteSize_append,
        List.length_append, List.length_singleton]
      omega
  have h := hchars text.toList
  rwa [String.ofList_toList, String.length_toList] at h

/-- An ASCII character is one byte. -/
theorem utf8ByteSize_ofList {cs : List Char} (h : ∀ c ∈ cs, c.toNat < 128) :
    (String.ofList cs).utf8ByteSize = cs.length := by
  induction cs with
  | nil => rfl
  | cons c cs ih =>
    have hone : c.utf8Size = 1 := Char.utf8Size_eq_one_iff.mpr (by
      have hc := h c List.mem_cons_self
      rw [Char.toNat] at hc
      exact UInt32.le_iff_toNat_le.mpr (Nat.le_of_lt_succ hc))
    have hrest := ih fun d hd => h d (List.mem_cons_of_mem _ hd)
    rw [← List.singleton_append, String.ofList_append, String.utf8ByteSize_append, hrest,
      List.length_append, List.length_singleton]
    simp [hone]

theorem utf8ByteSize_intercalate {sep : String} {lines : List String} (hne : lines ≠ []) :
    (sep.intercalate lines).utf8ByteSize + sep.utf8ByteSize =
      (lines.map fun line => line.utf8ByteSize + sep.utf8ByteSize).sum := by
  induction lines with
  | nil => exact absurd rfl hne
  | cons line lines ih =>
    cases lines with
    | nil => simp
    | cons next lines =>
      have hrest := ih (by simp)
      rw [String.intercalate_cons_cons, String.utf8ByteSize_append, String.utf8ByteSize_append,
        List.map_cons, List.sum_cons]
      omega

theorem decode_eq_some {data : List UInt8} {text : List Char} :
    decode data = some text ↔ data = encode text := by
  constructor
  · intro h
    obtain ⟨chars, hchars, rfl⟩ := Option.map_eq_some_iff.mp h
    have hget := ByteArray.utf8Encode_get_utf8Decode? (b := data.toByteArray)
      (h := by rw [hchars]; rfl)
    simp only [hchars, Option.get_some] at hget
    rw [← toByteArray_encode] at hget
    have hdata := congrArg (fun b => b.data.toList) hget
    simpa using hdata.symm
  · rintro rfl
    exact decode_encode text

theorem encode_injective {a b : List Char} (h : encode a = encode b) : a = b := by
  have := decode_encode b
  rw [← h, decode_encode] at this
  exact Option.some.inj this

theorem decodeReplaceFuel_encode {text : List Char} {fuel : Nat}
    (hfuel : (encode text).length ≤ fuel) : decodeReplaceFuel fuel (encode text) = text := by
  induction text generalizing fuel with
  | nil => cases fuel <;> rfl
  | cons c text ih =>
      have hsize := c.utf8Size_pos
      rw [encode_cons, List.length_append, String.length_utf8EncodeChar] at hfuel
      cases fuel with
      | zero => omega
      | succ fuel =>
          have hne : encode (c :: text) ≠ [] := by
            intro hnil
            have hlength := congrArg List.length hnil
            rw [encode_cons, List.length_append, String.length_utf8EncodeChar] at hlength
            simp at hlength
            omega
          have hfirst : (encode (c :: text)).toByteArray.utf8DecodeChar? 0 = some c := by
            rw [toByteArray_encode]
            exact List.utf8DecodeChar?_utf8Encode_cons
          have hdrop : (encode (c :: text)).drop c.utf8Size = encode text := by
            rw [encode_cons, ← String.length_utf8EncodeChar c, List.drop_left]
          rw [decodeReplaceFuel.eq_3 _ _ hne, hfirst]
          simp only [hdrop, ih (show (encode text).length ≤ fuel by omega)]

theorem decodeReplace_encode (text : List Char) : decodeReplace (encode text) = text :=
  decodeReplaceFuel_encode (Nat.le_refl _)

/-- The bytes of a character outside ASCII are all 128 or more. -/
theorem le_of_mem_utf8EncodeChar {c : Char} (hc : 128 ≤ c.toNat) {b : UInt8}
    (hb : b ∈ String.utf8EncodeChar c) : 128 ≤ b.toNat := by
  have hval : c.val.toNat = c.toNat := rfl
  have hlt : c.toNat < 0x110000 := by
    have := c.valid
    simp only [UInt32.isValidChar, Nat.isValidChar, hval] at this
    omega
  simp only [String.utf8EncodeChar, hval] at hb
  rw [if_neg (by omega)] at hb
  split at hb
  · simp only [List.mem_cons, List.not_mem_nil, or_false] at hb
    rcases hb with rfl | rfl <;> simp only [UInt8.toNat_ofNat'] <;> omega
  · split at hb
    · simp only [List.mem_cons, List.not_mem_nil, or_false] at hb
      rcases hb with rfl | rfl | rfl <;> simp only [UInt8.toNat_ofNat'] <;> omega
    · simp only [List.mem_cons, List.not_mem_nil, or_false] at hb
      rcases hb with rfl | rfl | rfl | rfl <;> simp only [UInt8.toNat_ofNat'] <;> omega

theorem utf8EncodeChar_ascii {c : Char} (hc : c.toNat < 128) :
    String.utf8EncodeChar c = [UInt8.ofNat c.toNat] := by
  have hval : c.val.toNat = c.toNat := rfl
  simp only [String.utf8EncodeChar, hval]
  rw [if_pos (by omega)]

/-- An ASCII byte occurs only as the whole encoding of its own character. -/
theorem utf8EncodeChar_of_mem {c : Char} {b : UInt8} (hb : b ∈ String.utf8EncodeChar c)
    (hascii : b.toNat < 128) : String.utf8EncodeChar c = [b] ∧ c.toNat = b.toNat := by
  rcases Nat.lt_or_ge c.toNat 128 with hc | hc
  · rw [utf8EncodeChar_ascii hc] at hb ⊢
    have hb : b = UInt8.ofNat c.toNat := by simpa using hb
    subst hb
    refine ⟨rfl, ?_⟩
    simp only [UInt8.toNat_ofNat']
    omega
  · have := le_of_mem_utf8EncodeChar hc hb
    omega

theorem mem_encode_ascii {text : List Char} {b : UInt8} (hascii : b.toNat < 128) :
    b ∈ encode text ↔ ∃ c ∈ text, c.toNat = b.toNat := by
  simp only [encode, List.mem_flatMap]
  constructor
  · rintro ⟨c, hc, hb⟩
    exact ⟨c, hc, (utf8EncodeChar_of_mem hb hascii).2⟩
  · rintro ⟨c, hc, heq⟩
    refine ⟨c, hc, ?_⟩
    rw [utf8EncodeChar_ascii (by omega), heq]
    simp

/-- A valid encoding whose first part ends in an ASCII byte is cut between two characters. -/
theorem exists_split {text : List Char} {front : List UInt8} {b : UInt8} {back : List UInt8}
    (hascii : b.toNat < 128) (h : encode text = front ++ b :: back) :
    ∃ pre c post, text = pre ++ c :: post ∧ encode pre = front ∧ c.toNat = b.toNat ∧
      encode post = back := by
  induction text generalizing front with
  | nil => simp at h
  | cons d text ih =>
      rw [encode_cons] at h
      rcases List.append_eq_append_iff.mp h with ⟨mid, hfront, hrest⟩ | ⟨mid, hchar, hrest⟩
      · obtain ⟨pre, c, post, rfl, hpre, hc, hpost⟩ := ih hrest
        exact ⟨d :: pre, c, post, rfl, by rw [encode_cons, hpre, hfront], hc, hpost⟩
      · cases mid with
        | nil =>
            rw [List.append_nil] at hchar
            obtain ⟨pre, c, post, rfl, hpre, hc, hpost⟩ := @ih [] hrest.symm
            refine ⟨d :: pre, c, post, rfl, ?_, hc, hpost⟩
            rw [encode_cons, hpre, List.append_nil, hchar]
        | cons x mid =>
            obtain ⟨rfl, rfl⟩ : b = x ∧ back = mid ++ encode text := by simpa using hrest
            obtain ⟨hsingle, hd⟩ := utf8EncodeChar_of_mem (c := d) (b := b) (by simp [hchar]) hascii
            rw [hsingle] at hchar
            cases front with
            | nil =>
                obtain rfl : mid = [] := by simpa using hchar.symm
                exact ⟨[], d, text, rfl, rfl, hd, rfl⟩
            | cons y front => simp at hchar

end PowerFramework.Lib.Utf8
