import PowerFramework.Lib.JsonExtension
import PowerFramework.Memory.Receipts
/-!
# Receipts of any text

`json.dumps` escapes what is not ASCII, so the line of a receipt is printable whatever its texts
are, and it is read back as the receipt.
-/

namespace PowerFramework.Memory

open Lib Lib.Failure Lib.Json Lib.Text
open Lib.JsonText (asciiChar asciiText unicodeEscape)

variable {receipt : Dict}

/-! ## Escaped characters -/

theorem scanHex4_unicodeEscape {code : Nat} (hcode : code < 0x10000) (rest : List Char) :
    scanHex4 (JsonText.hexDigit (code / 4096 % 16) :: JsonText.hexDigit (code / 256 % 16) ::
      JsonText.hexDigit (code / 16 % 16) :: JsonText.hexDigit (code % 16) :: rest) =
        some (code, rest) := by
  have hvalue : ((code / 4096 % 16 * 16 + code / 256 % 16) * 16 + code / 16 % 16) * 16 +
      code % 16 = code := by omega
  simp only [scanHex4, hexValue_hexDigit (Nat.mod_lt _ (by decide)), bind, Option.bind, pure, hvalue]

theorem scanEscape_unicodeEscape {code : Nat} (hcode : code < 0x10000)
    (hhigh : ¬(0xD800 ≤ code ∧ code ≤ 0xDBFF)) (rest : List Char) :
    scanEscape ((unicodeEscape code).tail ++ rest) = some (code, rest) := by
  unfold unicodeEscape
  simp only [List.tail_cons, List.cons_append, List.nil_append, scanEscape, if_true,
    scanHex4_unicodeEscape hcode, bind, Option.bind, if_neg hhigh, pure]

/-- A surrogate pair is read as one code point. -/
theorem scanEscape_pair {high low : Nat} (hhigh : 0xD800 ≤ high ∧ high ≤ 0xDBFF)
    (hlow : 0xDC00 ≤ low ∧ low ≤ 0xDFFF) (rest : List Char) :
    scanEscape ((unicodeEscape high).tail ++ (unicodeEscape low ++ rest)) =
      some (0x10000 + (high - 0xD800) * 0x400 + (low - 0xDC00), rest) := by
  have hscan : scanLow (unicodeEscape low ++ rest) = some (low, rest) := by
    unfold unicodeEscape
    simp only [List.cons_append, List.nil_append, scanLow]
    exact scanHex4_unicodeEscape (by omega) rest
  have hfirst := @scanHex4_unicodeEscape high (by omega) (unicodeEscape low ++ rest)
  unfold unicodeEscape at hfirst hscan ⊢
  simp only [List.tail_cons, List.cons_append, List.nil_append] at hfirst hscan ⊢
  simp only [scanEscape, if_true, hfirst, bind, Option.bind, if_pos hhigh, hscan, if_pos hlow, pure]

/-- A code point behind the basic plane from its two halves. -/
theorem pair_code {code : Nat} (h : 0x10000 ≤ code) :
    0x10000 + (0xD800 + (code - 0x10000) / 0x400 - 0xD800) * 0x400 +
      (0xDC00 + (code - 0x10000) % 0x400 - 0xDC00) = code := by
  omega

theorem toNat_valid (c : Char) : c.toNat < 0xD800 ∨ 0xDFFF < c.toNat ∧ c.toNat < 0x110000 := c.valid

theorem scanString_escape {code fuel : Nat} {escape text : List Char}
    (h : scanEscape (escape ++ text) = some (code, text)) :
    scanString (fuel + 1) ('\\' :: (escape ++ text)) =
      (scanString fuel text).map fun r => (code :: r.1, r.2) := by
  have hback : ('\\' : Char) ≠ '"' := by decide
  simp only [scanString, if_neg hback, if_true, h, bind, Option.bind, pure]
  cases scanString fuel text <;> rfl

/-- One written character is one step of the scanner. -/
theorem scanString_asciiChar (c : Char) (fuel : Nat) (text : List Char) :
    scanString (fuel + 1) (asciiChar c ++ text) =
      (scanString fuel text).map fun r => (c.toNat :: r.1, r.2) := by
  have hvalid := toNat_valid c
  unfold asciiChar
  split_ifs with hascii hplane
  · exact scanString_escapeChar c fuel text
  · exact scanString_escape (scanEscape_unicodeEscape hplane (by omega) text)
  · have hscan := @scanEscape_pair (0xD800 + (c.toNat - 0x10000) / 0x400)
      (0xDC00 + (c.toNat - 0x10000) % 0x400) (by omega) (by omega) text
    rw [pair_code (by omega), ← List.append_assoc] at hscan
    exact scanString_escape hscan

theorem scanString_asciiText (chars rest : List Char) {fuel : Nat} (hfuel : chars.length < fuel) :
    scanString fuel (chars.flatMap asciiChar ++ '"' :: rest) = some (chars.map Char.toNat, rest) := by
  induction chars generalizing fuel with
  | nil =>
    obtain ⟨fuel, rfl⟩ := Nat.exists_eq_succ_of_ne_zero (by omega : fuel ≠ 0)
    rfl
  | cons c chars ih =>
    obtain ⟨fuel, rfl⟩ := Nat.exists_eq_succ_of_ne_zero (by omega : fuel ≠ 0)
    rw [List.flatMap_cons, List.append_assoc, scanString_asciiChar, ih (by simpa using hfuel)]
    rfl

theorem asciiChar_ne_nil (c : Char) : 1 ≤ (asciiChar c).length := by
  unfold asciiChar unicodeEscape JsonText.escapeChar
  split_ifs <;> simp

theorem length_le_asciiText (text : String) : text.toList.length + 2 ≤ (asciiText text).length := by
  have h : ∀ chars : List Char, chars.length ≤ (chars.flatMap asciiChar).length := by
    intro chars
    induction chars with
    | nil => exact Nat.le_refl 0
    | cons c chars ih =>
      have hc := asciiChar_ne_nil c
      rw [List.flatMap_cons, List.length_append, List.length_cons]
      omega
  have htext := h text.toList
  unfold asciiText
  rw [List.cons_append, List.length_cons, List.length_append, List.length_singleton]
  omega

/-- A text is read back as it was. -/
theorem scans_asciiText (text : String) : Scans (asciiText text) (.str text) := by
  refine scans_of ⟨'"', _, rfl, by decide⟩ fun rest fuel _ => ?_
  have hlength := length_le_asciiText text
  have hscan : scanString ((text.toList.flatMap asciiChar ++ '"' :: rest).length + 1)
      (text.toList.flatMap asciiChar ++ '"' :: rest) = some (text.toList.map Char.toNat, rest) := by
    refine scanString_asciiText text.toList rest ?_
    unfold asciiText at hlength
    rw [List.cons_append, List.length_cons, List.length_append, List.length_singleton] at hlength
    rw [List.length_append, List.length_cons]
    omega
  have heq : asciiText text ++ rest = '"' :: (text.toList.flatMap asciiChar ++ '"' :: rest) := by
    simp only [asciiText, List.cons_append, List.append_assoc, List.nil_append]
  rw [heq, scanValue, if_pos rfl, hscan]
  simp only [bind, Option.bind, pure, strValue, ofCodes_toNat, Option.map_some, Option.getD_some]

/-! ## Printable lines -/

theorem mem_intercalate {α : Type} {sep : List α} {texts : List (List α)} {c : α}
    (hc : c ∈ List.intercalate sep texts) : c ∈ sep ∨ ∃ text ∈ texts, c ∈ text := by
  induction texts with
  | nil => cases hc
  | cons text texts ih =>
    cases texts with
    | nil =>
      rw [List.intercalate, List.intersperse_singleton, List.flatten_singleton] at hc
      exact .inr ⟨text, List.mem_singleton_self text, hc⟩
    | cons next texts =>
      unfold List.intercalate at hc ih
      rw [List.intersperse_cons_cons, List.flatten_cons, List.flatten_cons, List.mem_append,
        List.mem_append] at hc
      rcases hc with hc | hc | hc
      · exact .inr ⟨text, List.mem_cons_self, hc⟩
      · exact .inl hc
      · rcases ih hc with hsep | ⟨other, hother, hc⟩
        · exact .inl hsep
        · exact .inr ⟨other, List.mem_cons_of_mem _ hother, hc⟩

theorem printable_unicodeEscape {code : Nat} {c : Char} (hc : c ∈ unicodeEscape code) :
    printable c = true := by
  have hdigit : ∀ d < 16, printable (JsonText.hexDigit d) = true := by
    intro d hd
    interval_cases d <;> decide
  unfold unicodeEscape at hc
  simp only [List.mem_cons, List.not_mem_nil, or_false] at hc
  rcases hc with rfl | rfl | rfl | rfl | rfl | rfl
  · decide
  · decide
  all_goals exact hdigit _ (Nat.mod_lt _ (by decide))

theorem printable_asciiChar {c d : Char} (hd : d ∈ asciiChar c) : printable d = true := by
  unfold asciiChar at hd
  split_ifs at hd with hascii
  · rcases escapeChar_cases c with ⟨hsame, hcontrol⟩ | ⟨-, hprint⟩
    · rw [hsame, List.mem_singleton] at hd
      subst hd
      simp only [printable, Bool.and_eq_true, decide_eq_true_eq]
      omega
    · exact hprint d hd
  · exact printable_unicodeEscape hd
  · rcases List.mem_append.mp hd with hd | hd
    · exact printable_unicodeEscape hd
    · exact printable_unicodeEscape hd

theorem printable_asciiText {text : String} {c : Char} (hc : c ∈ asciiText text) :
    printable c = true := by
  unfold asciiText at hc
  rw [List.cons_append, List.mem_cons, List.mem_append, List.mem_singleton] at hc
  rcases hc with rfl | hc | rfl
  · decide
  · obtain ⟨d, -, hd⟩ := List.mem_flatMap.mp hc
    exact printable_asciiChar hd
  · decide

/-- The line of a receipt without its newline. -/
def receiptText (receipt : Dict) : List Char :=
  '{' :: List.intercalate [',', ' '] (receipt.map receiptMember) ++ ['}']

theorem receiptLine_toList (receipt : Dict) :
    (receiptLine receipt).toList = receiptText receipt ++ ['\n'] := by
  rw [receiptLine_eq, String.toList_ofList, receiptText]
  simp

theorem printable_receiptText {c : Char} (hc : c ∈ receiptText receipt) : printable c = true := by
  unfold receiptText at hc
  rw [List.cons_append, List.mem_cons, List.mem_append, List.mem_singleton] at hc
  rcases hc with rfl | hc | rfl
  · decide
  · rcases mem_intercalate hc with hsep | ⟨text, htext, hc⟩
    · simp only [List.mem_cons, List.not_mem_nil, or_false] at hsep
      rcases hsep with rfl | rfl
      · decide
      · decide
    · obtain ⟨item, -, rfl⟩ := List.mem_map.mp htext
      unfold receiptMember at hc
      rw [List.mem_append, List.mem_cons, List.mem_cons] at hc
      rcases hc with hc | rfl | rfl | hc
      · exact printable_asciiText hc
      · decide
      · decide
      · exact printable_asciiText hc
  · decide

/-! ## Reading a line -/

/-- The receipt is in the order of its keys, its keys are printable and its values are texts. -/
structure Textual (receipt : Dict) : Prop where
  sorted : sortedKeys receipt = true
  items : ∀ item ∈ receipt, ∃ value, item.2 = .str value ∧ ∀ c ∈ item.1.toList, printable c = true

theorem receiptMember_eq {item : String × Value} {value : String} (hvalue : item.2 = .str value)
    (hkey : ∀ c ∈ item.1.toList, printable c = true) :
    receiptMember item = (Layout.spaced true).member item.1 (asciiText value) := by
  obtain ⟨key, v⟩ := item
  simp only at hvalue hkey
  subst hvalue
  unfold receiptMember Layout.member
  rw [asciiText_eq_dumpsStr hkey]
  simp [getText, Layout.spaced]

theorem receiptText_eq (receipt : Dict) :
    receiptText receipt = (Layout.spaced true).bracket 0 '{' '}' (receipt.map receiptMember) := by
  unfold receiptText Layout.bracket
  split_ifs with hnil
  · rw [hnil]
    rfl
  · rw [join_spaced]
    simp [Layout.spaced]

theorem loads_receiptText (h : Textual receipt) :
    loads (receiptText receipt) = some (.dict receipt) := by
  have hmembers : ∀ items : Dict, (∀ item ∈ items, ∃ value, item.2 = .str value ∧
      ∀ c ∈ item.1.toList, printable c = true) →
      List.Forall₂ (Layout.spaced true).ScansMember (items.map receiptMember)
        (items.map fun item => (some item.1, item.2)) := by
    intro items
    induction items with
    | nil =>
      intro _
      exact .nil
    | cons item items ih =>
      intro hitems
      rw [List.forall_mem_cons] at hitems
      obtain ⟨⟨value, hvalue, hkey⟩, hrest⟩ := hitems
      refine .cons ⟨item.1, asciiText value, receiptMember_eq hvalue hkey, rfl, ?_⟩ (ih hrest)
      show Scans _ item.2
      rw [hvalue]
      exact scans_asciiText value
  have hscans := @scans_object _ 0 _ _ (hmembers receipt h.items)
  rw [dictValue, dictOf_sorted h.sorted, ← receiptText_eq] at hscans
  have hloads := @Scans.loads _ _ hscans [] [] rfl rfl
  rw [List.nil_append, List.append_nil] at hloads
  exact hloads

theorem length_encode_printable {text : List Char} (h : ∀ c ∈ text, printable c = true) :
    (Utf8.encode text).length = text.length := by
  induction text with
  | nil => rfl
  | cons c text ih =>
    rw [List.forall_mem_cons] at h
    have hascii : c.toNat < 128 := by
      have hc := h.1
      simp only [printable, Bool.and_eq_true, decide_eq_true_eq] at hc
      omega
    rw [Utf8.encode_cons, List.length_append, Utf8.utf8EncodeChar_ascii hascii, ih h.2,
      List.length_singleton, List.length_cons]
    omega

/-! ## The length of a line -/

/-- The characters of an item in the line, with its separators. -/
def itemLength (key value : String) : Nat := (asciiText key).length + (asciiText value).length + 4

/-- The characters of the line of a receipt with these items. -/
def lineLength (items : List (String × String)) : Nat :=
  (items.map fun item => itemLength item.1 item.2).sum

theorem length_intercalate_add {α : Type} (sep : List α) {texts : List (List α)} (hne : texts ≠ []) :
    (List.intercalate sep texts).length + sep.length =
      (texts.map fun text => text.length + sep.length).sum := by
  induction texts with
  | nil => exact absurd rfl hne
  | cons text texts ih =>
    cases texts with
    | nil => simp [List.intercalate]
    | cons next texts =>
      have ih := ih (List.cons_ne_nil next texts)
      unfold List.intercalate at ih ⊢
      rw [List.intersperse_cons_cons, List.flatten_cons, List.flatten_cons, List.length_append,
        List.length_append, List.map_cons, List.sum_cons]
      omega

theorem length_receiptText (hne : receipt ≠ []) : (receiptText receipt).length =
    (receipt.map fun item => itemLength item.1 ((getText [item] item.1).getD "")).sum := by
  have hmembers : receipt.map receiptMember ≠ [] := by
    rw [ne_eq, List.map_eq_nil_iff]
    exact hne
  have hlength := length_intercalate_add [',', ' '] hmembers
  rw [List.map_map] at hlength
  have hsum : (receipt.map ((fun text => text.length + [',', ' '].length) ∘ receiptMember)) =
      receipt.map fun item => itemLength item.1 ((getText [item] item.1).getD "") := by
    refine List.map_congr_left fun item _ => ?_
    simp only [Function.comp_apply, receiptMember, itemLength, List.length_append, List.length_cons,
      List.length_nil]
    omega
  rw [hsum] at hlength
  unfold receiptText
  rw [List.cons_append, List.length_cons, List.length_append, List.length_singleton]
  simp only [List.length_cons, List.length_nil] at hlength
  omega

theorem le_sum_of_mem {n : Nat} {ns : List Nat} (h : n ∈ ns) : n ≤ ns.sum := by
  induction ns with
  | nil => cases h
  | cons m ns ih =>
    rw [List.sum_cons]
    rcases List.mem_cons.mp h with rfl | h
    · omega
    · have hle := ih h
      omega

theorem length_value_le {item : String × Value} {value : String} (hitem : item ∈ receipt)
    (hvalue : item.2 = .str value) : value.toList.length ≤ (receiptText receipt).length := by
  have hne : receipt ≠ [] := List.ne_nil_of_mem hitem
  have htext : (getText [item] item.1).getD "" = value := by
    obtain ⟨key, v⟩ := item
    simp only at hvalue
    subst hvalue
    simp [getText]
  have hmem : itemLength item.1 ((getText [item] item.1).getD "") ∈
      receipt.map fun item => itemLength item.1 ((getText [item] item.1).getD "") := by
    rw [List.mem_map]
    exact ⟨item, hitem, rfl⟩
  have hle := le_sum_of_mem hmem
  rw [← length_receiptText hne, htext] at hle
  have hvalue := length_le_asciiText value
  unfold itemLength at hle
  omega

/-- The items of a dict of texts with distinct keys. -/
theorem textDict_perm {items : List (String × String)} (hnodup : (items.map Prod.fst).Nodup) :
    (textDict items).Perm (items.map fun item => (item.1, .str item.2)) := by
  have hset : ∀ (key : String) (value : Value) (d : Dict), key ∉ d.map Prod.fst →
      (setItem key value d).Perm ((key, value) :: d) := by
    intro key value d hkey
    induction d with
    | nil => exact List.Perm.refl _
    | cons item d ih =>
      obtain ⟨k, v⟩ := item
      rw [List.map_cons, List.mem_cons, not_or] at hkey
      rw [setItem]
      split_ifs with hlt heq
      · exact List.Perm.refl _
      · exact absurd heq hkey.1
      · exact ((ih hkey.2).cons _).trans (List.Perm.swap _ _ _)
  have hfold : ∀ d : Dict, (∀ item ∈ items, item.1 ∉ d.map Prod.fst) →
      (items.foldl (fun d item => setItem item.1 (.str item.2) d) d).Perm
        (items.map (fun item => (item.1, .str item.2)) ++ d) := by
    induction items with
    | nil =>
      intro d _
      exact List.Perm.refl _
    | cons item items ih =>
      intro d hd
      rw [List.map_cons, List.nodup_cons] at hnodup
      rw [List.forall_mem_cons] at hd
      have hnext := hset item.1 (.str item.2) d hd.1
      rw [List.foldl_cons, List.map_cons, List.cons_append]
      refine (ih hnodup.2 _ fun other hother => ?_).trans ?_
      · rw [(hnext.map Prod.fst).mem_iff, List.map_cons, List.mem_cons, not_or]
        refine ⟨fun heq => hnodup.1 ?_, hd.2 other hother⟩
        rw [← show other.1 = item.1 from heq]
        exact List.mem_map_of_mem hother
      · exact (hnext.append_left _).trans List.perm_middle
  have hall := hfold [] fun _ _ h => absurd h List.not_mem_nil
  rw [List.append_nil] at hall
  exact hall

theorem length_textDict {items : List (String × String)} (hnodup : (items.map Prod.fst).Nodup)
    (hne : items ≠ []) : (receiptText (textDict items)).length = lineLength items := by
  have hperm := textDict_perm hnodup
  have hdict : textDict items ≠ [] := by
    intro hnil
    rw [hnil] at hperm
    exact hne (List.map_eq_nil_iff.mp hperm.nil_eq.symm)
  rw [length_receiptText hdict, (hperm.map _).sum_nat, List.map_map]
  unfold lineLength
  refine congrArg List.sum (List.map_congr_left fun item _ => ?_)
  simp [getText]

/-- The line of a receipt is read exactly when it is short enough. -/
theorem readReceipt_receiptText (h : Textual receipt)
    (hkeys : ∀ item ∈ receipt, item.1 ∉ ["content", "body", "exception", "traceback"] ∧
      item.1.toList.length ≤ 128) :
    readReceipt (receiptText receipt) = .ok receipt ↔
      (receiptText receipt).length ≤ maxHistoryLineBytes := by
  have hbytes : (Utf8.encode (receiptText receipt)).length = (receiptText receipt).length :=
    length_encode_printable fun c hc => printable_receiptText hc
  unfold readReceipt
  rw [hbytes]
  constructor
  · intro hread
    obtain ⟨⟨⟩, hshort, -⟩ := bind_eq_ok.mp hread
    have hshort := raiseIf_eq_ok.mp hshort
    omega
  · intro hsize
    have haccepted : receipt.any refusedItem = false := by
      rw [List.any_eq_false]
      intro item hitem
      obtain ⟨value, hvalue, -⟩ := h.items item hitem
      have hvalues := length_value_le hitem hvalue
      obtain ⟨hname, hlength⟩ := hkeys item hitem
      unfold refusedItem
      rw [hvalue]
      simp only [Bool.or_eq_true, decide_eq_true_eq, not_or]
      exact ⟨⟨hname, by omega⟩, by omega⟩
    refine bind_eq_ok.mpr ⟨⟨⟩, raiseIf_eq_ok.mpr (by omega), ?_⟩
    rw [loads_receiptText h]
    refine bind_eq_ok.mpr ⟨⟨⟩, raiseIf_eq_ok.mpr ?_, rfl⟩
    rw [haccepted]
    decide

end PowerFramework.Memory
