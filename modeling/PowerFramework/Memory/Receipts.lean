import PowerFramework.Lib.JsonRoundTrip
import PowerFramework.Lib.JsonSize
import PowerFramework.Memory.Commit
/-!
# Receipts

A receipt of printable texts is one line of the history, which is read back as the receipt.
-/

namespace PowerFramework.Memory

open Lib Lib.Failure Lib.Json Lib.Text
open Lib.JsonText (asciiChar asciiText unicodeEscape)

variable {receipt : Dict} {files : Files}

/-! ## The line of a receipt -/

/-- The receipt is in the order of its keys, and its keys and texts are printable ASCII. -/
structure Printable (receipt : Dict) : Prop where
  sorted : sortedKeys receipt = true
  items : ∀ item ∈ receipt, ∃ value, item.2 = .str value ∧
    (∀ c ∈ item.1.toList, printable c = true) ∧ ∀ c ∈ value.toList, printable c = true

theorem asciiText_eq_dumpsStr {text : String} (h : ∀ c ∈ text.toList, printable c = true) :
    asciiText text = dumpsStr text := by
  have hchars : text.toList.flatMap asciiChar = text.toList.flatMap JsonText.escapeChar := by
    refine List.flatMap_congr fun c hc => ?_
    have hc := h c hc
    simp only [printable, Bool.and_eq_true, decide_eq_true_eq] at hc
    unfold asciiChar
    rw [if_pos hc.2]
  unfold asciiText dumpsStr
  rw [hchars]

theorem join_spaced {sortKeys : Bool} {depth : Nat} (texts : List (List Char)) :
    (Layout.spaced sortKeys).join depth texts = List.intercalate [',', ' '] texts := by
  induction texts with
  | nil => rfl
  | cons text texts ih =>
    cases texts with
    | nil => simp [Layout.join, List.intercalate]
    | cons next texts =>
      rw [Layout.join, ih]
      · simp [List.intercalate, Layout.spaced]
      · simp

/-- One item of a receipt as it is written. -/
def receiptMember (item : String × Value) : List Char :=
  asciiText item.1 ++ ':' :: ' ' :: asciiText ((getText [item] item.1).getD "")

theorem receiptLine_eq (receipt : Dict) : receiptLine receipt = String.ofList
    ('{' :: List.intercalate [',', ' '] (receipt.map receiptMember) ++ ['}', '\n']) := rfl

theorem writeDict_receipt {depth : Nat} (h : ∀ item ∈ receipt, ∃ value, item.2 = .str value ∧
      (∀ c ∈ item.1.toList, printable c = true) ∧ ∀ c ∈ value.toList, printable c = true) :
    (Layout.spaced true).writeDict depth receipt = .ok (receipt.map receiptMember) := by
  induction receipt with
  | nil => rfl
  | cons item receipt ih =>
    rw [List.forall_mem_cons] at h
    obtain ⟨⟨value, hvalue, hkey, hchars⟩, hrest⟩ := h
    obtain ⟨key, v⟩ := item
    simp only at hvalue hkey
    subst hvalue
    have hmember : receiptMember (key, .str value) =
        (Layout.spaced true).member key (dumpsStr value) := by
      unfold receiptMember Layout.member
      rw [asciiText_eq_dumpsStr hkey]
      simp [getText, asciiText_eq_dumpsStr hchars, Layout.spaced]
    rw [Layout.writeDict, ih hrest, List.map_cons, hmember]
    rfl

/-- The line is the JSON text of the receipt. -/
theorem write_receipt (h : Printable receipt) (hne : receipt ≠ []) :
    ∃ text, (Layout.spaced true).write 0 (.dict receipt) = .ok text ∧
      receiptLine receipt = String.ofList (text ++ ['\n']) := by
  have hmembers : receipt.map receiptMember ≠ [] := by
    rw [ne_eq, List.map_eq_nil_iff]
    exact hne
  refine ⟨(Layout.spaced true).bracket 0 '{' '}' (receipt.map receiptMember), ?_, ?_⟩
  · rw [Layout.write, writeDict_receipt h.items]
    rfl
  · rw [receiptLine_eq, Layout.bracket, if_neg hmembers, join_spaced]
    simp [Layout.spaced]

theorem plain_receipt (h : Printable receipt) : Plain (.dict receipt) := by
  refine plain_dict.mpr ⟨h.sorted, fun item hitem => ?_⟩
  obtain ⟨value, hvalue, -⟩ := h.items item hitem
  rw [hvalue]
  exact ⟨rfl, rfl⟩

theorem asJson_receipt (h : Printable receipt) : (Value.dict receipt).asJson = .dict receipt := by
  obtain ⟨hnative, hordered⟩ := plain_receipt h
  refine asJson_of_plain _ hnative hordered ?_
  unfold Value.readFloats
  rw [Value.everywhere, Bool.true_and, everywhereDict_iff]
  intro item hitem
  obtain ⟨value, hvalue, -⟩ := h.items item hitem
  rw [hvalue]
  rfl

/-! ## Reading it -/

theorem isBoundary_of_printable {c : Char} (h : printable c = true) :
    Splitlines.isBoundary c = false := by
  simp only [printable, Bool.and_eq_true, decide_eq_true_eq] at h
  simp only [Splitlines.isBoundary, Bool.or_eq_false_iff, Bool.and_eq_false_iff,
    decide_eq_false_iff_not, beq_eq_false_iff_ne]
  omega

theorem printable_write (h : Printable receipt) {text : List Char}
    (htext : (Layout.spaced true).write 0 (.dict receipt) = .ok text) :
    ∀ c ∈ text, printable c = true := by
  have hchars : ∀ items : Dict, (∀ item ∈ items, ∃ value, item.2 = .str value ∧
      (∀ c ∈ item.1.toList, printable c = true) ∧ ∀ c ∈ value.toList, printable c = true) →
        ∀ c ∈ charsDict items, printable c = true := by
    intro items
    induction items with
    | nil =>
      intro _ c hc
      cases hc
    | cons item items ih =>
      intro hitems c hc
      rw [List.forall_mem_cons] at hitems
      obtain ⟨⟨value, hvalue, hkey, hvalues⟩, hrest⟩ := hitems
      obtain ⟨key, v⟩ := item
      simp only at hvalue hkey
      subst hvalue
      simp only [charsDict, Value.chars, List.mem_append] at hc
      rcases hc with hc | hc | hc
      · exact hkey c hc
      · exact hvalues c hc
      · exact ih hrest c hc
  intro c hc
  rcases printed_write _ _ htext c hc with hprint | ⟨hmem, -⟩ | hblank
  · exact hprint
  · exact hchars receipt h.items c hmem
  · rw [blank_spaced hblank]
    decide

/-- The line of a receipt is read as the receipt. -/
theorem readReceipt_line (h : Printable receipt) {text : List Char}
    (htext : (Layout.spaced true).write 0 (.dict receipt) = .ok text)
    (hsize : (Utf8.encode text).length ≤ maxHistoryLineBytes)
    (hitems : ∀ item ∈ receipt, refusedItem item = false) : readReceipt text = .ok receipt := by
  have hloads : loads text = some (.dict receipt) := by
    rw [loads_write htext, asJson_receipt h]
  have hnone : receipt.any refusedItem = false := by
    rw [List.any_eq_false]
    intro item hitem
    rw [hitems item hitem]
    decide
  unfold readReceipt
  rw [hloads]
  simp only [hnone]
  have hshort : raiseIf (maxHistoryLineBytes < (Utf8.encode text).length)
      (runtimeError "memory history contains an oversized receipt") = .ok () :=
    raiseIf_eq_ok.mpr (by omega)
  rw [hshort]
  rfl

/-- A history of one line is read as its receipt. -/
theorem readHistory_line (h : Printable receipt) (hne : receipt ≠ [])
    (hfile : files historyPath = some (encodeText (receiptLine receipt)))
    (hsize : (encodeText (receiptLine receipt)).length ≤ maxHistoryLineBytes)
    (hitems : ∀ item ∈ receipt, refusedItem item = false) : readHistory files = .ok [receipt] := by
  obtain ⟨text, htext, hline⟩ := write_receipt h hne
  have hprintable := printable_write h htext
  rw [hline] at hfile hsize
  have hread : readReceipt text = .ok receipt := by
    refine readReceipt_line h htext ?_ hitems
    rw [encodeText, String.toList_ofList, Utf8.encode_append, List.length_append] at hsize
    omega
  have hdecoded : decodeText (encodeText (String.ofList (text ++ ['\n']))) =
      .ok (String.ofList (text ++ ['\n'])) := by
    refine decodeText_eq_ok.mpr ⟨text ++ ['\n'], ?_, ?_⟩
    · rw [encodeText, String.toList_ofList]
    · rw [Newlines.translate_of_notMem]
      intro hcr
      rcases List.mem_append.mp hcr with hcr | hcr
      · exact absurd (hprintable _ hcr) (by decide)
      · exact absurd hcr (by decide)
  have hlines : (Splitlines.splitlines (text ++ ['\n'])).filter (fun line => !line.isEmpty) =
      [text] := by
    rw [Splitlines.splitlines_line fun c hc => isBoundary_of_printable (hprintable c hc)]
    have hempty : text.isEmpty = false := by
      cases text with
      | nil =>
        have hloads := loads_write htext
        rw [asJson_receipt h] at hloads
        cases hloads
      | cons c text => rfl
    simp [hempty]
  have hshort : raiseIf (maxHistoryBytes < (encodeText (String.ofList (text ++ ['\n']))).length)
      (runtimeError "memory history exceeds its bounded receipt size") = .ok () := by
    refine raiseIf_eq_ok.mpr ?_
    unfold maxHistoryLineBytes at hsize
    unfold maxHistoryBytes
    omega
  have hrecords : ((Splitlines.splitlines (String.ofList (text ++ ['\n'])).toList).filter
      fun line => !line.isEmpty).mapM readReceipt = .ok [receipt] := by
    rw [String.toList_ofList, hlines, List.mapM_cons, hread]
    rfl
  unfold readHistory
  rw [hfile]
  refine bind_eq_ok.mpr ⟨⟨⟩, hshort, bind_eq_ok.mpr ⟨_, ?_, hrecords⟩⟩
  rw [hdecoded]
  rfl

/-! ## Receipts of texts -/

theorem mem_textDict {items : List (String × String)} {item : String × Value}
    (h : item ∈ textDict items) : ∃ pair ∈ items, item = (pair.1, .str pair.2) := by
  have hfold : ∀ d : Dict, item ∈ items.foldl (fun d item => setItem item.1 (.str item.2) d) d →
      item ∈ d ∨ ∃ pair ∈ items, item = (pair.1, .str pair.2) := by
    clear h
    induction items with
    | nil =>
      intro d h
      exact .inl h
    | cons pair items ih =>
      intro d h
      rcases ih _ h with h | ⟨other, hother, heq⟩
      · rcases mem_setItem h with heq | hmem
        · exact .inr ⟨pair, List.mem_cons_self, heq⟩
        · exact .inl hmem
      · exact .inr ⟨other, List.mem_cons_of_mem _ hother, heq⟩
  rcases hfold [] h with hmem | hpair
  · cases hmem
  · exact hpair

theorem sortedKeys_textDict (items : List (String × String)) : sortedKeys (textDict items) = true := by
  have h : ∀ d : Dict, sortedKeys d = true →
      sortedKeys (items.foldl (fun d item => setItem item.1 (.str item.2) d) d) = true := by
    induction items with
    | nil =>
      intro d hd
      exact hd
    | cons item items ih =>
      intro d hd
      exact ih _ (sortedKeys_setItem hd)
  exact h [] rfl

/-- An item that a receipt may have. -/
structure Allowed (item : String × String) : Prop where
  key : ∀ c ∈ item.1.toList, printable c = true
  value : ∀ c ∈ item.2.toList, printable c = true
  accepted : refusedItem (item.1, .str item.2) = false

theorem printable_textDict {items : List (String × String)} (h : ∀ item ∈ items, Allowed item) :
    Printable (textDict items) := by
  refine ⟨sortedKeys_textDict items, fun item hitem => ?_⟩
  obtain ⟨pair, hpair, rfl⟩ := mem_textDict hitem
  exact ⟨pair.2, rfl, (h pair hpair).key, (h pair hpair).value⟩

theorem accepted_textDict {items : List (String × String)} (h : ∀ item ∈ items, Allowed item) :
    ∀ item ∈ textDict items, refusedItem item = false := by
  intro item hitem
  obtain ⟨pair, hpair, rfl⟩ := mem_textDict hitem
  exact (h pair hpair).accepted

/-- A digest may be in a receipt. -/
theorem allowed_digest {key : String} (hkey : ∀ c ∈ key.toList, printable c = true)
    (hname : key ∉ ["content", "body", "exception", "traceback"]) (hshort : key.toList.length ≤ 128)
    (message : List UInt8) : Allowed (key, Sha256.hexdigest message) where
  key := hkey
  value c hc := by
    have hdigit := Sha256.isHexDigit_of_mem_hexdigest hc
    simp only [Sha256.isHexDigit, Bool.or_eq_true, Bool.and_eq_true, decide_eq_true_eq] at hdigit
    simp only [printable, Bool.and_eq_true, decide_eq_true_eq]
    omega
  accepted := by
    have hlength := Sha256.length_hexdigest message
    simp only [refusedItem, Bool.or_eq_false_iff, decide_eq_false_iff_not]
    refine ⟨⟨hname, by omega⟩, ?_⟩
    unfold maxHistoryLineBytes
    omega

/-! ## The length of a receipt -/

theorem length_asciiChar_le (c : Char) : (asciiChar c).length ≤ 12 := by
  unfold asciiChar unicodeEscape
  split_ifs
  · have h := length_escapeChar_le c
    omega
  · simp
  · simp

theorem length_asciiText_le (text : String) :
    (asciiText text).length ≤ 12 * text.toList.length + 2 := by
  have h : ∀ chars : List Char, (chars.flatMap asciiChar).length ≤ 12 * chars.length := by
    intro chars
    induction chars with
    | nil => exact Nat.le_refl 0
    | cons c chars ih =>
      have hc := length_asciiChar_le c
      rw [List.flatMap_cons, List.length_append, List.length_cons]
      omega
  have htext := h text.toList
  unfold asciiText
  rw [List.cons_append, List.length_cons, List.length_append, List.length_singleton]
  omega

theorem length_intercalate_le (sep : List Char) (texts : List (List Char)) :
    (List.intercalate sep texts).length ≤ (texts.map fun text => text.length + sep.length).sum := by
  induction texts with
  | nil => exact Nat.le_refl 0
  | cons text texts ih =>
    cases texts with
    | nil => simp [List.intercalate]
    | cons next texts =>
      unfold List.intercalate at ih ⊢
      rw [List.intersperse_cons_cons, List.flatten_cons, List.flatten_cons, List.length_append,
        List.length_append, List.map_cons, List.sum_cons]
      omega

/-- The characters of the keys and texts of a receipt, and one for each item. -/
def receiptSize (receipt : Dict) : Nat :=
  (receipt.map fun item =>
    item.1.toList.length + ((getText [item] item.1).getD "").toList.length + 1).sum

theorem length_receiptLine_le (receipt : Dict) :
    (receiptLine receipt).toList.length ≤ 12 * receiptSize receipt + 3 := by
  have hmembers : ∀ items : Dict, ((items.map fun item => asciiText item.1 ++ ':' :: ' ' ::
      asciiText ((getText [item] item.1).getD "")).map fun text => text.length + 2).sum ≤
        12 * receiptSize items := by
    intro items
    induction items with
    | nil => exact Nat.le_refl 0
    | cons item items ih =>
      have hkey := length_asciiText_le item.1
      have hvalue := length_asciiText_le ((getText [item] item.1).getD "")
      simp only [List.map_cons, List.sum_cons, receiptSize, List.length_append,
        List.length_cons] at ih ⊢
      omega
  have hline := length_intercalate_le [',', ' '] (receipt.map fun item => asciiText item.1 ++
    ':' :: ' ' :: asciiText ((getText [item] item.1).getD ""))
  have hmembers := hmembers receipt
  unfold receiptLine
  rw [String.toList_ofList, List.cons_append, List.length_cons, List.length_append]
  simp only [List.length_cons, List.length_nil, Nat.zero_add, Nat.reduceAdd] at hline ⊢
  omega

theorem receiptSize_setItem (key value : String) (receipt : Dict) :
    receiptSize (setItem key (.str value) receipt) ≤
      receiptSize receipt + (key.toList.length + value.toList.length + 1) := by
  have hnew : ∀ items : Dict, receiptSize ((key, .str value) :: items) =
      key.toList.length + value.toList.length + 1 + receiptSize items := by
    intro items
    simp [receiptSize, getText]
  induction receipt with
  | nil =>
    rw [setItem, hnew]
    omega
  | cons item receipt ih =>
    obtain ⟨k, v⟩ := item
    rw [setItem]
    split_ifs
    · rw [hnew]
      omega
    · rw [hnew]
      simp only [receiptSize, List.map_cons, List.sum_cons]
      omega
    · simp only [receiptSize, List.map_cons, List.sum_cons] at ih ⊢
      omega

theorem receiptSize_textDict (items : List (String × String)) :
    receiptSize (textDict items) ≤
      (items.map fun item => item.1.toList.length + item.2.toList.length + 1).sum := by
  have h : ∀ d : Dict, receiptSize (items.foldl (fun d item => setItem item.1 (.str item.2) d) d) ≤
      receiptSize d +
        (items.map fun item => item.1.toList.length + item.2.toList.length + 1).sum := by
    induction items with
    | nil =>
      intro d
      exact Nat.le_refl _
    | cons item items ih =>
      intro d
      have hset := receiptSize_setItem item.1 item.2 d
      have hrest := ih (setItem item.1 (.str item.2) d)
      rw [List.foldl_cons, List.map_cons, List.sum_cons]
      omega
  have hall := h []
  have hnil : receiptSize [] = 0 := rfl
  unfold textDict
  omega

end PowerFramework.Memory
