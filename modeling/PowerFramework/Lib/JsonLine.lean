import Mathlib.Tactic.IntervalCases
import PowerFramework.Lib.JsonPrint
/-!
# The characters of a JSON text

Beside the blanks of its layout and printable ASCII a text has the characters of the value's own
strings, and of these no control character.  So a text without line feeds between its items is
one line, and a character beyond ASCII is in it exactly when it is in the value.
-/

namespace PowerFramework.Lib.Json

open Failure JsonNumber JsonText

/-! ## Numbers -/

/-- Only characters that a number consists of. -/
def Numeric (text : List Char) : Prop := ∀ c ∈ text, endsNumber c = false

theorem Numeric.nil : Numeric [] := by simp [Numeric]

theorem numeric_cons {c : Char} {text : List Char} :
    Numeric (c :: text) ↔ endsNumber c = false ∧ Numeric text := List.forall_mem_cons

theorem numeric_append {a b : List Char} : Numeric (a ++ b) ↔ Numeric a ∧ Numeric b :=
  List.forall_mem_append

theorem numeric_of_isDigit {text : List Char} (h : ∀ c ∈ text, c.isDigit = true) :
    Numeric text := fun c hc => by simp [endsNumber, h c hc]

/-- What a scanner took belongs to a number, in front of what it left. -/
def Took {β : Type} (text : List Char) (scanned : β × List Char) : Prop :=
  ∃ taken, text = taken ++ scanned.2 ∧ Numeric taken

theorem Took.cons {β : Type} {c : Char} {text : List Char} {scanned : β × List Char}
    (hc : endsNumber c = false) (h : Took text scanned) : Took (c :: text) scanned := by
  obtain ⟨taken, rfl, htaken⟩ := h
  exact ⟨c :: taken, rfl, numeric_cons.mpr ⟨hc, htaken⟩⟩

theorem took_scanDigits {text : List Char} {scanned : List Char × List Char}
    (h : scanDigits text = some scanned) : Took text scanned := by
  rw [scanDigits] at h
  split_ifs at h
  obtain rfl := Option.some.inj h
  refine ⟨text.takeWhile Char.isDigit, List.takeWhile_append_dropWhile.symm, ?_⟩
  exact numeric_of_isDigit fun c hc => List.mem_takeWhile_imp hc

theorem took_scanFraction {text : List Char} {scanned : List Char × List Char}
    (h : scanFraction text = some scanned) : Took text scanned := by
  cases text with
  | nil => cases h
  | cons c rest =>
      rw [scanFraction] at h
      split_ifs at h with hc
      subst hc
      exact (took_scanDigits h).cons (by decide)

theorem took_scanExponent {text : List Char} {scanned : Int × List Char}
    (h : scanExponent text = some scanned) : Took text scanned := by
  cases text with
  | nil => cases h
  | cons c rest =>
      rw [scanExponent] at h
      split_ifs at h with hc
      have hle : endsNumber c = false := by
        rcases hc with rfl | rfl <;> decide
      refine Took.cons hle ?_
      obtain ⟨⟨digits, rest'⟩, hdigits, rfl⟩ := Option.map_eq_some_iff.mp h
      obtain ⟨taken, htext, htaken⟩ := took_scanDigits hdigits
      cases rest with
      | nil => exact ⟨taken, htext, htaken⟩
      | cons d rest =>
          simp only at htext
          split_ifs at htext with hminus hplus
          · subst hminus
            exact Took.cons (by decide) ⟨taken, htext, htaken⟩
          · subst hplus
            exact Took.cons (by decide) ⟨taken, htext, htaken⟩
          · exact ⟨taken, htext, htaken⟩

theorem took_scanInt {text : List Char} {scanned : List Char × List Char}
    (h : scanInt text = some scanned) : Took text scanned := by
  cases text with
  | nil => cases h
  | cons c rest =>
      rw [scanInt] at h
      split_ifs at h with hzero hdigit
      · obtain rfl := Option.some.inj h
        subst hzero
        exact ⟨['0'], rfl, numeric_cons.mpr ⟨by decide, Numeric.nil⟩⟩
      · obtain rfl := Option.some.inj h
        refine ⟨c :: rest.takeWhile Char.isDigit, ?_, ?_⟩
        · rw [List.cons_append, List.takeWhile_append_dropWhile]
        · apply numeric_of_isDigit
          rw [List.forall_mem_cons]
          exact ⟨hdigit, fun c hc => List.mem_takeWhile_imp hc⟩

theorem took_option {β : Type} (text : List Char) {scan : Option (β × List Char)}
    (h : ∀ scanned, scan = some scanned → Took text scanned) :
    ∃ taken, text = taken ++ (scan.map Prod.snd).getD text ∧ Numeric taken := by
  cases scan with
  | none => exact ⟨[], rfl, Numeric.nil⟩
  | some scanned => exact h scanned rfl

theorem took_scanNumber {text : List Char} {scanned : Number × List Char}
    (h : scanNumber text = some scanned) : Took text scanned := by
  have hsign : Took text (scanSign text) := by
    unfold scanSign
    split
    · exact ⟨['-'], rfl, numeric_cons.mpr ⟨by decide, Numeric.nil⟩⟩
    · exact ⟨[], rfl, Numeric.nil⟩
  obtain ⟨minus, htext, hminus⟩ := hsign
  rw [scanNumber] at h
  obtain ⟨⟨whole, rest⟩, hint, rfl⟩ := Option.map_eq_some_iff.mp h
  obtain ⟨digits, hdigits, hdigits'⟩ := took_scanInt hint
  obtain ⟨fraction, hfraction, hfraction'⟩ := took_option rest
    (fun _ => took_scanFraction)
  obtain ⟨exponent, hexponent, hexponent'⟩ := took_option
    (((scanFraction rest).map Prod.snd).getD rest) (fun _ => took_scanExponent)
  refine ⟨minus ++ (digits ++ (fraction ++ exponent)), ?_, ?_⟩
  · calc text = minus ++ (digits ++ rest) := by rw [← hdigits]; exact htext
      _ = minus ++ (digits ++ (fraction ++ ((scanFraction rest).map Prod.snd).getD rest)) := by
        rw [← hfraction]
      _ = _ := by
        rw [hexponent]
        simp only [List.append_assoc]
  · simp only [numeric_append]
    exact ⟨hminus, hdigits', hfraction', hexponent'⟩

theorem numeric_of_scanNumber {text : List Char} {number : Number}
    (h : scanNumber text = some (number, [])) : Numeric text := by
  obtain ⟨taken, rfl, htaken⟩ := took_scanNumber h
  simpa using htaken

theorem numeric_dumpsInt {n : Int} {text : List Char} (h : dumpsInt n = .ok text) :
    Numeric text := by
  simp only [dumpsInt, bind_eq_ok, pure, Except.pure, Except.ok.injEq] at h
  obtain ⟨-, -, rfl⟩ := h
  have hscan := scanNumber_intText numberEnd_nil n
  rw [List.append_nil] at hscan
  exact numeric_of_scanNumber hscan

theorem numeric_floatText {x : Double} (h : x.isFinite = true) : Numeric (floatText x) := by
  have hscan := scanNumber_floatText numberEnd_nil h
  rw [List.append_nil] at hscan
  exact numeric_of_scanNumber hscan

/-- `c` is printable ASCII. -/
def printable (c : Char) : Bool := 32 ≤ c.toNat && c.toNat < 127

theorem printable_of_numeric {c : Char} (h : endsNumber c = false) : printable c = true := by
  simp only [endsNumber, Bool.not_eq_false', Bool.or_eq_true, beq_iff_eq] at h
  rcases h with ((((h | rfl) | rfl) | rfl) | rfl) | rfl
  · simp only [Char.isDigit, Bool.and_eq_true, decide_eq_true_eq, ge_iff_le,
      UInt32.le_iff_toNat_le] at h
    have hval : c.val.toNat = c.toNat := rfl
    have h48 : ('0' : Char).val.toNat = 48 := rfl
    have h57 : ('9' : Char).val.toNat = 57 := rfl
    simp only [printable, Bool.and_eq_true, decide_eq_true_eq]
    omega
  all_goals decide

/-! ## Texts -/

/-- `c` is one of the blanks of the layout. -/
def Layout.Blank (l : Layout) (c : Char) : Prop :=
  c ∈ l.colon ∨ ∃ depth, c ∈ l.opening depth ∨ c ∈ l.comma depth ∨ c ∈ l.closing depth

/-- A text of printable ASCII, blanks of the layout, and characters among `chars` that are no
controls. -/
def Layout.Printed (l : Layout) (chars text : List Char) : Prop :=
  ∀ c ∈ text, printable c = true ∨ (c ∈ chars ∧ 32 ≤ c.toNat) ∨ l.Blank c

section
variable {l : Layout} {chars : List Char}

theorem Layout.printed_nil : l.Printed chars [] := by simp [Layout.Printed]

theorem Layout.printed_cons {c : Char} {text : List Char} (hc : printable c = true)
    (h : l.Printed chars text) : l.Printed chars (c :: text) :=
  List.forall_mem_cons.mpr ⟨Or.inl hc, h⟩

theorem Layout.printed_append {a b : List Char} :
    l.Printed chars (a ++ b) ↔ l.Printed chars a ∧ l.Printed chars b :=
  List.forall_mem_append

theorem Layout.printed_blank {text : List Char} (h : ∀ c ∈ text, l.Blank c) :
    l.Printed chars text := fun c hc => Or.inr (Or.inr (h c hc))

theorem Layout.printed_numeric {text : List Char} (h : Numeric text) : l.Printed chars text :=
  fun c hc => Or.inl (printable_of_numeric (h c hc))

theorem Layout.Printed.mono {text more : List Char} (h : l.Printed chars text)
    (hsub : chars ⊆ more) : l.Printed more text := by
  intro c hc
  rcases h c hc with hprint | ⟨hmem, hcontrol⟩ | hblank
  · exact Or.inl hprint
  · exact Or.inr (Or.inl ⟨hsub hmem, hcontrol⟩)
  · exact Or.inr (Or.inr hblank)

/-- A character is escaped, unless it is no control character, quote or backslash. -/
theorem escapeChar_cases (c : Char) :
    (escapeChar c = [c] ∧ 32 ≤ c.toNat) ∨
      (c.toNat < 128 ∧ ∀ d ∈ escapeChar c, printable d = true) := by
  unfold escapeChar
  split_ifs with h1 h2 h3 h4 h5 h6 h7 h8
  · subst h1
    exact Or.inr (by decide)
  · subst h2
    exact Or.inr (by decide)
  · subst h3
    exact Or.inr (by decide)
  · subst h4
    exact Or.inr (by decide)
  · subst h5
    exact Or.inr (by decide)
  · exact Or.inr ⟨by omega, by decide⟩
  · exact Or.inr ⟨by omega, by decide⟩
  · have hdigit : ∀ d < 16, printable (hexDigit d) = true := by
      intro d hd
      interval_cases d <;> decide
    refine Or.inr ⟨by omega, ?_⟩
    simp only [List.forall_mem_cons]
    exact ⟨by decide, by decide, by decide, by decide, hdigit _ (by omega), hdigit _ (by omega),
      by simp⟩
  · exact Or.inl ⟨rfl, by omega⟩

theorem Layout.printed_dumpsStr (s : String) : l.Printed s.toList (dumpsStr s) := by
  rw [dumpsStr, List.cons_append]
  refine printed_cons (by decide) (printed_append.mpr ⟨fun c hc => ?_,
    printed_cons (by decide) printed_nil⟩)
  obtain ⟨d, hd, hc⟩ := List.mem_flatMap.mp hc
  rcases escapeChar_cases d with ⟨hsame, hcontrol⟩ | ⟨-, hprint⟩
  · rw [hsame, List.mem_singleton] at hc
    subst hc
    exact Or.inr (Or.inl ⟨hd, hcontrol⟩)
  · exact Or.inl (hprint c hc)

/-- A character beyond ASCII is written as it is. -/
theorem mem_dumpsStr {s : String} {c : Char} (hc : c ∈ s.toList) (hascii : 128 ≤ c.toNat) :
    c ∈ dumpsStr s := by
  rw [dumpsStr, List.cons_append]
  refine List.mem_cons_of_mem _ (List.mem_append_left _ (List.mem_flatMap.mpr ⟨c, hc, ?_⟩))
  rcases escapeChar_cases c with ⟨hsame, -⟩ | ⟨hlow, -⟩
  · rw [hsame]
    exact List.mem_singleton_self c
  · omega

theorem Layout.printed_member {key : String} {text : List Char}
    (hkey : key.toList ⊆ chars) (h : l.Printed chars text) :
    l.Printed chars (l.member key text) := by
  refine printed_append.mpr ⟨(printed_dumpsStr key).mono hkey, printed_cons (by decide) ?_⟩
  exact printed_append.mpr ⟨printed_blank fun c hc => Or.inl hc, h⟩

theorem Layout.printed_join {depth : Nat} {texts : List (List Char)}
    (h : ∀ text ∈ texts, l.Printed chars text) : l.Printed chars (l.join depth texts) := by
  induction texts with
  | nil => exact printed_nil
  | cons text texts ih =>
      rw [List.forall_mem_cons] at h
      cases texts with
      | nil => exact h.1
      | cons text' texts =>
          have hcomma : l.Printed chars (l.comma depth) :=
            printed_blank fun c hc => Or.inr ⟨depth, Or.inr (Or.inl hc)⟩
          exact printed_append.mpr ⟨h.1, printed_cons (by decide)
            (printed_append.mpr ⟨hcomma, ih h.2⟩)⟩

theorem Layout.printed_bracket {depth : Nat} {first last : Char} {texts : List (List Char)}
    (hfirst : printable first = true) (hlast : printable last = true)
    (h : ∀ text ∈ texts, l.Printed chars text) :
    l.Printed chars (l.bracket depth first last texts) := by
  rw [Layout.bracket]
  split_ifs
  · exact printed_cons hfirst (printed_cons hlast printed_nil)
  · have hopening : l.Printed chars (l.opening depth) :=
      printed_blank fun c hc => Or.inr ⟨depth, Or.inl hc⟩
    have hclosing : l.Printed chars (l.closing depth) :=
      printed_blank fun c hc => Or.inr ⟨depth, Or.inr (Or.inr hc)⟩
    refine printed_cons hfirst (printed_append.mpr ⟨hopening, printed_append.mpr
      ⟨printed_join h, printed_append.mpr ⟨hclosing, printed_cons hlast printed_nil⟩⟩⟩)

theorem Layout.mem_join {depth : Nat} {texts : List (List Char)} {text : List Char} {c : Char}
    (htext : text ∈ texts) (hc : c ∈ text) : c ∈ l.join depth texts := by
  induction texts with
  | nil => exact absurd htext List.not_mem_nil
  | cons first texts ih =>
      cases texts with
      | nil =>
          obtain rfl := List.mem_singleton.mp htext
          exact hc
      | cons text' texts =>
          rcases List.mem_cons.mp htext with rfl | htext
          · exact List.mem_append_left _ hc
          · exact List.mem_append_right _ (List.mem_cons_of_mem _
              (List.mem_append_right _ (ih htext)))

theorem Layout.mem_bracket {depth : Nat} {first last : Char} {texts : List (List Char)}
    {text : List Char} {c : Char} (htext : text ∈ texts) (hc : c ∈ text) :
    c ∈ l.bracket depth first last texts := by
  rw [Layout.bracket, if_neg (List.ne_nil_of_mem htext)]
  exact List.mem_cons_of_mem _ (List.mem_append_right _ (List.mem_append_left _
    (mem_join htext hc)))

theorem Layout.printed_specialText (x : Double) : l.Printed chars (specialText x) := by
  refine fun c hc => Or.inl ?_
  revert c
  rw [specialText]
  split_ifs <;> decide

theorem Layout.printed_writeFloat {x : Double} {text : List Char} (h : l.writeFloat x = .ok text) :
    l.Printed chars text := by
  rw [Layout.writeFloat] at h
  split_ifs at h with hfinite
  · obtain rfl := Except.ok.inj h
    exact printed_numeric (numeric_floatText hfinite)
  · obtain ⟨⟨⟩, -, h⟩ := bind_eq_ok.mp h
    obtain rfl := Except.ok.inj h
    exact printed_specialText x

/-- The text of a key consists of printable characters other than quotes and backslashes. -/
theorem Layout.keyText_chars {key : Key} {text : List Char} (h : l.keyText key = .ok text) :
    ∀ c ∈ text, printable c = true ∧ c ≠ '"' ∧ c ≠ '\\' := by
  have hnumeric : Numeric text → ∀ c ∈ text, printable c = true ∧ c ≠ '"' ∧ c ≠ '\\' := by
    intro h c hc
    refine ⟨printable_of_numeric (h c hc), ?_, ?_⟩
    · rintro rfl
      exact absurd (h _ hc) (by decide)
    · rintro rfl
      exact absurd (h _ hc) (by decide)
  cases key with
  | none =>
      obtain rfl := Except.ok.inj h
      decide
  | bool b =>
      obtain rfl := Except.ok.inj h
      cases b <;> decide
  | int n => exact hnumeric (numeric_dumpsInt h)
  | float x =>
      rw [Layout.keyText, Layout.writeFloat] at h
      split_ifs at h with hfinite
      · obtain rfl := Except.ok.inj h
        exact hnumeric (numeric_floatText hfinite)
      · obtain ⟨⟨⟩, -, h⟩ := bind_eq_ok.mp h
        obtain rfl := Except.ok.inj h
        rw [specialText]
        split_ifs <;> decide

theorem Layout.printed_keyText {key : Key} {text : List Char} (h : l.keyText key = .ok text) :
    l.Printed chars (dumpsStr (String.ofList text)) := by
  intro c hc
  rcases printed_dumpsStr (String.ofList text) c hc with hprint | ⟨hmem, -⟩ | hblank
  · exact Or.inl hprint
  · rw [String.toList_ofList] at hmem
    exact Or.inl (keyText_chars h c hmem).1
  · exact Or.inr (Or.inr hblank)

end

mutual

/-- The characters of a written value. -/
theorem printed_write (l : Layout) : ∀ (value : Value) {depth : Nat} {text : List Char},
    l.write depth value = .ok text → l.Printed value.chars text
  | .null, depth, text, h => by
      obtain rfl := Except.ok.inj h
      exact fun c hc => Or.inl (List.all_eq_true.mp (by decide : "null".toList.all printable = true) c hc)
  | .bool b, depth, text, h => by
      obtain rfl := Except.ok.inj h
      intro c hc
      refine Or.inl ?_
      revert c
      cases b <;> decide
  | .int n, depth, text, h => Layout.printed_numeric (numeric_dumpsInt h)
  | .float x, depth, text, h => Layout.printed_writeFloat h
  | .str s, depth, text, h => by
      obtain rfl := Except.ok.inj h
      exact Layout.printed_dumpsStr s
  | .list items, depth, text, h => by
      obtain ⟨texts, htexts, rfl⟩ := map_eq_ok.mp h
      exact Layout.printed_bracket (by decide) (by decide) (printed_writeList l items htexts)
  | .tuple items, depth, text, h => by
      obtain ⟨texts, htexts, rfl⟩ := map_eq_ok.mp h
      exact Layout.printed_bracket (by decide) (by decide) (printed_writeList l items htexts)
  | .dict items, depth, text, h => by
      obtain ⟨texts, htexts, rfl⟩ := map_eq_ok.mp h
      exact Layout.printed_bracket (by decide) (by decide) (printed_writeDict l items htexts)
  | .keyed key value rest, depth, text, h => by
      simp only [Layout.write, bind_eq_ok, pure, Except.pure, Except.ok.injEq] at h
      obtain ⟨-, -, first, hfirst, inner, hinner, texts, htexts, rfl⟩ := h
      have hvalue := (printed_write l value hinner).mono (List.subset_append_left _ (charsKeyed rest))
      refine Layout.printed_bracket (by decide) (by decide) (List.forall_mem_cons.mpr ⟨?_, ?_⟩)
      · refine Layout.printed_append.mpr ⟨Layout.printed_keyText hfirst,
          Layout.printed_cons (by decide) (Layout.printed_append.mpr ⟨?_, hvalue⟩)⟩
        exact Layout.printed_blank fun c hc => Or.inl hc
      · intro text htext
        exact (printed_writeKeyed l rest htexts text htext).mono (List.subset_append_right _ _)
  | .other, depth, text, h => by
      cases h

theorem printed_writeList (l : Layout) : ∀ (values : List Value) {depth : Nat}
    {texts : List (List Char)}, l.writeList depth values = .ok texts →
    ∀ text ∈ texts, l.Printed (charsList values) text
  | [], depth, texts, h => by
      obtain rfl := Except.ok.inj h
      simp
  | value :: values, depth, texts, h => by
      simp only [Layout.writeList, bind_eq_ok, pure, Except.pure, Except.ok.injEq] at h
      obtain ⟨text, htext, texts', htexts, rfl⟩ := h
      refine List.forall_mem_cons.mpr ⟨?_, fun text hmem => ?_⟩
      · exact (printed_write l value htext).mono (List.subset_append_left _ _)
      · exact (printed_writeList l values htexts text hmem).mono (List.subset_append_right _ _)

theorem printed_writeDict (l : Layout) : ∀ (items : Dict) {depth : Nat}
    {texts : List (List Char)}, l.writeDict depth items = .ok texts →
    ∀ text ∈ texts, l.Printed (charsDict items) text
  | [], depth, texts, h => by
      obtain rfl := Except.ok.inj h
      simp
  | (key, value) :: items, depth, texts, h => by
      simp only [Layout.writeDict, bind_eq_ok, pure, Except.pure, Except.ok.injEq] at h
      obtain ⟨text, htext, texts', htexts, rfl⟩ := h
      refine List.forall_mem_cons.mpr ⟨?_, fun text hmem => ?_⟩
      · refine Layout.printed_member (List.subset_append_left _ _) ?_
        refine (printed_write l value htext).mono ?_
        exact List.subset_append_of_subset_right _ (List.subset_append_left _ _)
      · refine (printed_writeDict l items htexts text hmem).mono ?_
        exact List.subset_append_of_subset_right _ (List.subset_append_right _ _)

theorem printed_writeKeyed (l : Layout) : ∀ (items : List (Key × Value)) {depth : Nat}
    {texts : List (List Char)}, l.writeKeyed depth items = .ok texts →
    ∀ text ∈ texts, l.Printed (charsKeyed items) text
  | [], depth, texts, h => by
      obtain rfl := Except.ok.inj h
      simp
  | (key, value) :: items, depth, texts, h => by
      simp only [Layout.writeKeyed, bind_eq_ok, pure, Except.pure, Except.ok.injEq] at h
      obtain ⟨first, hfirst, text, htext, texts', htexts, rfl⟩ := h
      refine List.forall_mem_cons.mpr ⟨?_, fun text hmem => ?_⟩
      · refine Layout.printed_append.mpr ⟨Layout.printed_keyText hfirst,
          Layout.printed_cons (by decide) (Layout.printed_append.mpr ⟨?_, ?_⟩)⟩
        · exact Layout.printed_blank fun c hc => Or.inl hc
        · exact (printed_write l value htext).mono (List.subset_append_left _ _)
      · exact (printed_writeKeyed l items htexts text hmem).mono (List.subset_append_right _ _)

end

theorem Layout.mem_member {l : Layout} {key : String} {text : List Char} {c : Char}
    (h : c ∈ dumpsStr key ∨ c ∈ text) : c ∈ l.member key text := by
  rw [Layout.member, List.mem_append, List.mem_cons, List.mem_append]
  rcases h with h | h
  · exact Or.inl h
  · exact Or.inr (Or.inr (Or.inr h))

mutual

/-- A character beyond ASCII of a value's strings is in its text. -/
theorem mem_write (l : Layout) {c : Char} (hascii : 128 ≤ c.toNat) : ∀ (value : Value) {depth : Nat}
    {text : List Char}, l.write depth value = .ok text → c ∈ value.chars → c ∈ text
  | .null, _, _, _, hc => absurd hc List.not_mem_nil
  | .bool _, _, _, _, hc => absurd hc List.not_mem_nil
  | .int _, _, _, _, hc => absurd hc List.not_mem_nil
  | .float _, _, _, _, hc => absurd hc List.not_mem_nil
  | .str s, depth, text, h, hc => by
      obtain rfl := Except.ok.inj h
      exact mem_dumpsStr hc hascii
  | .list items, depth, text, h, hc => by
      obtain ⟨texts, htexts, rfl⟩ := map_eq_ok.mp h
      obtain ⟨text, htext, hmem⟩ := mem_writeList l hascii items htexts hc
      exact Layout.mem_bracket htext hmem
  | .tuple items, depth, text, h, hc => by
      obtain ⟨texts, htexts, rfl⟩ := map_eq_ok.mp h
      obtain ⟨text, htext, hmem⟩ := mem_writeList l hascii items htexts hc
      exact Layout.mem_bracket htext hmem
  | .dict items, depth, text, h, hc => by
      obtain ⟨texts, htexts, rfl⟩ := map_eq_ok.mp h
      obtain ⟨text, htext, hmem⟩ := mem_writeDict l hascii items htexts hc
      exact Layout.mem_bracket htext hmem
  | .keyed key value rest, depth, text, h, hc => by
      simp only [Layout.write, bind_eq_ok, pure, Except.pure, Except.ok.injEq] at h
      obtain ⟨-, -, first, -, inner, hinner, texts, htexts, rfl⟩ := h
      rcases List.mem_append.mp hc with hc | hc
      · exact Layout.mem_bracket (List.mem_cons_self ..)
          (Layout.mem_member (Or.inr (mem_write l hascii value hinner hc)))
      · obtain ⟨text, htext, hmem⟩ := mem_writeKeyed l hascii rest htexts hc
        exact Layout.mem_bracket (List.mem_cons_of_mem _ htext) hmem
  | .other, _, _, _, hc => absurd hc List.not_mem_nil

theorem mem_writeList (l : Layout) {c : Char} (hascii : 128 ≤ c.toNat) : ∀ (values : List Value)
    {depth : Nat} {texts : List (List Char)}, l.writeList depth values = .ok texts →
    c ∈ charsList values → ∃ text ∈ texts, c ∈ text
  | [], _, _, _, hc => absurd hc List.not_mem_nil
  | value :: values, depth, texts, h, hc => by
      simp only [Layout.writeList, bind_eq_ok, pure, Except.pure, Except.ok.injEq] at h
      obtain ⟨text, htext, texts', htexts, rfl⟩ := h
      rcases List.mem_append.mp hc with hc | hc
      · exact ⟨text, List.mem_cons_self .., mem_write l hascii value htext hc⟩
      · obtain ⟨text', htext', hmem⟩ := mem_writeList l hascii values htexts hc
        exact ⟨text', List.mem_cons_of_mem _ htext', hmem⟩

theorem mem_writeDict (l : Layout) {c : Char} (hascii : 128 ≤ c.toNat) : ∀ (items : Dict)
    {depth : Nat} {texts : List (List Char)}, l.writeDict depth items = .ok texts →
    c ∈ charsDict items → ∃ text ∈ texts, c ∈ text
  | [], _, _, _, hc => absurd hc List.not_mem_nil
  | (key, value) :: items, depth, texts, h, hc => by
      simp only [Layout.writeDict, bind_eq_ok, pure, Except.pure, Except.ok.injEq] at h
      obtain ⟨text, htext, texts', htexts, rfl⟩ := h
      rcases List.mem_append.mp hc with hc | hc
      · exact ⟨_, List.mem_cons_self .., Layout.mem_member (Or.inl (mem_dumpsStr hc hascii))⟩
      rcases List.mem_append.mp hc with hc | hc
      · exact ⟨_, List.mem_cons_self ..,
          Layout.mem_member (Or.inr (mem_write l hascii value htext hc))⟩
      · obtain ⟨text', htext', hmem⟩ := mem_writeDict l hascii items htexts hc
        exact ⟨text', List.mem_cons_of_mem _ htext', hmem⟩

theorem mem_writeKeyed (l : Layout) {c : Char} (hascii : 128 ≤ c.toNat) :
    ∀ (items : List (Key × Value)) {depth : Nat} {texts : List (List Char)},
    l.writeKeyed depth items = .ok texts → c ∈ charsKeyed items → ∃ text ∈ texts, c ∈ text
  | [], _, _, _, hc => absurd hc List.not_mem_nil
  | (key, value) :: items, depth, texts, h, hc => by
      simp only [Layout.writeKeyed, bind_eq_ok, pure, Except.pure, Except.ok.injEq] at h
      obtain ⟨first, -, text, htext, texts', htexts, rfl⟩ := h
      rcases List.mem_append.mp hc with hc | hc
      · exact ⟨_, List.mem_cons_self ..,
          Layout.mem_member (Or.inr (mem_write l hascii value htext hc))⟩
      · obtain ⟨text', htext', hmem⟩ := mem_writeKeyed l hascii items htexts hc
        exact ⟨text', List.mem_cons_of_mem _ htext', hmem⟩

end

/-! ## The compact text -/

/-- A text without quotes, backslashes and controls is quoted as it is. -/
theorem dumpsStr_keyText {l : Layout} {key : Key} {text : List Char}
    (h : l.keyText key = .ok text) : dumpsStr (String.ofList text) = '"' :: text ++ ['"'] := by
  have hsame : text.flatMap escapeChar = text := by
    have hchars := Layout.keyText_chars h
    clear h
    induction text with
    | nil => rfl
    | cons c text ih =>
        rw [List.forall_mem_cons] at hchars
        obtain ⟨⟨hprint, hquote, hback⟩, hrest⟩ := hchars
        have hc : escapeChar c = [c] := by
          simp only [printable, Bool.and_eq_true, decide_eq_true_eq] at hprint
          have hlf : c ≠ '\n' := fun h => absurd (h ▸ hprint.1) (by decide)
          have hcr : c ≠ '\r' := fun h => absurd (h ▸ hprint.1) (by decide)
          have htab : c ≠ '\t' := fun h => absurd (h ▸ hprint.1) (by decide)
          rw [escapeChar, if_neg hquote, if_neg hback, if_neg hlf, if_neg hcr, if_neg htab,
            if_neg (by omega), if_neg (by omega), if_neg (by omega)]
        rw [List.flatMap_cons, hc, ih hrest]
        rfl
  rw [dumpsStr, String.toList_ofList, hsame]

theorem compact_writeFloat (x : Double) : Layout.compact.writeFloat x = dumpsFloat x := by
  rw [Layout.writeFloat, dumpsFloat]
  cases hfinite : x.isFinite <;> rfl

theorem compact_keyText (key : Key) : Layout.compact.keyText key = dumpsKey key := by
  cases key with
  | none => rfl
  | bool b => rfl
  | int n => rfl
  | float x => exact compact_writeFloat x

theorem compact_join (depth : Nat) (texts : List (List Char)) :
    Layout.compact.join depth texts = joinComma texts := by
  induction texts with
  | nil => rfl
  | cons text texts ih =>
      cases texts with
      | nil => rfl
      | cons text' texts => exact congrArg (text ++ ',' :: ·) ih

theorem compact_bracket (depth : Nat) (first last : Char) (texts : List (List Char)) :
    Layout.compact.bracket depth first last texts = first :: joinComma texts ++ [last] := by
  rw [Layout.bracket, compact_join]
  split_ifs with hnil
  · rw [hnil]
    rfl
  · rfl

theorem compact_member (key : String) (text : List Char) :
    Layout.compact.member key text = dumpsStr key ++ ':' :: text := rfl

mutual

/-- `dumps` is the compact layout. -/
theorem compact_write : ∀ (value : Value) (depth : Nat),
    Layout.compact.write depth value = dumps value
  | .null, _ => rfl
  | .bool _, _ => rfl
  | .int _, _ => rfl
  | .float x, _ => compact_writeFloat x
  | .str _, _ => rfl
  | .list items, depth => by
      rw [Layout.write, dumps, compact_writeList items]
      cases dumpsList items with
      | error exn => rfl
      | ok texts => exact congrArg Except.ok (compact_bracket depth '[' ']' texts)
  | .tuple items, depth => by
      rw [Layout.write, dumps, compact_writeList items]
      cases dumpsList items with
      | error exn => rfl
      | ok texts => exact congrArg Except.ok (compact_bracket depth '[' ']' texts)
  | .dict items, depth => by
      rw [Layout.write, dumps, compact_writeDict items]
      cases dumpsDict items with
      | error exn => rfl
      | ok texts => exact congrArg Except.ok (compact_bracket depth '{' '}' texts)
  | .keyed key value rest, depth => by
      have hkey := compact_keyText key
      have hmixed : ∀ exn : Exn, raiseIf (Layout.compact.sortKeys = true ∧
          rest ≠ [] ∧ (key = .none ∨ rest.any (·.1 = .none))) exn =
          raiseIf (rest ≠ [] ∧ (key = .none ∨ rest.any (·.1 = .none))) exn := by
        intro exn
        simp only [raiseIf, Layout.compact, true_and]
      rw [Layout.write, dumps, compact_write value, compact_writeKeyed rest, hkey, hmixed]
      cases hfirst : dumpsKey key with
      | error exn => rfl
      | ok first =>
          have hquoted := dumpsStr_keyText (hkey.trans hfirst)
          simp only [bind, Except.bind, compact_bracket, compact_member, hquoted,
            List.append_assoc, List.cons_append, List.nil_append]
  | .other, _ => rfl

theorem compact_writeList : ∀ (values : List Value) (depth : Nat),
    Layout.compact.writeList depth values = dumpsList values
  | [], _ => rfl
  | value :: values, depth => by
      rw [Layout.writeList, dumpsList, compact_write value, compact_writeList values]

theorem compact_writeDict : ∀ (items : Dict) (depth : Nat),
    Layout.compact.writeDict depth items = dumpsDict items
  | [], _ => rfl
  | (key, value) :: items, depth => by
      rw [Layout.writeDict, dumpsDict, compact_write value, compact_writeDict items]
      rfl

theorem compact_writeKeyed : ∀ (items : List (Key × Value)) (depth : Nat),
    Layout.compact.writeKeyed depth items = dumpsKeyed items
  | [], _ => rfl
  | (key, value) :: items, depth => by
      have hkey := compact_keyText key
      rw [Layout.writeKeyed, dumpsKeyed, compact_write value, compact_writeKeyed items, hkey]
      cases hfirst : dumpsKey key with
      | error exn => rfl
      | ok first =>
          have hquoted := dumpsStr_keyText (hkey.trans hfirst)
          simp only [bind, Except.bind, compact_member, hquoted, List.append_assoc,
            List.cons_append, List.nil_append]

end

/-! ## One line -/

/-- No control character, so no newline. -/
def OneLine (text : List Char) : Prop := ∀ c ∈ text, 32 ≤ c.toNat

/-- A layout whose only blanks are spaces writes one line. -/
theorem oneLine_write {l : Layout} (hl : ∀ c, l.Blank c → c = ' ') {value : Value} {depth : Nat}
    {text : List Char} (h : l.write depth value = .ok text) : OneLine text := by
  intro c hc
  rcases printed_write l value h c hc with hprint | ⟨-, hcontrol⟩ | hblank
  · simp only [printable, Bool.and_eq_true, decide_eq_true_eq] at hprint
    exact hprint.1
  · exact hcontrol
  · rw [hl c hblank]
    decide

theorem blank_spaced {sortKeys : Bool} {c : Char} (h : (Layout.spaced sortKeys).Blank c) :
    c = ' ' := by
  simpa [Layout.Blank, Layout.spaced] using h

theorem oneLine_dumps (value : Value) {text : List Char} (h : dumps value = .ok text) :
    OneLine text := by
  refine oneLine_write (l := .compact) ?_ ((compact_write value 0).trans h)
  intro c hc
  simp [Layout.Blank, Layout.compact] at hc

/-- A character beyond ASCII is in a text exactly when it is in a string of the value. -/
theorem mem_write_iff {l : Layout} {value : Value} {depth : Nat} {text : List Char}
    (h : l.write depth value = .ok text) {c : Char} (hascii : 128 ≤ c.toNat)
    (hblank : ¬ l.Blank c) : c ∈ text ↔ c ∈ value.chars := by
  constructor
  · intro hc
    rcases printed_write l value h c hc with hprint | ⟨hmem, -⟩ | hblank'
    · simp only [printable, Bool.and_eq_true, decide_eq_true_eq] at hprint
      omega
    · exact hmem
    · exact absurd hblank' hblank
  · exact mem_write l hascii value h

end PowerFramework.Lib.Json
