import Mathlib.Tactic.IntervalCases
import PowerFramework.Lib.JsonLine
/-!
# JSON round trips

The text of a value is read as what JSON makes of it (`loads_write`), in every layout.  A value
without tuples and without keys other than strings is made nothing else of, and whatever is read
is of that kind (`loads_dumps_iff`).
-/

namespace PowerFramework.Lib.Json

open Failure JsonNumber JsonText

/-! ## Strings -/

theorem hexValue_hexDigit {d : Nat} (hd : d < 16) : hexValue (hexDigit d) = some d := by
  interval_cases d <;> decide

theorem scanEscape_control {n : Nat} (hn : n < 32) (text : List Char) :
    scanEscape ('u' :: '0' :: '0' :: hexDigit (n / 16) :: hexDigit (n % 16) :: text) =
      some (n, text) := by
  have hzero : hexValue '0' = some 0 := by decide
  have hvalue : ((0 * 16 + 0) * 16 + n / 16) * 16 + n % 16 = n := by omega
  have hscan : scanHex4 ('0' :: '0' :: hexDigit (n / 16) :: hexDigit (n % 16) :: text) =
      some (n, text) := by
    simp only [scanHex4, hzero, hexValue_hexDigit (d := n / 16) (by omega),
      hexValue_hexDigit (d := n % 16) (by omega), hvalue, bind, Option.bind, pure]
  simp only [scanEscape, if_true, hscan, bind, Option.bind, pure]
  rw [if_neg (by omega)]

theorem scanString_simple {e : Char} {code : Nat} (hu : e ≠ 'u') (he : simpleEscape e = some code)
    (fuel : Nat) (text : List Char) :
    scanString (fuel + 1) ('\\' :: e :: text) =
      (scanString fuel text).map fun r => (code :: r.1, r.2) := by
  simp only [scanString, if_false, if_true, scanEscape, if_neg hu, he,
    show ('\\' : Char) ≠ '"' by decide, Option.map_some, bind, Option.bind, pure]
  cases scanString fuel text <;> rfl

/-- One written character is one step of the scanner. -/
theorem scanString_escapeChar (c : Char) (fuel : Nat) (text : List Char) :
    scanString (fuel + 1) (escapeChar c ++ text) =
      (scanString fuel text).map fun r => (c.toNat :: r.1, r.2) := by
  unfold escapeChar
  split_ifs with hquote hback hlf hcr htab hff hbs hctl
  · subst hquote
    exact scanString_simple (by decide) (by decide) fuel text
  · subst hback
    exact scanString_simple (by decide) (by decide) fuel text
  · subst hlf
    exact scanString_simple (by decide) (by decide) fuel text
  · subst hcr
    exact scanString_simple (by decide) (by decide) fuel text
  · subst htab
    exact scanString_simple (by decide) (by decide) fuel text
  · rw [hff]
    exact scanString_simple (by decide) (by decide) fuel text
  · rw [hbs]
    exact scanString_simple (by decide) (by decide) fuel text
  · have hscan := scanEscape_control hctl text
    simp only [List.cons_append, List.nil_append, scanString, if_true, hscan,
      show ('\\' : Char) ≠ '"' by decide, if_false, bind, Option.bind, pure]
    cases scanString fuel text <;> rfl
  · simp only [List.cons_append, List.nil_append, scanString, if_neg hquote, if_neg hback,
      if_neg hctl, bind, Option.bind, pure]
    cases scanString fuel text <;> rfl

theorem scanString_dumpsStr (chars rest : List Char) {fuel : Nat} (hfuel : chars.length < fuel) :
    scanString fuel (chars.flatMap escapeChar ++ '"' :: rest) =
      some (chars.map Char.toNat, rest) := by
  induction chars generalizing fuel with
  | nil =>
      obtain ⟨fuel, rfl⟩ := Nat.exists_eq_succ_of_ne_zero (by omega : fuel ≠ 0)
      rfl
  | cons c chars ih =>
      obtain ⟨fuel, rfl⟩ := Nat.exists_eq_succ_of_ne_zero (by omega : fuel ≠ 0)
      rw [List.flatMap_cons, List.append_assoc, scanString_escapeChar,
        ih (by simpa using hfuel)]
      rfl

theorem length_le_escape (chars : List Char) :
    chars.length ≤ (chars.flatMap escapeChar).length := by
  induction chars with
  | nil => rfl
  | cons c chars ih =>
      have hc : 1 ≤ (escapeChar c).length := by
        unfold escapeChar
        split_ifs <;> simp
      rw [List.flatMap_cons, List.length_append, List.length_cons]
      omega

theorem ofCodes_toNat (s : String) : ofCodes (s.toList.map Char.toNat) = some s := by
  have h : ∀ chars : List Char, (chars.map Char.toNat).mapM toChar? = some chars := by
    intro chars
    induction chars with
    | nil => rfl
    | cons c chars ih =>
        have hc : toChar? c.toNat = some c := by
          have hvalid : c.toNat.isValidChar := c.valid
          rw [toChar?, if_pos hvalid, Char.ofNat_toNat]
        rw [List.map_cons, List.mapM_cons, hc, ih]
        rfl
  rw [ofCodes, h]
  simp

theorem scanString_str (s : String) (rest : List Char) :
    scanString ((s.toList.flatMap escapeChar ++ '"' :: rest).length + 1)
        (s.toList.flatMap escapeChar ++ '"' :: rest) =
      some (s.toList.map Char.toNat, rest) := by
  apply scanString_dumpsStr
  have := length_le_escape s.toList
  rw [List.length_append]
  omega

/-! ## Dicts -/

theorem setItem_of_lt {key : String} (value : Value) {items : Dict}
    (h : ∀ item ∈ items, item.1.toList < key.toList) : setItem key value items = items ++ [(key, value)] := by
  induction items with
  | nil => rfl
  | cons item items ih =>
      rw [List.forall_mem_cons] at h
      obtain ⟨k, v⟩ := item
      have hlt : k.toList < key.toList := h.1
      have hne : key ≠ k := fun heq => lt_irrefl _ (heq ▸ hlt)
      rw [setItem, if_neg (lt_asymm hlt), if_neg hne, ih h.2, List.cons_append]

theorem sortedKeys_append {front back : Dict} (h : sortedKeys (front ++ back) = true) :
    ∀ item ∈ front, ∀ item' ∈ back, item.1.toList < item'.1.toList := by
  induction front with
  | nil => simp
  | cons item front ih =>
      simp only [List.cons_append, sortedKeys, Bool.and_eq_true, List.all_eq_true,
        decide_eq_true_eq] at h
      rintro item' hmem other hother
      rcases List.mem_cons.mp hmem with rfl | hmem
      · exact h.1 other (by simp [hother])
      · exact ih h.2 item' hmem other hother

/-- Inserting the items of a dict in key order gives the dict. -/
theorem dictOf_sorted {items : Dict} (h : sortedKeys items = true) :
    dictOf (items.map fun item => (some item.1, item.2)) = some items := by
  have hfold : ∀ front back : Dict, sortedKeys (front ++ back) = true →
      (back.map fun item => (some item.1, item.2)).foldl
        (fun d member => do return setItem (← member.1) member.2 (← d)) (some front) =
      some (front ++ back) := by
    intro front back
    induction back generalizing front with
    | nil => simp
    | cons item back ih =>
        intro hsorted
        have hlt : ∀ item' ∈ front, item'.1.toList < item.1.toList := fun item' hmem =>
          sortedKeys_append hsorted item' hmem item (by simp)
        simp only [List.map_cons, List.foldl_cons, bind, Option.bind, pure]
        rw [setItem_of_lt _ hlt]
        have := ih (front ++ [item]) (by simpa using hsorted)
        simpa [bind, Option.bind, pure] using this
  exact hfold [] items h

/-! ## Values -/

theorem skip_cons {c : Char} (hc : isSpace c = false) (text : List Char) :
    skip (c :: text) = c :: text := by
  rw [skip, List.dropWhile_cons_of_neg (by simp [hc])]

/-- Blanks in front of a text are skipped. -/
theorem skip_blank {blank : List Char} (hblank : blank.all isSpace = true) (text : List Char) :
    skip (blank ++ text) = skip text := by
  rw [skip, skip, List.dropWhile_append_of_pos]
  exact fun c hc => List.all_eq_true.mp hblank c hc

/-- The characters a value starts with. -/
def startsValue (c : Char) : Bool :=
  c == '"' || c == '{' || c == '[' || c == 'n' || c == 't' || c == 'f' || c == 'N' || c == 'I' ||
    c == '-' || c.isDigit

theorem startsValue_not {c : Char} (hc : startsValue c = true) :
    isSpace c = false ∧ c ≠ ']' ∧ c ≠ '}' := by
  refine ⟨?_, ?_, ?_⟩
  · by_contra h
    simp only [isSpace, Bool.not_eq_false, Bool.or_eq_true, beq_iff_eq] at h
    rcases h with ((rfl | rfl) | rfl) | rfl <;> simp [startsValue] at hc
  · rintro rfl
    simp [startsValue] at hc
  · rintro rfl
    simp [startsValue] at hc

/-- The first character of a value's text is not skipped. -/
theorem skip_starts {c : Char} (hc : startsValue c = true) (text : List Char) :
    skip (c :: text) = c :: text :=
  skip_cons (startsValue_not hc).1 text

theorem endsNumber_of_isSpace {c : Char} (hc : isSpace c = true) : endsNumber c = true := by
  simp only [isSpace, Bool.or_eq_true, beq_iff_eq] at hc
  rcases hc with ((rfl | rfl) | rfl) | rfl <;> decide

/-- Blanks and then a closing character end a number. -/
theorem numberEnd_blank {blank : List Char} (hblank : blank.all isSpace = true) {c : Char}
    (hc : endsNumber c = true) (rest : List Char) : NumberEnd (blank ++ c :: rest) := by
  cases blank with
  | nil => exact numberEnd_cons hc
  | cons b blank =>
      rw [List.all_cons, Bool.and_eq_true] at hblank
      exact numberEnd_cons (endsNumber_of_isSpace hblank.1)

theorem scanNumber_head {text rest : List Char} {number : Number}
    (h : scanNumber text = some (number, rest)) :
    ∃ c cs, text = c :: cs ∧ (c = '-' ∨ c.isDigit = true) := by
  cases text with
  | nil => simp [scanNumber, scanSign, scanInt] at h
  | cons c cs =>
      refine ⟨c, cs, rfl, ?_⟩
      by_cases hc : c = '-'
      · exact Or.inl hc
      · refine Or.inr ?_
        have hsign : scanSign (c :: cs) = (false, c :: cs) := by simp [scanSign, hc]
        simp only [scanNumber, hsign, Option.map_eq_some_iff] at h
        obtain ⟨⟨whole, after⟩, hint, -⟩ := h
        rw [scanInt] at hint
        split_ifs at hint with hzero hdigit
        · subst hzero
          rfl
        · exact hdigit

/-- A scanned number is what the value scanner finds. -/
theorem scanValue_number {text rest : List Char} {number : Number}
    (h : scanNumber text = some (number, rest)) {value : Value}
    (hvalue : scanNumberValue text = some (value, rest)) (fuel : Nat) :
    scanValue (fuel + 1) text = some (value, rest) := by
  obtain ⟨c, cs, rfl, hc⟩ := scanNumber_head h
  have hne : ∀ d : Char, d ≠ '-' → d.isDigit = false → c ≠ d := by
    rintro d hminus hdigit rfl
    rcases hc with hc | hc
    · exact hminus hc
    · simp [hdigit] at hc
  rw [scanValue, if_neg (hne _ (by decide) (by decide)), if_neg (hne _ (by decide) (by decide)),
    if_neg (hne _ (by decide) (by decide)), if_neg (hne _ (by decide) (by decide)),
    if_neg (hne _ (by decide) (by decide)), if_neg (hne _ (by decide) (by decide)),
    if_neg (hne _ (by decide) (by decide)), if_neg (hne _ (by decide) (by decide)), hvalue]
  rfl

/-- A text that is read as the value, in front of anything that cannot continue a number. -/
structure Scans (text : List Char) (value : Value) : Prop where
  starts : ∃ c cs, text = c :: cs ∧ startsValue c = true
  scan : ∀ (rest : List Char) (fuel : Nat), NumberEnd rest → 2 * text.length < fuel →
    scanValue fuel (text ++ rest) = some (value, rest)

/-- A text that one step of the scanner reads. -/
theorem scans_of {text : List Char} {value : Value}
    (hstarts : ∃ c cs, text = c :: cs ∧ startsValue c = true)
    (h : ∀ rest fuel, NumberEnd rest → scanValue (fuel + 1) (text ++ rest) = some (value, rest)) :
    Scans text value := by
  refine ⟨hstarts, fun rest fuel hrest hfuel => ?_⟩
  obtain ⟨fuel, rfl⟩ := Nat.exists_eq_succ_of_ne_zero (by omega : fuel ≠ 0)
  exact h rest fuel hrest

theorem starts_of_number {text rest : List Char} {number : Number}
    (h : scanNumber text = some (number, rest)) : ∃ c cs, text = c :: cs ∧ startsValue c = true := by
  obtain ⟨c, cs, rfl, hc⟩ := scanNumber_head h
  refine ⟨c, cs, rfl, ?_⟩
  rcases hc with rfl | hc
  · rfl
  · simp [startsValue, hc]

theorem scans_int {n : Int} {text : List Char} (h : dumpsInt n = .ok text) :
    Scans text (.int n) := by
  simp only [dumpsInt, bind_eq_ok, raiseIf_eq_ok, pure, Except.pure, Except.ok.injEq] at h
  obtain ⟨-, hdigits, rfl⟩ := h
  refine scans_of ?_ fun rest fuel hrest => ?_
  · have hwhole := scanNumber_intText numberEnd_nil n
    rw [List.append_nil] at hwhole
    exact starts_of_number hwhole
  · have hscan := scanNumber_intText hrest n
    refine scanValue_number hscan ?_ fuel
    simp only [scanNumberValue, hscan, bind, Option.bind, if_neg hdigits, pure]

theorem scans_finite {x : Double} (hfinite : x.isFinite = true) :
    Scans (floatText x) (.float x) := by
  refine scans_of ?_ fun rest fuel hrest => ?_
  · have hwhole := scanNumber_floatText numberEnd_nil hfinite
    rw [List.append_nil] at hwhole
    exact starts_of_number hwhole
  · have hscan := scanNumber_floatText hrest hfinite
    refine scanValue_number hscan ?_ fuel
    simp only [scanNumberValue, hscan, bind, Option.bind, pure]

theorem literal_append (word : String) (value : Value) (rest : List Char) :
    literal word value (word.toList ++ rest) = some (value, rest) := by
  simp [literal]

/-- A float that is no number is infinite or a NaN. -/
theorem scans_special {x : Double} (hfinite : x.isFinite = false) :
    Scans (specialText x) (.float (Double.read x)) := by
  have hexponent : x.exponent.val = 2047 := by
    have hlt := x.exponent.isLt
    simp only [Double.isFinite, decide_eq_false_iff_not] at hfinite
    omega
  by_cases hnan : x.fraction ≠ 0
  · rw [specialText, if_pos hnan, Double.read, if_pos ⟨hfinite, hnan⟩]
    exact scans_of ⟨'N', _, rfl, by decide⟩ fun rest fuel _ => literal_append "NaN" _ rest
  · have hread : Double.read x = x := if_neg fun h => hnan h.2
    have hx : x = .infinity x.negative := by
      obtain ⟨negative, exponent, fraction⟩ := x
      have hexp : exponent = 2047 := Fin.ext hexponent
      have hfraction : fraction = 0 := not_not.mp hnan
      rw [Double.infinity, hexp, hfraction]
    rw [specialText, if_neg hnan, hread]
    cases hsign : x.negative with
    | true =>
        rw [if_pos rfl, hx, hsign]
        refine scans_of ⟨'-', _, rfl, by decide⟩ fun rest fuel _ => ?_
        have hnumber : scanNumberValue ("-Infinity".toList ++ rest) = none := rfl
        change ((scanNumberValue ("-Infinity".toList ++ rest)).or
          (literal "-Infinity" (.float (.infinity true)) ("-Infinity".toList ++ rest))) = _
        rw [hnumber]
        exact literal_append "-Infinity" _ rest
    | false =>
        rw [if_neg Bool.false_ne_true, hx, hsign]
        exact scans_of ⟨'I', _, rfl, by decide⟩ fun rest fuel _ => literal_append "Infinity" _ rest

theorem scans_float {l : Layout} {x : Double} {text : List Char} (h : l.writeFloat x = .ok text) :
    Scans text (.float (Double.read x)) := by
  rw [Layout.writeFloat] at h
  split_ifs at h with hfinite
  · obtain rfl := Except.ok.inj h
    rw [Double.read, if_neg (by simp [hfinite])]
    exact scans_finite hfinite
  · obtain ⟨⟨⟩, -, h⟩ := bind_eq_ok.mp h
    obtain rfl := Except.ok.inj h
    exact scans_special (by simpa using hfinite)

theorem scanString_quoted (s : String) (rest : List Char) :
    ∃ tail, dumpsStr s ++ rest = '"' :: tail ∧
      scanString (tail.length + 1) tail = some (s.toList.map Char.toNat, rest) := by
  refine ⟨s.toList.flatMap escapeChar ++ '"' :: rest, ?_, scanString_str s rest⟩
  simp only [dumpsStr, List.cons_append, List.append_assoc, List.nil_append]

theorem scans_str (s : String) : Scans (dumpsStr s) (.str s) := by
  refine scans_of ⟨'"', _, rfl, by decide⟩ fun rest fuel _ => ?_
  obtain ⟨tail, heq, hscan⟩ := scanString_quoted s rest
  rw [heq, scanValue, if_pos rfl, hscan]
  simp only [bind, Option.bind, pure, strValue, ofCodes_toNat, Option.map_some, Option.getD_some]

/-! ## Containers -/

section
variable {l : Layout} {depth : Nat}

theorem Layout.join_cons (text : List Char) {texts : List (List Char)} (hne : texts ≠ []) :
    l.join depth (text :: texts) = text ++ ',' :: (l.comma depth ++ l.join depth texts) := by
  cases texts with
  | nil => exact absurd rfl hne
  | cons text' texts => rfl

variable (l depth) in
theorem Layout.starts_join {text : List Char} (texts : List (List Char)) {c : Char} {cs : List Char}
    (h : text = c :: cs) (rest : List Char) :
    ∃ more, l.join depth (text :: texts) ++ rest = c :: more := by
  subst h
  cases texts with
  | nil => exact ⟨cs ++ rest, rfl⟩
  | cons text' texts => exact ⟨_, rfl⟩

variable (l depth) in
/-- The items of an array, behind its opening bracket. -/
theorem scanItems_join {texts : List (List Char)} {values : List Value}
    (h : List.Forall₂ Scans texts values) (hne : texts ≠ []) (rest : List Char) (fuel : Nat)
    (hfuel : 2 * (l.join depth texts).length + 1 < fuel) :
    scanItems fuel (l.join depth texts ++ (l.closing depth ++ ']' :: rest)) =
      some (values, rest) := by
  have hclose := numberEnd_blank (l.blank_closing depth) (by decide : endsNumber ']' = true) rest
  induction h generalizing fuel with
  | nil => exact absurd rfl hne
  | @cons text value texts values hfirst hrest ih =>
      obtain ⟨fuel, rfl⟩ := Nat.exists_eq_succ_of_ne_zero (by omega : fuel ≠ 0)
      cases hrest with
      | nil =>
          rw [Layout.join] at hfuel ⊢
          rw [scanItems, hfirst.scan _ fuel hclose (by omega)]
          simp only [bind, Option.bind]
          rw [skip_blank (l.blank_closing depth), skip_cons (by decide)]
          rfl
      | @cons text' value' texts values hsecond hmore =>
          rw [Layout.join_cons _ (by simp), List.length_append, List.length_cons,
            List.length_append] at hfuel
          obtain ⟨c, cs, hcs, hc⟩ := hsecond.starts
          obtain ⟨more, heq⟩ := Layout.starts_join l depth texts hcs
            (l.closing depth ++ ']' :: rest)
          have hnext := ih (by simp) fuel (by omega)
          have hend : NumberEnd (',' :: (l.comma depth ++
              (l.join depth (text' :: texts) ++ (l.closing depth ++ ']' :: rest)))) :=
            numberEnd_cons (by decide)
          rw [Layout.join_cons _ (by simp)]
          simp only [List.append_assoc, List.cons_append]
          rw [scanItems, hfirst.scan _ fuel hend (by omega)]
          simp only [bind, Option.bind]
          rw [skip_cons (by decide)]
          simp only
          rw [skip_blank (l.blank_comma depth), heq, skip_starts hc, ← heq, hnext]
          rfl

/-- The scanner at a member. -/
theorem scanMembers_member {key : String} {text : List Char} {value : Value}
    (h : Scans text value) {fuel : Nat} (hfuel : 2 * text.length < fuel) {rest : List Char}
    (hrest : NumberEnd rest) :
    scanMembers (fuel + 1) (l.member key text ++ rest) =
      match skip rest with
      | '}' :: rest => some ([(some key, value)], rest)
      | ',' :: rest => do
          let (members, rest) ← scanMembers fuel (skip rest)
          return ((some key, value) :: members, rest)
      | _ => none := by
  obtain ⟨c, cs, hcs, hc⟩ := h.starts
  obtain ⟨tail, heq, hscan⟩ := scanString_quoted key (':' :: (l.colon ++ (text ++ rest)))
  have hskip : skip (l.colon ++ (text ++ rest)) = text ++ rest := by
    rw [skip_blank l.blank_colon, hcs]
    exact skip_starts hc _
  rw [Layout.member]
  simp only [List.append_assoc, List.cons_append]
  rw [heq, scanMembers, hscan]
  simp only [bind, Option.bind]
  rw [skip_cons (by decide)]
  simp only [hskip, h.scan rest fuel hrest hfuel, ofCodes_toNat]
  rfl

/-- A text that is read as the member. -/
def Layout.ScansMember (l : Layout) (text : List Char) (entry : Option String × Value) : Prop :=
  ∃ key inner, text = l.member key inner ∧ entry.1 = some key ∧ Scans inner entry.2

variable (l depth) in
/-- The members of an object, behind its opening brace. -/
theorem scanMembers_join {texts : List (List Char)} {entries : List (Option String × Value)}
    (h : List.Forall₂ l.ScansMember texts entries) (hne : texts ≠ []) (rest : List Char)
    (fuel : Nat) (hfuel : 2 * (l.join depth texts).length + 1 < fuel) :
    scanMembers fuel (l.join depth texts ++ (l.closing depth ++ '}' :: rest)) =
      some (entries, rest) := by
  have hclose := numberEnd_blank (l.blank_closing depth) (by decide : endsNumber '}' = true) rest
  induction h generalizing fuel with
  | nil => exact absurd rfl hne
  | @cons text entry texts entries hfirst hrest ih =>
      obtain ⟨fuel, rfl⟩ := Nat.exists_eq_succ_of_ne_zero (by omega : fuel ≠ 0)
      obtain ⟨key, inner, rfl, hkey, hinner⟩ := hfirst
      have hlength : inner.length ≤ (l.member key inner).length := by
        simp only [Layout.member, List.length_append, List.length_cons]
        omega
      have hentry : (some key, entry.2) = entry := by rw [← hkey]
      cases hrest with
      | nil =>
          rw [Layout.join] at hfuel ⊢
          rw [scanMembers_member hinner (by omega) hclose, skip_blank (l.blank_closing depth),
            skip_cons (by decide), hentry]
          rfl
      | @cons text' entry' texts entries hsecond hmore =>
          have hnext := ih (by simp) fuel
          obtain ⟨key', inner', rfl, -, -⟩ := hsecond
          rw [Layout.join_cons _ (by simp), List.length_append, List.length_cons,
            List.length_append] at hfuel
          obtain ⟨more, heq⟩ := Layout.starts_join l depth texts
            (rfl : l.member key' inner' = '"' :: _) (l.closing depth ++ '}' :: rest)
          have hend : NumberEnd (',' :: (l.comma depth ++
              (l.join depth (l.member key' inner' :: texts) ++ (l.closing depth ++ '}' :: rest)))) :=
            numberEnd_cons (by decide)
          rw [Layout.join_cons _ (by simp)]
          simp only [List.append_assoc, List.cons_append]
          rw [scanMembers_member hinner (by omega) hend, skip_cons (by decide)]
          simp only
          rw [skip_blank (l.blank_comma depth), heq, skip_cons (by decide), ← heq,
            hnext (by omega), hentry]
          rfl

variable (l depth) in
theorem Layout.length_join_le (texts : List (List Char)) (first last : Char) (hne : texts ≠ []) :
    (l.join depth texts).length + 2 ≤ (l.bracket depth first last texts).length := by
  rw [Layout.bracket, if_neg hne]
  simp only [List.length_cons, List.length_append, List.length_nil]
  omega

/-- An array of texts that are read as values. -/
theorem scans_array {texts : List (List Char)} {values : List Value}
    (h : List.Forall₂ Scans texts values) : Scans (l.bracket depth '[' ']' texts) (.list values) := by
  by_cases hne : texts = []
  · subst hne
    cases h
    exact scans_of ⟨'[', _, rfl, by decide⟩ fun rest fuel _ => rfl
  · refine ⟨⟨'[', _, by rw [Layout.bracket, if_neg hne], by decide⟩, fun rest fuel _ hfuel => ?_⟩
    obtain ⟨fuel, rfl⟩ := Nat.exists_eq_succ_of_ne_zero (by omega : fuel ≠ 0)
    have hlength := Layout.length_join_le l depth texts '[' ']' hne
    have hitems := scanItems_join l depth h hne rest fuel (by omega)
    cases h with
    | nil => exact absurd rfl hne
    | @cons text value texts values hfirst hrest =>
        obtain ⟨c, cs, hcs, hc⟩ := hfirst.starts
        obtain ⟨more, heq⟩ := Layout.starts_join l depth texts hcs
          (l.closing depth ++ ']' :: rest)
        rw [Layout.bracket, if_neg hne]
        simp only [List.cons_append, List.append_assoc, List.nil_append]
        rw [heq] at hitems ⊢
        rw [scanValue, if_neg (by decide), if_neg (by decide), if_pos rfl,
          skip_blank (l.blank_opening depth), skip_starts hc]
        split
        · rename_i hcons
          exact absurd (List.cons.inj hcons).1 (startsValue_not hc).2.1
        · rw [hitems]
          rfl

/-- An object of texts that are read as members. -/
theorem scans_object {texts : List (List Char)} {entries : List (Option String × Value)}
    (h : List.Forall₂ l.ScansMember texts entries) :
    Scans (l.bracket depth '{' '}' texts) (dictValue entries) := by
  by_cases hne : texts = []
  · subst hne
    cases h
    exact scans_of ⟨'{', _, rfl, by decide⟩ fun rest fuel _ => rfl
  · refine ⟨⟨'{', _, by rw [Layout.bracket, if_neg hne], by decide⟩, fun rest fuel _ hfuel => ?_⟩
    obtain ⟨fuel, rfl⟩ := Nat.exists_eq_succ_of_ne_zero (by omega : fuel ≠ 0)
    have hlength := Layout.length_join_le l depth texts '{' '}' hne
    have hmembers := scanMembers_join l depth h hne rest fuel (by omega)
    cases h with
    | nil => exact absurd rfl hne
    | @cons text entry texts entries hfirst hrest =>
        obtain ⟨key, inner, rfl, -, -⟩ := hfirst
        obtain ⟨more, heq⟩ := Layout.starts_join l depth texts
          (rfl : l.member key inner = '"' :: _) (l.closing depth ++ '}' :: rest)
        rw [Layout.bracket, if_neg hne]
        simp only [List.cons_append, List.append_assoc, List.nil_append]
        rw [heq] at hmembers ⊢
        rw [scanValue, if_neg (by decide), if_pos rfl, skip_blank (l.blank_opening depth),
          skip_cons (by decide)]
        split
        · rename_i hcons
          exact absurd (List.cons.inj hcons).1 (by decide)
        · rw [hmembers]
          rfl

theorem keyText_ok {key : Key} {text : List Char} (h : l.keyText key = .ok text) :
    String.ofList text = key.text := by
  cases key with
  | none =>
      obtain rfl := Except.ok.inj h
      rfl
  | bool b =>
      obtain rfl := Except.ok.inj h
      cases b <;> rfl
  | int n =>
      simp only [Layout.keyText, dumpsInt, bind_eq_ok, pure, Except.pure, Except.ok.injEq] at h
      obtain ⟨-, -, rfl⟩ := h
      rfl
  | float x =>
      rw [Layout.keyText, Layout.writeFloat] at h
      rw [Key.text]
      split_ifs at h with hfinite
      · obtain rfl := Except.ok.inj h
        rw [if_pos hfinite]
      · obtain ⟨⟨⟩, -, h⟩ := bind_eq_ok.mp h
        obtain rfl := Except.ok.inj h
        rw [if_neg hfinite]

end

mutual

/-- The text of a value is read as what JSON makes of it. -/
theorem scans_write (l : Layout) : ∀ (value : Value) {depth : Nat} {text : List Char},
    l.write depth value = .ok text → Scans text value.asJson
  | .null, depth, text, h => by
      obtain rfl := Except.ok.inj h
      exact scans_of ⟨'n', _, rfl, by decide⟩ fun rest fuel _ => literal_append "null" .null rest
  | .bool b, depth, text, h => by
      obtain rfl := Except.ok.inj h
      cases b
      · exact scans_of ⟨'f', _, rfl, by decide⟩ fun rest fuel _ =>
          literal_append "false" (.bool false) rest
      · exact scans_of ⟨'t', _, rfl, by decide⟩ fun rest fuel _ =>
          literal_append "true" (.bool true) rest
  | .int n, depth, text, h => scans_int h
  | .float x, depth, text, h => scans_float h
  | .str s, depth, text, h => by
      obtain rfl := Except.ok.inj h
      exact scans_str s
  | .list items, depth, text, h => by
      obtain ⟨texts, htexts, rfl⟩ := map_eq_ok.mp h
      exact scans_array (scans_writeList l items htexts)
  | .tuple items, depth, text, h => by
      obtain ⟨texts, htexts, rfl⟩ := map_eq_ok.mp h
      exact scans_array (scans_writeList l items htexts)
  | .dict items, depth, text, h => by
      obtain ⟨texts, htexts, rfl⟩ := map_eq_ok.mp h
      exact scans_object (scans_writeDict l items htexts)
  | .keyed key value rest, depth, text, h => by
      simp only [Layout.write, bind_eq_ok, pure, Except.pure, Except.ok.injEq] at h
      obtain ⟨-, -, first, hfirst, inner, hinner, texts, htexts, rfl⟩ := h
      refine scans_object (.cons ⟨key.text, inner, ?_, rfl, scans_write l value hinner⟩
        (scans_writeKeyed l rest htexts))
      rw [keyText_ok hfirst]
  | .other, depth, text, h => by
      cases h

theorem scans_writeList (l : Layout) : ∀ (values : List Value) {depth : Nat}
    {texts : List (List Char)}, l.writeList depth values = .ok texts →
    List.Forall₂ Scans texts (asJsonList values)
  | [], depth, texts, h => by
      obtain rfl := Except.ok.inj h
      exact .nil
  | value :: values, depth, texts, h => by
      simp only [Layout.writeList, bind_eq_ok, pure, Except.pure, Except.ok.injEq] at h
      obtain ⟨text, htext, texts', htexts, rfl⟩ := h
      exact .cons (scans_write l value htext) (scans_writeList l values htexts)

theorem scans_writeDict (l : Layout) : ∀ (items : Dict) {depth : Nat}
    {texts : List (List Char)}, l.writeDict depth items = .ok texts →
    List.Forall₂ l.ScansMember texts (asJsonDict items)
  | [], depth, texts, h => by
      obtain rfl := Except.ok.inj h
      exact .nil
  | (key, value) :: items, depth, texts, h => by
      simp only [Layout.writeDict, bind_eq_ok, pure, Except.pure, Except.ok.injEq] at h
      obtain ⟨text, htext, texts', htexts, rfl⟩ := h
      exact .cons ⟨key, text, rfl, rfl, scans_write l value htext⟩ (scans_writeDict l items htexts)

theorem scans_writeKeyed (l : Layout) : ∀ (items : List (Key × Value)) {depth : Nat}
    {texts : List (List Char)}, l.writeKeyed depth items = .ok texts →
    List.Forall₂ l.ScansMember texts (asJsonKeyed items)
  | [], depth, texts, h => by
      obtain rfl := Except.ok.inj h
      exact .nil
  | (key, value) :: items, depth, texts, h => by
      simp only [Layout.writeKeyed, bind_eq_ok, pure, Except.pure, Except.ok.injEq] at h
      obtain ⟨first, hfirst, text, htext, texts', htexts, rfl⟩ := h
      refine .cons ⟨key.text, text, ?_, rfl, scans_write l value htext⟩
        (scans_writeKeyed l items htexts)
      rw [keyText_ok hfirst]

end

/-- A text that is read as a value, between blanks. -/
theorem Scans.loads {text : List Char} {value : Value} (h : Scans text value)
    {front back : List Char} (hfront : front.all isSpace = true) (hback : back.all isSpace = true) :
    loads (front ++ (text ++ back)) = some value := by
  obtain ⟨c, cs, hcs, hc⟩ := h.starts
  have hend : NumberEnd back := by
    cases back with
    | nil => exact numberEnd_nil
    | cons b back =>
        rw [List.all_cons, Bool.and_eq_true] at hback
        exact numberEnd_cons (endsNumber_of_isSpace hback.1)
  have hskip : skip (front ++ (text ++ back)) = text ++ back := by
    rw [skip_blank hfront, hcs]
    exact skip_starts hc _
  have hscan := h.scan back (2 * (text ++ back).length + 1) hend (by
    rw [List.length_append]
    omega)
  have hnil : skip back = [] := by
    have hall := skip_blank hback []
    rw [List.append_nil] at hall
    rw [hall]
    rfl
  rw [Json.loads, hskip]
  simp only [hscan, bind, Option.bind, hnil]
  rfl

/-- `json.loads` of the text `json.dumps` writes. -/
theorem loads_write {l : Layout} {depth : Nat} {value : Value} {text : List Char}
    (h : l.write depth value = .ok text) : loads text = some value.asJson := by
  have hloads : loads ([] ++ (text ++ [])) = some value.asJson :=
    (scans_write l value h).loads rfl rfl
  rwa [List.nil_append, List.append_nil] at hloads

/-! ## What values are read -/

theorem everywhereList_iff {p : Value → Bool} {values : List Value} :
    everywhereList p values = true ↔ ∀ v ∈ values, v.everywhere p = true := by
  induction values with
  | nil => simp [everywhereList]
  | cons v values ih => simp [everywhereList, ih]

theorem everywhereDict_iff {p : Value → Bool} {items : Dict} :
    everywhereDict p items = true ↔ ∀ item ∈ items, item.2.everywhere p = true := by
  induction items with
  | nil => simp [everywhereDict]
  | cons item items ih =>
      obtain ⟨key, value⟩ := item
      simp [everywhereDict, ih]

theorem mem_setItem {key : String} {value : Value} {items : Dict} {item : String × Value}
    (h : item ∈ setItem key value items) : item = (key, value) ∨ item ∈ items := by
  induction items with
  | nil => exact Or.inl (by simpa [setItem] using h)
  | cons entry items ih =>
      obtain ⟨k, v⟩ := entry
      rw [setItem] at h
      split_ifs at h with hlt heq
      · exact List.mem_cons.mp h
      · rcases List.mem_cons.mp h with h | h
        · exact Or.inl h
        · exact Or.inr (List.mem_cons_of_mem _ h)
      · rcases List.mem_cons.mp h with h | h
        · exact Or.inr (by simp [h])
        · rcases ih h with h | h
          · exact Or.inl h
          · exact Or.inr (List.mem_cons_of_mem _ h)

theorem sortedKeys_setItem {key : String} {value : Value} {items : Dict}
    (h : sortedKeys items = true) : sortedKeys (setItem key value items) = true := by
  induction items with
  | nil => rfl
  | cons entry items ih =>
      obtain ⟨k, v⟩ := entry
      have hsorted := h
      simp only [sortedKeys, Bool.and_eq_true, List.all_eq_true, decide_eq_true_eq] at h
      rw [setItem]
      split_ifs with hlt heq
      · simp only [sortedKeys, Bool.and_eq_true, List.all_eq_true, decide_eq_true_eq,
          List.forall_mem_cons]
        exact ⟨⟨hlt, fun item hitem => lt_trans hlt (h.1 item hitem)⟩, h.1, h.2⟩
      · subst heq
        simp only [sortedKeys, Bool.and_eq_true, List.all_eq_true, decide_eq_true_eq]
        exact h
      · simp only [sortedKeys, Bool.and_eq_true, List.all_eq_true, decide_eq_true_eq]
        refine ⟨fun item hitem => ?_, ih h.2⟩
        rcases mem_setItem hitem with rfl | hitem
        · exact lt_of_le_of_ne (not_lt.mp hlt) fun h => heq (String.toList_inj.mp h).symm
        · exact h.1 item hitem

/-- A property of whatever a JSON text can hold: of the atoms, of every list, and of every dict
in key order. -/
structure Readable (p : Value → Bool) : Prop where
  null : p .null = true
  bool : ∀ b, p (.bool b) = true
  int : ∀ n, p (.int n) = true
  float : ∀ x, Double.read x = x → p (.float x) = true
  str : ∀ s, p (.str s) = true
  other : p .other = true
  list : ∀ items, p (.list items) = true
  dict : ∀ items, sortedKeys items = true → p (.dict items) = true

theorem read_nan : Double.read .nan = .nan := by decide

theorem read_infinity (negative : Bool) : Double.read (.infinity negative) = .infinity negative :=
  if_neg fun h => h.2 rfl

theorem read_finite {x : Double} (h : x.isFinite = true) : Double.read x = x :=
  if_neg fun hnan => by
    rw [h] at hnan
    cases hnan.1

theorem read_ofParts (negative : Bool) (mantissa shift : Nat) :
    Double.read (.ofParts negative mantissa shift) = .ofParts negative mantissa shift := by
  unfold Double.ofParts
  split_ifs with hsmall hshift
  · exact read_finite (by rfl)
  · apply read_finite
    have hlt : (shift + 1) % 2048 < 2047 := by omega
    simpa [Double.isFinite, Fin.ofNat] using hlt
  · exact read_infinity negative

theorem read_round (negative : Bool) (n d : Nat) :
    Double.read (.round negative n d) = .round negative n d := by
  unfold Double.round
  cases Double.leastShift n d with
  | none => exact read_infinity negative
  | some shift =>
      rw [Option.elim_some, Double.roundAt]
      split_ifs
      · exact read_ofParts _ _ _
      · exact read_ofParts _ _ _

theorem read_ofDecimal (negative : Bool) (digits : Nat) (power : Int) :
    Double.read (.ofDecimal negative digits power) = .ofDecimal negative digits power := by
  cases power with
  | ofNat k => exact read_round _ _ _
  | negSucc k => exact read_round _ _ _

section
variable {p : Value → Bool} (hp : Readable p)
include hp

theorem everywhere_dictValue {members : List (Option String × Value)}
    (h : ∀ member ∈ members, member.2.everywhere p = true) :
    (dictValue members).everywhere p = true := by
  have hfold : ∀ start : Option Dict, (∀ d, start = some d → (Value.dict d).everywhere p = true ∧
      sortedKeys d = true) → ∀ d, members.foldl
        (fun d member => do return setItem (← member.1) member.2 (← d)) start = some d →
      (Value.dict d).everywhere p = true ∧ sortedKeys d = true := by
    induction members with
    | nil => exact fun start hstart d hd => hstart d hd
    | cons member members ih =>
        rw [List.forall_mem_cons] at h
        intro start hstart d hd
        rw [List.foldl_cons] at hd
        refine ih h.2 _ ?_ d hd
        intro d' hd'
        obtain ⟨key, hkey, hd'⟩ := Option.bind_eq_some_iff.mp hd'
        obtain ⟨items, hitems, hd'⟩ := Option.bind_eq_some_iff.mp hd'
        obtain rfl := Option.some.inj hd'
        obtain ⟨heverywhere, hsorted⟩ := hstart items hitems
        rw [Value.everywhere, Bool.and_eq_true, everywhereDict_iff] at heverywhere
        have hsorted' := @sortedKeys_setItem key member.2 items hsorted
        refine ⟨?_, hsorted'⟩
        rw [Value.everywhere, Bool.and_eq_true, everywhereDict_iff]
        refine ⟨hp.dict _ hsorted', fun item hitem => ?_⟩
        rcases mem_setItem hitem with rfl | hitem
        · exact h.1
        · exact heverywhere.2 item hitem
  rw [dictValue]
  cases hdict : dictOf members with
  | none => exact hp.other
  | some items =>
      refine (hfold (some []) ?_ items hdict).1
      intro d hd
      obtain rfl := Option.some.inj hd
      exact ⟨by rw [Value.everywhere, hp.dict [] rfl]; rfl, rfl⟩

theorem everywhere_strValue (codes : List Nat) : (strValue codes).everywhere p = true := by
  rw [strValue]
  cases ofCodes codes with
  | none => exact hp.other
  | some s => exact hp.str s

omit hp in
theorem everywhere_literal {word : String} {value : Value} {text : List Char}
    {result : Value × List Char} (hscan : literal word value text = some result)
    (h : value.everywhere p = true) : result.1.everywhere p = true := by
  rw [literal] at hscan
  split_ifs at hscan
  obtain rfl := Option.some.inj hscan
  exact h

theorem everywhere_scanNumberValue {text : List Char} {result : Value × List Char}
    (h : scanNumberValue text = some result) : result.1.everywhere p = true := by
  rw [scanNumberValue] at h
  obtain ⟨⟨number, rest⟩, hscan, h⟩ := Option.bind_eq_some_iff.mp h
  cases number with
  | int n =>
      simp only at h
      split_ifs at h
      obtain rfl := Option.some.inj h
      exact hp.int n
  | float x =>
      obtain rfl := Option.some.inj h
      apply hp.float
      simp only [scanNumber, Option.map_eq_some_iff, Prod.mk.injEq] at hscan
      obtain ⟨whole, -, hnumber, -⟩ := hscan
      rw [makeNumber] at hnumber
      split_ifs at hnumber
      cases hnumber
      exact read_ofDecimal _ _ _

end

/-- Whatever the three scanners return with this much fuel has the property everywhere. -/
structure Scanned (p : Value → Bool) (fuel : Nat) : Prop where
  value : ∀ {text : List Char} {result : Value × List Char},
    scanValue fuel text = some result → result.1.everywhere p = true
  items : ∀ {text : List Char} {result : List Value × List Char},
    scanItems fuel text = some result → ∀ v ∈ result.1, v.everywhere p = true
  members : ∀ {text : List Char} {result : List (Option String × Value) × List Char},
    scanMembers fuel text = some result → ∀ member ∈ result.1, member.2.everywhere p = true

section
variable {p : Value → Bool} (hp : Readable p) {fuel : Nat} (ih : Scanned p fuel)
include hp ih

theorem scanned_value {text : List Char} {result : Value × List Char}
    (h : scanValue (fuel + 1) text = some result) : result.1.everywhere p = true := by
  cases text with
  | nil => simp [scanValue] at h
  | cons c rest =>
      rw [scanValue] at h
      split_ifs at h
      · obtain ⟨⟨codes, rest'⟩, -, h⟩ := Option.bind_eq_some_iff.mp h
        obtain rfl := Option.some.inj h
        exact everywhere_strValue hp codes
      · split at h
        · obtain rfl := Option.some.inj h
          exact @everywhere_dictValue p hp [] (by simp)
        · obtain ⟨⟨members, rest'⟩, hscan, h⟩ := Option.bind_eq_some_iff.mp h
          obtain rfl := Option.some.inj h
          exact everywhere_dictValue hp (ih.members hscan)
      · split at h
        · obtain rfl := Option.some.inj h
          rw [Value.everywhere, hp.list]
          rfl
        · obtain ⟨⟨values, rest'⟩, hscan, h⟩ := Option.bind_eq_some_iff.mp h
          obtain rfl := Option.some.inj h
          rw [Value.everywhere, hp.list, Bool.true_and, everywhereList_iff]
          exact ih.items hscan
      · exact everywhere_literal h hp.null
      · exact everywhere_literal h (hp.bool true)
      · exact everywhere_literal h (hp.bool false)
      · exact everywhere_literal h (hp.float _ read_nan)
      · exact everywhere_literal h (hp.float _ (read_infinity false))
      · rcases Option.or_eq_some_iff.mp h with h | ⟨-, h⟩
        · exact everywhere_scanNumberValue hp h
        · exact everywhere_literal h (hp.float _ (read_infinity true))

omit hp in
theorem scanned_items {text : List Char} {result : List Value × List Char}
    (h : scanItems (fuel + 1) text = some result) : ∀ v ∈ result.1, v.everywhere p = true := by
  rw [scanItems] at h
  obtain ⟨⟨value, rest⟩, hvalue, h⟩ := Option.bind_eq_some_iff.mp h
  have hfirst := ih.value hvalue
  simp only at h
  split at h
  · obtain rfl := Option.some.inj h
    simpa using hfirst
  · obtain ⟨⟨values, rest'⟩, hvalues, h⟩ := Option.bind_eq_some_iff.mp h
    obtain rfl := Option.some.inj h
    exact List.forall_mem_cons.mpr ⟨hfirst, ih.items hvalues⟩
  · cases h

omit hp in
theorem scanned_members {text : List Char}
    {result : List (Option String × Value) × List Char}
    (h : scanMembers (fuel + 1) text = some result) :
    ∀ member ∈ result.1, member.2.everywhere p = true := by
  rw [scanMembers.eq_def] at h
  split at h
  · cases h
  · rename_i fuel' text' heq
    obtain rfl := Nat.succ.inj heq
    obtain ⟨⟨codes, rest⟩, -, h⟩ := Option.bind_eq_some_iff.mp h
    simp only at h
    split at h
    · obtain ⟨⟨value, rest'⟩, hvalue, h⟩ := Option.bind_eq_some_iff.mp h
      have hfirst := ih.value hvalue
      simp only at h
      split at h
      · obtain rfl := Option.some.inj h
        simpa using hfirst
      · obtain ⟨⟨members, rest''⟩, hmembers, h⟩ := Option.bind_eq_some_iff.mp h
        obtain rfl := Option.some.inj h
        exact List.forall_mem_cons.mpr ⟨hfirst, ih.members hmembers⟩
      · cases h
    · cases h
  · cases h

end

theorem scanned_all {p : Value → Bool} (hp : Readable p) (fuel : Nat) : Scanned p fuel := by
  induction fuel with
  | zero =>
      refine ⟨fun h => ?_, fun h => ?_, fun h => ?_⟩
      · simp [scanValue] at h
      · simp [scanItems] at h
      · simp [scanMembers] at h
  | succ fuel ih => exact ⟨scanned_value hp ih, scanned_items ih, scanned_members ih⟩

theorem everywhere_of_loads {p : Value → Bool} (hp : Readable p) {text : List Char} {value : Value}
    (h : loads text = some value) : value.everywhere p = true := by
  rw [loads] at h
  obtain ⟨⟨value', rest⟩, hscan, h⟩ := Option.bind_eq_some_iff.mp h
  simp only at h
  split_ifs at h
  obtain rfl := Option.some.inj h
  exact (scanned_all hp _).value hscan

theorem read_read (x : Double) : Double.read (Double.read x) = Double.read x := by
  by_cases h : x.isFinite = false ∧ x.fraction ≠ 0
  · rw [Double.read.eq_def x, if_pos h, read_nan]
  · have heq : Double.read x = x := if_neg h
    rw [heq, heq]

mutual

/-- The JSON form of a value is what a text can hold. -/
theorem everywhere_asJson {p : Value → Bool} (hp : Readable p) :
    ∀ value : Value, value.asJson.everywhere p = true
  | .null => hp.null
  | .bool b => hp.bool b
  | .int n => hp.int n
  | .float x => hp.float _ (read_read x)
  | .str s => hp.str s
  | .list items => by
      rw [Value.asJson, Value.everywhere, hp.list, Bool.true_and, everywhereList_iff]
      exact everywhere_asJsonList hp items
  | .tuple items => by
      rw [Value.asJson, Value.everywhere, hp.list, Bool.true_and, everywhereList_iff]
      exact everywhere_asJsonList hp items
  | .dict items => everywhere_dictValue hp (everywhere_asJsonDict hp items)
  | .keyed _ value rest =>
      everywhere_dictValue hp
        (List.forall_mem_cons.mpr ⟨everywhere_asJson hp value, everywhere_asJsonKeyed hp rest⟩)
  | .other => hp.other

theorem everywhere_asJsonList {p : Value → Bool} (hp : Readable p) :
    ∀ values : List Value, ∀ v ∈ asJsonList values, v.everywhere p = true
  | [] => by simp [asJsonList]
  | value :: values =>
      List.forall_mem_cons.mpr ⟨everywhere_asJson hp value, everywhere_asJsonList hp values⟩

theorem everywhere_asJsonDict {p : Value → Bool} (hp : Readable p) :
    ∀ items : Dict, ∀ member ∈ asJsonDict items, member.2.everywhere p = true
  | [] => by simp [asJsonDict]
  | (_, value) :: items =>
      List.forall_mem_cons.mpr ⟨everywhere_asJson hp value, everywhere_asJsonDict hp items⟩

theorem everywhere_asJsonKeyed {p : Value → Bool} (hp : Readable p) :
    ∀ items : List (Key × Value), ∀ member ∈ asJsonKeyed items, member.2.everywhere p = true
  | [] => by simp [asJsonKeyed]
  | (_, value) :: items =>
      List.forall_mem_cons.mpr ⟨everywhere_asJson hp value, everywhere_asJsonKeyed hp items⟩

end

/-! ## Plain values -/

/-- A native value whose dicts are listed in key order. -/
def Plain (value : Value) : Prop := value.native = true ∧ value.ordered = true

theorem plain_list {values : List Value} : Plain (.list values) ↔ ∀ v ∈ values, Plain v := by
  simp only [Plain, Value.native, Value.ordered, Value.everywhere, Bool.true_and,
    everywhereList_iff]
  exact ⟨fun h v hv => ⟨h.1 v hv, h.2 v hv⟩, fun h => ⟨fun v hv => (h v hv).1, fun v hv => (h v hv).2⟩⟩

theorem plain_dict {items : Dict} :
    Plain (.dict items) ↔ sortedKeys items = true ∧ ∀ item ∈ items, Plain item.2 := by
  simp only [Plain, Value.native, Value.ordered, Value.everywhere, Bool.true_and,
    everywhereDict_iff, Bool.and_eq_true]
  constructor
  · rintro ⟨hnative, hsorted, hordered⟩
    exact ⟨hsorted, fun item hitem => ⟨hnative item hitem, hordered item hitem⟩⟩
  · rintro ⟨hsorted, hitems⟩
    exact ⟨fun item hitem => (hitems item hitem).1, hsorted, fun item hitem => (hitems item hitem).2⟩

theorem readable_native : Readable fun | .tuple _ => false | .keyed .. => false | _ => true :=
  ⟨rfl, fun _ => rfl, fun _ => rfl, fun _ _ => rfl, fun _ => rfl, rfl, fun _ => rfl, fun _ _ => rfl⟩

theorem readable_ordered : Readable fun | .dict items => sortedKeys items | _ => true :=
  ⟨rfl, fun _ => rfl, fun _ => rfl, fun _ _ => rfl, fun _ => rfl, rfl, fun _ => rfl, fun _ h => h⟩

theorem plain_of_loads {text : List Char} {value : Value} (h : loads text = some value) :
    Plain value :=
  ⟨everywhere_of_loads readable_native h, everywhere_of_loads readable_ordered h⟩

theorem plain_asJson (value : Value) : Plain value.asJson :=
  ⟨everywhere_asJson readable_native value, everywhere_asJson readable_ordered value⟩

/-! ## What JSON leaves as it is -/

/-- Every float is a number, an infinity, or the NaN that is read. -/
def Value.readFloats : Value → Bool := Value.everywhere fun
  | .float x => Double.read x = x
  | _ => true

theorem readable_readFloats : Readable fun | .float x => Double.read x = x | _ => true :=
  ⟨rfl, fun _ => rfl, fun _ => rfl, fun _ h => by simpa using h, fun _ => rfl, rfl, fun _ => rfl,
    fun _ _ => rfl⟩

mutual

/-- JSON makes nothing else of a plain value. -/
theorem asJson_of_plain : ∀ value : Value, value.native = true → value.ordered = true →
    value.readFloats = true → value.asJson = value
  | .null, _, _, _ => rfl
  | .bool _, _, _, _ => rfl
  | .int _, _, _, _ => rfl
  | .float x, _, _, h => by
      have hread : Double.read x = x := by simpa [Value.readFloats, Value.everywhere] using h
      rw [Value.asJson, hread]
  | .str _, _, _, _ => rfl
  | .list items, hnative, hordered, hfloats => by
      simp only [Value.native, Value.ordered, Value.readFloats, Value.everywhere,
        Bool.true_and] at hnative hordered hfloats
      rw [Value.asJson, asJsonList_of_plain items hnative hordered hfloats]
  | .tuple _, hnative, _, _ => by
      simp [Value.native, Value.everywhere] at hnative
  | .dict items, hnative, hordered, hfloats => by
      simp only [Value.native, Value.ordered, Value.readFloats, Value.everywhere,
        Bool.true_and, Bool.and_eq_true] at hnative hordered hfloats
      rw [Value.asJson, asJsonDict_of_plain items hnative hordered.2 hfloats, dictValue,
        dictOf_sorted hordered.1]
      rfl
  | .keyed _ _ _, hnative, _, _ => by
      simp [Value.native, Value.everywhere] at hnative
  | .other, _, _, _ => rfl

theorem asJsonList_of_plain : ∀ values : List Value,
    everywhereList (fun | .tuple _ => false | .keyed .. => false | _ => true) values = true →
    everywhereList (fun | .dict items => sortedKeys items | _ => true) values = true →
    everywhereList (fun | .float x => Double.read x = x | _ => true) values = true →
    asJsonList values = values
  | [], _, _, _ => rfl
  | value :: values, hnative, hordered, hfloats => by
      rw [everywhereList, Bool.and_eq_true] at hnative hordered hfloats
      rw [asJsonList, asJson_of_plain value hnative.1 hordered.1 hfloats.1,
        asJsonList_of_plain values hnative.2 hordered.2 hfloats.2]

theorem asJsonDict_of_plain : ∀ items : Dict,
    everywhereDict (fun | .tuple _ => false | .keyed .. => false | _ => true) items = true →
    everywhereDict (fun | .dict items => sortedKeys items | _ => true) items = true →
    everywhereDict (fun | .float x => Double.read x = x | _ => true) items = true →
    asJsonDict items = items.map fun item => (some item.1, item.2)
  | [], _, _, _ => rfl
  | (key, value) :: items, hnative, hordered, hfloats => by
      rw [everywhereDict, Bool.and_eq_true] at hnative hordered hfloats
      rw [asJsonDict, asJson_of_plain value hnative.1 hordered.1 hfloats.1,
        asJsonDict_of_plain items hnative.2 hordered.2 hfloats.2, List.map_cons]

end

mutual

/-- `dumps` writes numbers only. -/
theorem readFloats_of_dumps : ∀ (value : Value) {text : List Char}, value.native = true →
    dumps value = .ok text → value.readFloats = true
  | .null, _, _, _ => rfl
  | .bool _, _, _, _ => rfl
  | .int _, _, _, _ => rfl
  | .float x, text, _, h => by
      simp only [dumps, dumpsFloat, bind_eq_ok, raiseIf_eq_ok] at h
      obtain ⟨-, hfinite, -⟩ := h
      have hread : Double.read x = x := if_neg fun hnan => hfinite hnan.1
      simpa [Value.readFloats, Value.everywhere] using hread
  | .str _, _, _, _ => rfl
  | .list items, text, hnative, h => by
      simp only [dumps, bind_eq_ok] at h
      obtain ⟨texts, htexts, -⟩ := h
      simp only [Value.native, Value.everywhere, Bool.true_and] at hnative
      simpa [Value.readFloats, Value.everywhere] using readFloats_of_dumpsList items hnative htexts
  | .tuple _, _, hnative, _ => by
      simp [Value.native, Value.everywhere] at hnative
  | .dict items, text, hnative, h => by
      simp only [dumps, bind_eq_ok] at h
      obtain ⟨texts, htexts, -⟩ := h
      simp only [Value.native, Value.everywhere, Bool.true_and] at hnative
      simpa [Value.readFloats, Value.everywhere] using readFloats_of_dumpsDict items hnative htexts
  | .keyed _ _ _, _, hnative, _ => by
      simp [Value.native, Value.everywhere] at hnative
  | .other, _, _, h => by
      cases h

theorem readFloats_of_dumpsList : ∀ (values : List Value) {texts : List (List Char)},
    everywhereList (fun | .tuple _ => false | .keyed .. => false | _ => true) values = true →
    dumpsList values = .ok texts →
    everywhereList (fun | .float x => Double.read x = x | _ => true) values = true
  | [], _, _, _ => rfl
  | value :: values, texts, hnative, h => by
      simp only [dumpsList, bind_eq_ok] at h
      obtain ⟨text, htext, texts', htexts, -⟩ := h
      rw [everywhereList, Bool.and_eq_true] at hnative ⊢
      exact ⟨readFloats_of_dumps value hnative.1 htext,
        readFloats_of_dumpsList values hnative.2 htexts⟩

theorem readFloats_of_dumpsDict : ∀ (items : Dict) {texts : List (List Char)},
    everywhereDict (fun | .tuple _ => false | .keyed .. => false | _ => true) items = true →
    dumpsDict items = .ok texts →
    everywhereDict (fun | .float x => Double.read x = x | _ => true) items = true
  | [], _, _, _ => rfl
  | (key, value) :: items, texts, hnative, h => by
      simp only [dumpsDict, bind_eq_ok] at h
      obtain ⟨text, htext, texts', htexts, -⟩ := h
      rw [everywhereDict, Bool.and_eq_true] at hnative ⊢
      exact ⟨readFloats_of_dumps value hnative.1 htext,
        readFloats_of_dumpsDict items hnative.2 htexts⟩

end

/-- What was read from JSON is its own JSON form. -/
theorem asJson_of_loads {text : List Char} {value : Value} (h : loads text = some value) :
    value.asJson = value := by
  obtain ⟨hnative, hordered⟩ := plain_of_loads h
  exact asJson_of_plain value hnative hordered (everywhere_of_loads readable_readFloats h)

theorem asJson_item_of_loads {text : List Char} {items : Dict} (h : loads text = some (.dict items))
    {item : String × Value} (hitem : item ∈ items) : item.2.asJson = item.2 := by
  obtain ⟨hnative, hordered⟩ := (plain_dict.mp (plain_of_loads h)).2 item hitem
  have hfloats := everywhere_of_loads readable_readFloats h
  rw [Value.everywhere, Bool.and_eq_true, everywhereDict_iff] at hfloats
  exact asJson_of_plain item.2 hnative hordered (hfloats.2 item hitem)

theorem asJson_asJson (value : Value) : value.asJson.asJson = value.asJson := by
  obtain ⟨hnative, hordered⟩ := plain_asJson value
  exact asJson_of_plain _ hnative hordered (everywhere_asJson readable_readFloats value)

/-- `json.loads(json.dumps(value))` -/
theorem loads_dumps {value : Value} {text : List Char} (h : dumps value = .ok text) :
    loads text = some value.asJson :=
  loads_write ((compact_write value 0).trans h)

/-- A value survives its JSON text exactly when it is plain. -/
theorem loads_dumps_iff {value : Value} {text : List Char} (h : dumps value = .ok text) :
    loads text = some value ↔ Plain value := by
  refine ⟨plain_of_loads, fun hplain => ?_⟩
  rw [loads_dumps h, asJson_of_plain value hplain.1 hplain.2 (readFloats_of_dumps value hplain.1 h)]

end PowerFramework.Lib.Json
