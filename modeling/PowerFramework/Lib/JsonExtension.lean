import PowerFramework.Lib.JsonRoundTrip
/-!
# Texts behind a JSON value

A scanned value stays scanned when more text follows, as long as the first character of it can
continue neither a number nor an escape (`scanValue_append`).  So a text that is a JSON value is
none any more when such a character is put behind it (`loads_append`).
-/

namespace PowerFramework.Lib.Json

open Failure JsonNumber

/-- A text that continues nothing in front of it: no number, no escape, no blanks. -/
def Breaks (more : List Char) : Prop :=
  ∃ d tail, more = d :: tail ∧ endsNumber d = true ∧ isSpace d = false ∧ d ≠ '\\' ∧ d ≠ 'u'

theorem Breaks.numberEnd {more : List Char} (h : Breaks more) : NumberEnd more := by
  obtain ⟨d, tail, rfl, hd, -⟩ := h
  exact numberEnd_cons hd

theorem Breaks.skip_ne_nil {more : List Char} (h : Breaks more) : skip more ≠ [] := by
  obtain ⟨d, tail, rfl, -, hspace, -⟩ := h
  rw [skip_cons hspace]
  exact List.cons_ne_nil _ _

/-! ## Strings -/

theorem scanHex4_append {text rest : List Char} {n : Nat} (h : scanHex4 text = some (n, rest))
    (more : List Char) : scanHex4 (text ++ more) = some (n, rest ++ more) := by
  unfold scanHex4 at h
  split at h
  · rename_i a b c d rest'
    simp only [Option.bind_eq_bind, Option.bind_eq_some_iff, Option.pure_def, Option.some.injEq,
      Prod.mk.injEq] at h
    obtain ⟨x, hx, y, hy, z, hz, w, hw, rfl, rfl⟩ := h
    simp only [List.cons_append, scanHex4, hx, hy, hz, hw, Option.bind_eq_bind,
      Option.bind_some, Option.pure_def]
  · cases h

section
variable {more : List Char} (hmore : Breaks more)
include hmore

theorem scanLow_append {text rest : List Char} {n : Nat} (h : scanLow text = some (n, rest)) :
    scanLow (text ++ more) = some (n, rest ++ more) := by
  obtain ⟨d, tail, rfl, -, -, hback, hu⟩ := hmore
  unfold scanLow at h
  split at h
  · exact scanHex4_append h _
  · rename_i hnot
    obtain ⟨rfl, rfl⟩ := Prod.mk.inj (Option.some.inj h)
    unfold scanLow
    split
    · rename_i rest' heq
      cases text with
      | nil => exact absurd (List.cons.inj heq).1 hback
      | cons c text =>
          obtain ⟨rfl, heq'⟩ := List.cons.inj heq
          cases text with
          | nil => exact absurd (List.cons.inj heq').1 hu
          | cons c' text =>
              obtain ⟨rfl, -⟩ := List.cons.inj heq'
              exact absurd rfl (hnot text)
    · rfl

theorem scanEscape_append {text rest : List Char} {code : Nat}
    (h : scanEscape text = some (code, rest)) :
    scanEscape (text ++ more) = some (code, rest ++ more) := by
  cases text with
  | nil => cases h
  | cons c text =>
      rw [scanEscape] at h
      rw [List.cons_append, scanEscape]
      by_cases hc : c = 'u'
      · rw [if_pos hc] at h ⊢
        obtain ⟨⟨high, after⟩, hhigh, h⟩ := Option.bind_eq_some_iff.mp h
        simp only at h
        rw [scanHex4_append hhigh]
        simp only [Option.bind_eq_bind, Option.bind_some]
        by_cases hpair : 0xD800 ≤ high ∧ high ≤ 0xDBFF
        · rw [if_pos hpair] at h ⊢
          obtain ⟨⟨low, behind⟩, hlow, h⟩ := Option.bind_eq_some_iff.mp h
          simp only at h
          rw [scanLow_append hmore hlow]
          simp only [Option.bind_some]
          by_cases hlow' : 0xDC00 ≤ low ∧ low ≤ 0xDFFF
          · rw [if_pos hlow'] at h ⊢
            obtain ⟨rfl, rfl⟩ := Prod.mk.inj (Option.some.inj h)
            rfl
          · rw [if_neg hlow'] at h ⊢
            obtain ⟨rfl, rfl⟩ := Prod.mk.inj (Option.some.inj h)
            rfl
        · rw [if_neg hpair] at h ⊢
          obtain ⟨rfl, rfl⟩ := Prod.mk.inj (Option.some.inj h)
          rfl
      · rw [if_neg hc] at h ⊢
        obtain ⟨n, hn, h⟩ := Option.map_eq_some_iff.mp h
        cases h
        rw [hn]
        rfl

theorem scanString_append {fuel fuel' : Nat} (hfuel : fuel ≤ fuel') {text rest : List Char}
    {codes : List Nat} (h : scanString fuel text = some (codes, rest)) :
    scanString fuel' (text ++ more) = some (codes, rest ++ more) := by
  induction fuel generalizing fuel' text rest codes with
  | zero => simp [scanString] at h
  | succ fuel ih =>
      obtain ⟨fuel', rfl⟩ := Nat.exists_eq_succ_of_ne_zero (by omega : fuel' ≠ 0)
      have hle : fuel ≤ fuel' := by omega
      cases text with
      | nil => simp [scanString] at h
      | cons c text =>
          rw [scanString] at h
          rw [List.cons_append, scanString]
          by_cases hquote : c = '"'
          · rw [if_pos hquote] at h ⊢
            cases h
            rfl
          rw [if_neg hquote] at h ⊢
          by_cases hback : c = '\\'
          · rw [if_pos hback] at h ⊢
            obtain ⟨⟨code, after⟩, hcode, h⟩ := Option.bind_eq_some_iff.mp h
            obtain ⟨⟨codes', behind⟩, hcodes, h⟩ := Option.bind_eq_some_iff.mp h
            cases h
            rw [scanEscape_append hmore hcode]
            simp only [Option.bind_eq_bind, Option.bind_some,
              ih hle hcodes, Option.pure_def]
          rw [if_neg hback] at h ⊢
          by_cases hcontrol : c.toNat < 32
          · rw [if_pos hcontrol] at h
            cases h
          · rw [if_neg hcontrol] at h ⊢
            obtain ⟨⟨codes', behind⟩, hcodes, h⟩ := Option.bind_eq_some_iff.mp h
            cases h
            simp only [ih hle hcodes, Option.bind_eq_bind, Option.bind_some,
              Option.pure_def]

/-! ## Values -/

omit hmore in
theorem literal_append_of {word : String} {value : Value} {text : List Char}
    {result : Value × List Char} (h : literal word value text = some result) (more : List Char) :
    literal word value (text ++ more) = some (result.1, result.2 ++ more) := by
  rw [literal] at h
  split_ifs at h with hword
  cases h
  obtain ⟨rest, rfl⟩ := List.isPrefixOf_iff_prefix.mp hword
  rw [List.append_assoc, literal_append, List.drop_left]

theorem scanNumberValue_append (text : List Char) :
    scanNumberValue (text ++ more) = (scanNumberValue text).map (withRest more) := by
  rw [scanNumberValue, scanNumberValue, scanNumber_append hmore.numberEnd]
  cases scanNumber text with
  | none => rfl
  | some scanned =>
      obtain ⟨number, rest⟩ := scanned
      cases number with
      | int n =>
          simp only [withRest, Option.map_some, Option.bind_eq_bind, Option.bind_some]
          split_ifs <;> rfl
      | float x => rfl

omit hmore in
theorem skip_append {text : List Char} (h : skip text ≠ []) (more : List Char) :
    skip (text ++ more) = skip text ++ more := by
  induction text with
  | nil => exact absurd rfl h
  | cons c text ih =>
      by_cases hc : isSpace c = true
      · have hcons : ∀ rest, skip (c :: rest) = skip rest := fun rest => by
          rw [skip, List.dropWhile_cons_of_pos hc]
          rfl
        rw [hcons] at h
        rw [List.cons_append, hcons, hcons, ih h]
      · have hc : isSpace c = false := by simpa using hc
        rw [List.cons_append, skip_cons hc, skip_cons hc, List.cons_append]

omit hmore in
theorem skip_append_of_cons {text rest : List Char} {c : Char} (h : skip text = c :: rest)
    (more : List Char) : skip (text ++ more) = c :: (rest ++ more) := by
  rw [skip_append (by rw [h]; exact List.cons_ne_nil _ _), h, List.cons_append]

end

/-- What the three scanners find with this much fuel they also find in front of more text. -/
structure Extends (more : List Char) (fuel : Nat) : Prop where
  value : ∀ {fuel' text value rest}, fuel ≤ fuel' → scanValue fuel text = some (value, rest) →
    scanValue fuel' (text ++ more) = some (value, rest ++ more)
  items : ∀ {fuel' text items rest}, fuel ≤ fuel' → scanItems fuel text = some (items, rest) →
    scanItems fuel' (text ++ more) = some (items, rest ++ more)
  members : ∀ {fuel' text members rest}, fuel ≤ fuel' →
    scanMembers fuel text = some (members, rest) →
    scanMembers fuel' (text ++ more) = some (members, rest ++ more)

section
variable {more : List Char} (hmore : Breaks more) {fuel : Nat} (ih : Extends more fuel)
include hmore ih

theorem extends_value {fuel' : Nat} (hfuel : fuel + 1 ≤ fuel') {text rest : List Char}
    {value : Value} (h : scanValue (fuel + 1) text = some (value, rest)) :
    scanValue fuel' (text ++ more) = some (value, rest ++ more) := by
  obtain ⟨fuel', rfl⟩ := Nat.exists_eq_succ_of_ne_zero (by omega : fuel' ≠ 0)
  have hle : fuel ≤ fuel' := by omega
  cases text with
  | nil => simp [scanValue] at h
  | cons c text =>
      rw [scanValue] at h
      rw [List.cons_append, scanValue]
      by_cases hquote : c = '"'
      · rw [if_pos hquote] at h ⊢
        obtain ⟨⟨codes, after⟩, hcodes, h⟩ := Option.bind_eq_some_iff.mp h
        cases h
        rw [scanString_append hmore (by rw [List.length_append]; omega) hcodes]
        rfl
      rw [if_neg hquote] at h ⊢
      by_cases hbrace : c = '{'
      · rw [if_pos hbrace] at h ⊢
        split at h
        · rename_i after hskip
          cases h
          rw [skip_append_of_cons hskip]
          rfl
        · rename_i hnot
          obtain ⟨⟨members, after⟩, hmembers, h⟩ := Option.bind_eq_some_iff.mp h
          cases h
          have hne : skip text ≠ [] := by
            intro hnil
            rw [hnil] at hmembers
            cases fuel <;> simp [scanMembers] at hmembers
          rw [skip_append hne]
          split
          · rename_i after' heq
            cases hskip : skip text with
            | nil => exact absurd hskip hne
            | cons d rest' =>
                rw [hskip, List.cons_append] at heq
                obtain ⟨rfl, -⟩ := List.cons.inj heq
                exact absurd hskip (hnot rest')
          · rw [ih.members hle hmembers]
            rfl
      rw [if_neg hbrace] at h ⊢
      by_cases hbracket : c = '['
      · rw [if_pos hbracket] at h ⊢
        split at h
        · rename_i after hskip
          cases h
          rw [skip_append_of_cons hskip]
          rfl
        · rename_i hnot
          obtain ⟨⟨items, after⟩, hitems, h⟩ := Option.bind_eq_some_iff.mp h
          cases h
          have hne : skip text ≠ [] := by
            intro hnil
            rw [hnil] at hitems
            cases fuel with
            | zero => simp [scanItems] at hitems
            | succ fuel => cases fuel <;> simp [scanItems, scanValue] at hitems
          rw [skip_append hne]
          split
          · rename_i after' heq
            cases hskip : skip text with
            | nil => exact absurd hskip hne
            | cons d rest' =>
                rw [hskip, List.cons_append] at heq
                obtain ⟨rfl, -⟩ := List.cons.inj heq
                exact absurd hskip (hnot rest')
          · rw [ih.items hle hitems]
            rfl
      rw [if_neg hbracket] at h ⊢
      split_ifs at h ⊢
      · exact literal_append_of h more
      · exact literal_append_of h more
      · exact literal_append_of h more
      · exact literal_append_of h more
      · exact literal_append_of h more
      · rw [← List.cons_append, scanNumberValue_append hmore]
        rcases Option.or_eq_some_iff.mp h with h | ⟨hnone, h⟩
        · rw [h]
          rfl
        · rw [hnone]
          exact literal_append_of h more

omit hmore in
theorem extends_items {fuel' : Nat} (hfuel : fuel + 1 ≤ fuel') {text rest : List Char}
    {items : List Value} (h : scanItems (fuel + 1) text = some (items, rest)) :
    scanItems fuel' (text ++ more) = some (items, rest ++ more) := by
  obtain ⟨fuel', rfl⟩ := Nat.exists_eq_succ_of_ne_zero (by omega : fuel' ≠ 0)
  have hle : fuel ≤ fuel' := by omega
  rw [scanItems] at h ⊢
  obtain ⟨⟨value, after⟩, hvalue, h⟩ := Option.bind_eq_some_iff.mp h
  rw [ih.value hle hvalue]
  simp only [Option.bind_eq_bind, Option.bind_some] at h ⊢
  split at h
  · rename_i behind hskip
    cases h
    rw [skip_append_of_cons hskip]
    rfl
  · rename_i behind hskip
    obtain ⟨⟨values, last⟩, hvalues, h⟩ := Option.bind_eq_some_iff.mp h
    cases h
    rw [skip_append_of_cons hskip]
    have hne : skip behind ≠ [] := by
      intro hnil
      rw [hnil] at hvalues
      cases fuel with
      | zero => simp [scanItems] at hvalues
      | succ fuel => cases fuel <;> simp [scanItems, scanValue] at hvalues
    simp only [skip_append hne, ih.items hle hvalues, Option.bind_some]
    rfl
  · cases h

theorem extends_members {fuel' : Nat} (hfuel : fuel + 1 ≤ fuel') {text rest : List Char}
    {members : List (Option String × Value)}
    (h : scanMembers (fuel + 1) text = some (members, rest)) :
    scanMembers fuel' (text ++ more) = some (members, rest ++ more) := by
  obtain ⟨fuel', rfl⟩ := Nat.exists_eq_succ_of_ne_zero (by omega : fuel' ≠ 0)
  have hle : fuel ≤ fuel' := by omega
  rw [scanMembers.eq_def] at h
  split at h
  · cases h
  · rename_i fuel'' text' heq
    obtain rfl := Nat.succ.inj heq
    rw [List.cons_append, scanMembers]
    obtain ⟨⟨codes, after⟩, hcodes, h⟩ := Option.bind_eq_some_iff.mp h
    rw [scanString_append hmore (by rw [List.length_append]; omega) hcodes]
    simp only [Option.bind_eq_bind, Option.bind_some] at h ⊢
    split at h
    · rename_i behind hskip
      rw [skip_append_of_cons hskip]
      obtain ⟨⟨value, after'⟩, hvalue, h⟩ := Option.bind_eq_some_iff.mp h
      have hne : skip behind ≠ [] := by
        intro hnil
        rw [hnil] at hvalue
        cases fuel <;> simp [scanValue] at hvalue
      simp only [skip_append hne, ih.value hle hvalue, Option.bind_some] at h ⊢
      split at h
      · rename_i last hskip'
        cases h
        rw [skip_append_of_cons hskip']
        rfl
      · rename_i last hskip'
        obtain ⟨⟨members', end'⟩, hmembers, h⟩ := Option.bind_eq_some_iff.mp h
        cases h
        rw [skip_append_of_cons hskip']
        have hne' : skip last ≠ [] := by
          intro hnil
          rw [hnil] at hmembers
          cases fuel <;> simp [scanMembers] at hmembers
        simp only [skip_append hne', ih.members hle hmembers, Option.bind_some]
        rfl
      · cases h
    · cases h
  · cases h

end

theorem extends_all {more : List Char} (hmore : Breaks more) (fuel : Nat) : Extends more fuel := by
  induction fuel with
  | zero =>
      refine ⟨fun _ h => ?_, fun _ h => ?_, fun _ h => ?_⟩
      · simp [scanValue] at h
      · simp [scanItems] at h
      · simp [scanMembers] at h
  | succ fuel ih =>
      exact ⟨fun hle h => extends_value hmore ih hle h, fun hle h => extends_items ih hle h,
        fun hle h => extends_members hmore ih hle h⟩

theorem scanValue_append {more : List Char} (hmore : Breaks more) {fuel fuel' : Nat}
    (hfuel : fuel ≤ fuel') {text rest : List Char} {value : Value}
    (h : scanValue fuel text = some (value, rest)) :
    scanValue fuel' (text ++ more) = some (value, rest ++ more) :=
  (extends_all hmore fuel).value hfuel h

/-- A text that is a JSON value is none with something behind it. -/
theorem loads_append {text more : List Char} (hmore : Breaks more)
    (h : (loads text).isSome = true) : loads (text ++ more) = none := by
  obtain ⟨value, h⟩ := Option.isSome_iff_exists.mp h
  rw [loads] at h ⊢
  obtain ⟨⟨value', rest⟩, hscan, h⟩ := Option.bind_eq_some_iff.mp h
  simp only at h
  split_ifs at h with hrest
  have hne : skip text ≠ [] := by
    intro hnil
    rw [hnil] at hscan
    simp [scanValue] at hscan
  simp only [skip_append hne]
  rw [scanValue_append hmore (by rw [List.length_append]; omega) hscan]
  have hmerged : skip (rest ++ more) = skip more :=
    skip_blank (by
      rw [List.all_eq_true]
      intro c hc
      have hdrop := List.dropWhile_eq_nil_iff.mp hrest
      exact hdrop c hc) more
  simp only [Option.bind_eq_bind, Option.bind_some, hmerged, if_neg hmore.skip_ne_nil]

end PowerFramework.Lib.Json
