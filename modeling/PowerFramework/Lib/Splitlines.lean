import Mathlib.Data.List.DropRight
import Mathlib.Data.List.Basic
/-!
# `str.splitlines`

A text cut at every Unicode line boundary, and the blanks that `str.strip` removes.  Cutting
respects the concatenation of a text that ends in a boundary with another one
(`splitlines_append`), and `endedPart` and `openPart` split a text behind its last boundary.
-/

namespace PowerFramework.Lib.Splitlines

def isBoundary (c : Char) : Bool :=
  (10 ≤ c.toNat && c.toNat ≤ 13) || (28 ≤ c.toNat && c.toNat ≤ 30) || c.toNat == 0x85 ||
    c.toNat == 0x2028 || c.toNat == 0x2029

/-- `c.isspace()` -/
def isWhitespace (c : Char) : Bool :=
  (9 ≤ c.toNat && c.toNat ≤ 13) || (28 ≤ c.toNat && c.toNat ≤ 32) || c.toNat == 0x85 ||
    c.toNat == 0xA0 || c.toNat == 0x1680 || (0x2000 ≤ c.toNat && c.toNat ≤ 0x200A) ||
    c.toNat == 0x2028 || c.toNat == 0x2029 || c.toNat == 0x202F || c.toNat == 0x205F ||
    c.toNat == 0x3000

/-- `not text.strip()` -/
def isBlank (text : List Char) : Bool := text.all isWhitespace

/-- `text.splitlines()` -/
def splitlines : List Char → List (List Char)
  | [] => []
  | '\r' :: '\n' :: rest => [] :: splitlines rest
  | c :: rest =>
      if isBoundary c then [] :: splitlines rest
      else match splitlines rest with
        | [] => [[c]]
        | line :: lines => (c :: line) :: lines

/-- The text is empty or ends in a line boundary. -/
def Ended (text : List Char) : Prop :=
  text = [] ∨ ∃ front c, text = front ++ [c] ∧ isBoundary c = true

/-- The text up to its last boundary. -/
def endedPart (text : List Char) : List Char := text.rdropWhile fun c => !isBoundary c

/-- The text behind its last boundary. -/
def openPart (text : List Char) : List Char := text.rtakeWhile fun c => !isBoundary c

theorem endedPart_append_openPart (text : List Char) : endedPart text ++ openPart text = text :=
  List.rdropWhile_append_rtakeWhile

theorem ended_endedPart (text : List Char) : Ended (endedPart text) := by
  rcases List.eq_nil_or_concat (endedPart text) with hnil | ⟨front, last, hended⟩
  · exact Or.inl hnil
  · have hne : endedPart text ≠ [] := by simp [hended]
    have hlast := List.rdropWhile_last_not _ text hne
    have hget : (endedPart text).getLast hne = last := by simp [hended]
    refine Or.inr ⟨front, last, by rw [hended, List.concat_eq_append], ?_⟩
    have : ¬ (!isBoundary ((endedPart text).getLast hne)) = true := hlast
    simpa [hget] using this

theorem isBoundary_of_mem_openPart {text : List Char} {c : Char} (h : c ∈ openPart text) :
    isBoundary c = false := by
  simpa using List.mem_rtakeWhile_imp h

theorem splitlines_cons {c : Char} (hc : isBoundary c = true) {rest : List Char}
    (hrest : c = '\r' → rest.head? ≠ some '\n') :
    splitlines (c :: rest) = [] :: splitlines rest := by
  rw [splitlines, if_pos hc]
  rintro tail rfl rfl
  exact hrest rfl rfl

theorem splitlines_cons_of_not {c : Char} (hc : isBoundary c = false) (rest : List Char) :
    splitlines (c :: rest) = match splitlines rest with
      | [] => [[c]]
      | line :: lines => (c :: line) :: lines := by
  rw [splitlines, if_neg (by simp [hc])]
  rintro tail rfl rfl
  simp [isBoundary] at hc

theorem splitlines_ne_nil {text : List Char} (h : text ≠ []) : splitlines text ≠ [] := by
  fun_cases splitlines text with
  | case1 => exact absurd rfl h
  | case2 => simp
  | case3 => simp
  | case4 => simp
  | case5 => simp

/-- The lines are made of the characters of the text. -/
theorem mem_of_mem_splitlines {text line : List Char} (h : line ∈ splitlines text) {c : Char}
    (hc : c ∈ line) : c ∈ text := by
  fun_induction splitlines text generalizing line with
  | case1 => cases h
  | case2 tail ih =>
      rcases List.mem_cons.mp h with rfl | h
      · cases hc
      · exact List.mem_cons_of_mem _ (List.mem_cons_of_mem _ (ih h hc))
  | case3 d tail hlf hd ih =>
      rcases List.mem_cons.mp h with rfl | h
      · cases hc
      · exact List.mem_cons_of_mem _ (ih h hc)
  | case4 d tail hlf hd hnil ih =>
      obtain rfl := List.mem_singleton.mp h
      obtain rfl := List.mem_singleton.mp hc
      exact List.mem_cons_self
  | case5 d tail hlf hd first lines hlines ih =>
      rcases List.mem_cons.mp h with rfl | h
      · rcases List.mem_cons.mp hc with rfl | hc
        · exact List.mem_cons_self
        · have hmem : first ∈ splitlines tail := by rw [hlines]; exact List.mem_cons_self
          exact List.mem_cons_of_mem _ (ih hmem hc)
      · have hmem : line ∈ splitlines tail := by rw [hlines]; exact List.mem_cons_of_mem _ h
        exact List.mem_cons_of_mem _ (ih hmem hc)

/-- Between a boundary and a text that does not complete it a text is cut. -/
theorem splitlines_append {text rest : List Char} (h : Ended text)
    (hrest : text.getLast? = some '\r' → rest.head? ≠ some '\n') :
    splitlines (text ++ rest) = splitlines text ++ splitlines rest := by
  rcases h with rfl | ⟨front, b, rfl, hb⟩
  · rfl
  replace hrest : b = '\r' → rest.head? ≠ some '\n' := fun hcr => hrest (by simp [hcr])
  rw [List.append_assoc, List.singleton_append]
  fun_induction splitlines front with
  | case1 =>
      rw [List.nil_append, List.nil_append, splitlines_cons hb hrest,
        splitlines_cons hb (by simp)]
      rfl
  | case2 tail ih => simpa [splitlines] using ih
  | case3 c tail hlf hc ih =>
      have hcut : ∀ more, splitlines (c :: (tail ++ b :: more)) =
          [] :: splitlines (tail ++ b :: more) ∨ (tail = [] ∧ c = '\r' ∧ b = '\n') := by
        intro more
        by_cases hcr : c = '\r' ∧ (tail ++ b :: more).head? = some '\n'
        · cases tail with
          | nil => exact Or.inr ⟨rfl, hcr.1, by simpa using hcr.2⟩
          | cons d tail =>
              have hd : d = '\n' := by simpa using hcr.2
              exact (hlf tail hcr.1 (by rw [hd])).elim
        · exact Or.inl (splitlines_cons hc fun hr hhead => hcr ⟨hr, hhead⟩)
      rcases hcut rest with hcut1 | ⟨rfl, rfl, rfl⟩
      · rcases hcut [] with hcut2 | ⟨rfl, rfl, rfl⟩
        · rw [List.cons_append, hcut1, List.cons_append, hcut2, ih, List.cons_append]
        · simp [splitlines]
      · simp [splitlines]
  | case4 c tail hlf hc hnil ih =>
      have hnot : isBoundary c = false := by simpa using hc
      rw [List.cons_append, List.cons_append, splitlines_cons_of_not hnot,
        splitlines_cons_of_not hnot, ih]
      cases hlines : splitlines (tail ++ [b]) with
      | nil => exact absurd hlines (splitlines_ne_nil (by simp))
      | cons line lines => rfl
  | case5 c tail hlf hc line lines hlines ih =>
      have hnot : isBoundary c = false := by simpa using hc
      rw [List.cons_append, List.cons_append, splitlines_cons_of_not hnot,
        splitlines_cons_of_not hnot, ih]
      cases hlines : splitlines (tail ++ [b]) with
      | nil => exact absurd hlines (splitlines_ne_nil (by simp))
      | cons line lines => rfl

/-- A text without boundaries is one line. -/
theorem splitlines_eq_singleton {text : List Char} (hne : text ≠ [])
    (h : ∀ c ∈ text, isBoundary c = false) : splitlines text = [text] := by
  induction text with
  | nil => exact absurd rfl hne
  | cons c rest ih =>
      rw [List.forall_mem_cons] at h
      rw [splitlines_cons_of_not h.1]
      cases rest with
      | nil => rfl
      | cons d rest => rw [ih (by simp) h.2]

/-- The first line reaches to the first boundary. -/
theorem splitlines_first {text : List Char} (h : ∀ c ∈ text, isBoundary c = false) {b : Char}
    (hb : isBoundary b = true) (rest : List Char) :
    ∃ lines, splitlines (text ++ b :: rest) = text :: lines := by
  induction text with
  | nil =>
      rw [List.nil_append, splitlines.eq_def]
      split
      · rename_i heq
        cases heq
      · exact ⟨_, rfl⟩
      · rename_i heq
        cases heq
        exact ⟨_, if_pos hb⟩
  | cons c text ih =>
      rw [List.forall_mem_cons] at h
      obtain ⟨lines, hlines⟩ := ih h.2
      rw [List.cons_append, splitlines_cons_of_not h.1, hlines]
      exact ⟨lines, rfl⟩

/-- Behind a line with its newline the next one starts. -/
theorem splitlines_line_append {text : List Char} (h : ∀ c ∈ text, isBoundary c = false)
    (rest : List Char) : splitlines (text ++ '\n' :: rest) = text :: splitlines rest := by
  induction text with
  | nil => exact splitlines_cons (by decide) fun h => absurd h (by decide)
  | cons c text ih =>
      rw [List.forall_mem_cons] at h
      rw [List.cons_append, splitlines_cons_of_not h.1, ih h.2]

/-- A line with its newline is read back as it was written. -/
theorem splitlines_line {text : List Char} (h : ∀ c ∈ text, isBoundary c = false) :
    splitlines (text ++ ['\n']) = [text] :=
  splitlines_line_append h []

end PowerFramework.Lib.Splitlines
