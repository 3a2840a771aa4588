import Mathlib.Data.List.Basic
import Mathlib.Tactic.Common
/-!
# Patterns over runs of characters

Regular expressions whose only repetition is of one character class, matched the way a
backtracking engine does: the ends of a match are listed in the order they are tried, the first
one is the match. A substitution writes a mark for every match, from the left.
-/

namespace PowerFramework.Lib.Regex

inductive Pattern where
  /-- `[class]{least,most}`, as much as there is first. -/
  | run (cls : Char → Bool) (least : Nat) (most : Option Nat)
  /-- `\b` -/
  | boundary
  | seq (first second : Pattern)
  | alt (first second : Pattern)

/-- A place in a text: the character before it, and the text from there on. -/
@[ext] structure Place where
  before : Option Char
  rest : List Char
  deriving DecidableEq

/-- The character before the place behind `word`. -/
def lastOf (before : Option Char) (word : List Char) : Option Char := word.getLast?.or before

/-- The ends of a run of `cls`, the longest one first. -/
def runEnds (cls : Char → Bool) (least : Nat) (most : Option Nat) (before : Option Char) :
    List Char → List Place
  | [] => if least = 0 then [⟨before, []⟩] else []
  | c :: rest =>
      (if cls c ∧ most ≠ some 0 then runEnds cls (least - 1) (most.map (· - 1)) (some c) rest
        else []) ++
      if least = 0 then [⟨before, c :: rest⟩] else []

section
variable (word : Char → Bool)

/-- Exactly one side of the place is a character of a word. -/
def atBoundary (place : Place) : Bool := place.before.any word != place.rest.head?.any word

/-- The ends of the matches that begin at a place, in the order they are tried. -/
def ends : Pattern → Place → List Place
  | .run cls least most, place => runEnds cls least most place.before place.rest
  | .boundary, place => if atBoundary word place then [place] else []
  | .seq first second, place => (ends first place).flatMap (ends second)
  | .alt first second, place => ends first place ++ ends second place

/-- A match begins at the place. -/
def Begins (pattern : Pattern) (place : Place) : Prop := ends word pattern place ≠ []

instance (pattern : Pattern) (place : Place) : Decidable (Begins word pattern place) :=
  inferInstanceAs (Decidable (_ ≠ _))

/-- A match begins at the place or behind it. -/
def searchFrom (pattern : Pattern) (before : Option Char) : List Char → Bool
  | [] => Begins word pattern ⟨before, []⟩
  | c :: rest => Begins word pattern ⟨before, c :: rest⟩ || searchFrom pattern (some c) rest

/-- `pattern.search(text)` -/
def search (pattern : Pattern) (text : String) : Bool := searchFrom word pattern none text.toList

/-- The text with a mark for every match, the next `skip` characters being part of the last
one. -/
def subFrom (pattern : Pattern) (mark : List Char) (before : Option Char) :
    Nat → List Char → List Char
  | _, [] => []
  | skip + 1, c :: rest => subFrom pattern mark (some c) skip rest
  | 0, c :: rest =>
      match ends word pattern ⟨before, c :: rest⟩ with
      | [] => c :: subFrom pattern mark (some c) 0 rest
      | place :: _ => mark ++ subFrom pattern mark (some c) (rest.length - place.rest.length) rest

/-- `pattern.sub(mark, text)`, for a pattern that matches no empty text. -/
def sub (pattern : Pattern) (mark text : String) : String :=
  String.ofList (subFrom word pattern mark.toList none 0 text.toList)

end

/-! ## Building patterns -/

/-- One character of the class. -/
def one (cls : Char → Bool) : Pattern := .run cls 1 (some 1)

/-- At most one character of the class. -/
def atMostOne (cls : Char → Bool) : Pattern := .run cls 0 (some 1)

/-- As many characters of the class as there are, and at least `least`. -/
def many (cls : Char → Bool) (least : Nat) : Pattern := .run cls least none

/-- The patterns one behind the other. -/
def inOrder : List Pattern → Pattern
  | [] => .run (fun _ => false) 0 (some 0)
  | pattern :: patterns => .seq pattern (inOrder patterns)

/-- One of the patterns, the first that leads to a match. -/
def oneOf : List Pattern → Pattern
  | [] => .run (fun _ => false) 1 none
  | pattern :: patterns => .alt pattern (oneOf patterns)

/-! ## Where matches end -/

section
variable {word : Char → Bool}

@[simp] theorem lastOf_nil (before : Option Char) : lastOf before [] = before := rfl

theorem lastOf_append (before : Option Char) (front back : List Char) :
    lastOf before (front ++ back) = lastOf (lastOf before front) back := by
  unfold lastOf
  rw [List.getLast?_append, Option.or_assoc]

theorem lastOf_cons (before : Option Char) (c : Char) (rest : List Char) :
    lastOf before (c :: rest) = lastOf (some c) rest := lastOf_append before [c] rest

/-- A run ends behind a word of the class whose length is within the bounds. -/
theorem mem_runEnds {cls : Char → Bool} {least : Nat} {most : Option Nat} {before : Option Char}
    {rest : List Char} {place : Place} :
    place ∈ runEnds cls least most before rest ↔
      ∃ front, rest = front ++ place.rest ∧ place.before = lastOf before front ∧
        front.all cls ∧ least ≤ front.length ∧ ∀ bound ∈ most, front.length ≤ bound := by
  induction rest generalizing least most before with
  | nil =>
    constructor
    · intro h
      by_cases hleast : least = 0
      · rw [runEnds, if_pos hleast, List.mem_singleton] at h
        subst h
        exact ⟨[], by simp [hleast]⟩
      · rw [runEnds, if_neg hleast] at h
        exact absurd h (List.not_mem_nil)
    · rintro ⟨front, hrest, hbefore, -, hleast, -⟩
      obtain ⟨rfl, hnil⟩ := List.append_eq_nil_iff.mp hrest.symm
      have hzero : least = 0 := Nat.le_zero.mp hleast
      rw [runEnds, if_pos hzero, List.mem_singleton]
      exact Place.ext hbefore hnil
  | cons c rest ih =>
    rw [runEnds, List.mem_append]
    constructor
    · rintro (h | h)
      · split at h
        · next hcls =>
          obtain ⟨front, hrest, hbefore, hall, hleast, hmost⟩ := ih.mp h
          refine ⟨c :: front, by rw [hrest]; rfl, by rw [hbefore, lastOf_cons], ?_, ?_, ?_⟩
          · simp [hcls.1, hall]
          · rw [List.length_cons]
            omega
          · intro bound hbound
            have hpos : bound ≠ 0 := by
              rintro rfl
              exact hcls.2 hbound
            have := hmost (bound - 1) (by rw [hbound]; rfl)
            rw [List.length_cons]
            omega
        · exact absurd h List.not_mem_nil
      · split at h
        · next hleast =>
          rw [List.mem_singleton] at h
          subst h
          exact ⟨[], by simp [hleast]⟩
        · exact absurd h List.not_mem_nil
    · rintro ⟨front, hrest, hbefore, hall, hleast, hmost⟩
      cases front with
      | nil =>
        right
        have hzero : least = 0 := Nat.le_zero.mp hleast
        rw [if_pos hzero, List.mem_singleton]
        exact Place.ext hbefore hrest.symm
      | cons d front =>
        left
        obtain ⟨rfl, htail⟩ := List.cons.inj hrest
        rw [List.all_cons, Bool.and_eq_true] at hall
        have hcls : cls c = true ∧ most ≠ some 0 := by
          refine ⟨hall.1, ?_⟩
          rintro rfl
          exact absurd (hmost 0 rfl) (by simp)
        rw [if_pos hcls]
        refine ih.mpr ⟨front, htail, by rw [hbefore, lastOf_cons], hall.2, ?_, ?_⟩
        · rw [List.length_cons] at hleast
          omega
        · intro bound hbound
          obtain ⟨limit, hlimit, rfl⟩ := Option.map_eq_some_iff.mp hbound
          have := hmost limit hlimit
          rw [List.length_cons] at this
          omega

theorem mem_ends_seq {first second : Pattern} {place last : Place} :
    last ∈ ends word (.seq first second) place ↔
      ∃ middle ∈ ends word first place, last ∈ ends word second middle := List.mem_flatMap

theorem mem_ends_alt {first second : Pattern} {place last : Place} :
    last ∈ ends word (.alt first second) place ↔
      last ∈ ends word first place ∨ last ∈ ends word second place := List.mem_append

theorem mem_ends_boundary {place last : Place} :
    last ∈ ends word .boundary place ↔ last = place ∧ atBoundary word place = true := by
  rw [ends]
  split <;> simp_all

/-- A match covers the text between its two ends. -/
theorem ends_split {pattern : Pattern} {place last : Place} (h : last ∈ ends word pattern place) :
    ∃ front, place.rest = front ++ last.rest ∧ last.before = lastOf place.before front := by
  induction pattern generalizing place last with
  | run cls least most =>
    obtain ⟨front, hrest, hbefore, -⟩ := mem_runEnds.mp h
    exact ⟨front, hrest, hbefore⟩
  | boundary =>
    obtain ⟨rfl, -⟩ := mem_ends_boundary.mp h
    exact ⟨[], rfl, rfl⟩
  | seq first second ihfirst ihsecond =>
    obtain ⟨middle, hfirst, hsecond⟩ := mem_ends_seq.mp h
    obtain ⟨front, hfront, hbefore⟩ := ihfirst hfirst
    obtain ⟨back, hback, hlast⟩ := ihsecond hsecond
    exact ⟨front ++ back, by rw [hfront, hback, List.append_assoc],
      by rw [hlast, hbefore, lastOf_append]⟩
  | alt first second ihfirst ihsecond =>
    rcases mem_ends_alt.mp h with h | h
    · exact ihfirst h
    · exact ihsecond h

theorem begins_iff {pattern : Pattern} {place : Place} :
    Begins word pattern place ↔ ∃ last, last ∈ ends word pattern place :=
  List.ne_nil_iff_exists_cons.trans ⟨fun ⟨last, _, h⟩ => ⟨last, h ▸ List.mem_cons_self⟩,
    fun ⟨_, h⟩ => List.exists_cons_of_ne_nil (List.ne_nil_of_mem h)⟩

theorem begins_seq {first second : Pattern} {place : Place} :
    Begins word (.seq first second) place ↔
      ∃ middle ∈ ends word first place, Begins word second middle := by
  simp only [begins_iff, mem_ends_seq]
  constructor
  · rintro ⟨last, middle, hfirst, hsecond⟩
    exact ⟨middle, hfirst, last, hsecond⟩
  · rintro ⟨middle, hfirst, last, hsecond⟩
    exact ⟨last, middle, hfirst, hsecond⟩

theorem begins_alt {first second : Pattern} {place : Place} :
    Begins word (.alt first second) place ↔
      Begins word first place ∨ Begins word second place := by
  simp only [begins_iff, mem_ends_alt, exists_or]

theorem begins_boundary {place : Place} :
    Begins word .boundary place ↔ atBoundary word place = true := by
  simp only [begins_iff, mem_ends_boundary, exists_eq_left]

theorem begins_oneOf {patterns : List Pattern} {place : Place} :
    Begins word (oneOf patterns) place ↔ ∃ pattern ∈ patterns, Begins word pattern place := by
  induction patterns with
  | nil =>
    have hnone : ∀ before rest, runEnds (fun _ => false) 1 none before rest = [] := by
      intro before rest
      cases rest <;> rfl
    simp [oneOf, Begins, ends, hnone]
  | cons pattern patterns ih => rw [oneOf, begins_alt, ih, List.exists_mem_cons_iff]

/-! ## First and last characters -/

/-- The pattern can match without a character. -/
def nullable : Pattern → Bool
  | .run _ least _ => least == 0
  | .boundary => true
  | .seq first second => nullable first && nullable second
  | .alt first second => nullable first || nullable second

/-- The characters a match can begin with. -/
def openers : Pattern → Char → Bool
  | .run cls _ _, c => cls c
  | .boundary, _ => false
  | .seq first second, c => openers first c || (nullable first && openers second c)
  | .alt first second, c => openers first c || openers second c

/-- The characters a match can end with. -/
def closers : Pattern → Char → Bool
  | .run cls _ _, c => cls c
  | .boundary, _ => false
  | .seq first second, c => closers second c || (nullable second && closers first c)
  | .alt first second, c => closers first c || closers second c

theorem any_mono {p q : Char → Bool} (h : ∀ c, p c = true → q c = true) {o : Option Char}
    (ho : o.any p = true) : o.any q = true := by
  obtain ⟨c, hc, hp⟩ := (Option.any_eq_true _ _).mp ho
  exact (Option.any_eq_true _ _).mpr ⟨c, hc, h c hp⟩

theorem length_le_of_mem_ends {pattern : Pattern} {place last : Place}
    (h : last ∈ ends word pattern place) : last.rest.length ≤ place.rest.length := by
  obtain ⟨front, hfront, -⟩ := ends_split h
  rw [hfront, List.length_append]
  omega

/-- The match from one place to the other begins with an opener, ends with a closer and uses up a
part of the text. -/
structure Spans (pattern : Pattern) (place last : Place) : Prop where
  opener : place.rest.head?.any (openers pattern) = true
  closer : last.before.any (closers pattern) = true
  shorter : last.rest.length < place.rest.length

/-- Only a pattern that can be empty has a match that spans nothing. -/
theorem ends_cases {pattern : Pattern} {place last : Place} (h : last ∈ ends word pattern place) :
    nullable pattern = true ∧ last = place ∨ Spans pattern place last := by
  induction pattern generalizing place last with
  | run cls least most =>
    obtain ⟨front, hrest, hbefore, hall, hleast, -⟩ := mem_runEnds.mp h
    cases front with
    | nil => exact .inl ⟨by simpa [nullable] using hleast, Place.ext hbefore hrest.symm⟩
    | cons c front =>
      right
      rw [List.all_eq_true] at hall
      have hlast := List.getLast_mem (List.cons_ne_nil c front)
      have hbefore' : last.before = some ((c :: front).getLast (List.cons_ne_nil c front)) := by
        rw [hbefore, lastOf, List.getLast?_eq_some_getLast (List.cons_ne_nil c front),
          Option.some_or]
      refine ⟨?_, ?_, ?_⟩
      · rw [hrest]
        exact hall c List.mem_cons_self
      · rw [hbefore']
        exact hall _ hlast
      · rw [hrest, List.length_append, List.length_cons]
        omega
  | boundary => exact .inl ⟨rfl, (mem_ends_boundary.mp h).1⟩
  | seq first second ihfirst ihsecond =>
    obtain ⟨middle, hfirst, hsecond⟩ := mem_ends_seq.mp h
    have hless := length_le_of_mem_ends hsecond
    rcases ihfirst hfirst with ⟨hnull, rfl⟩ | hspan
    · rcases ihsecond hsecond with ⟨hnull', rfl⟩ | hspan'
      · exact .inl ⟨by rw [nullable, hnull, hnull']; rfl, rfl⟩
      · exact .inr ⟨any_mono (fun c hc => by rw [openers, hnull, hc]; simp) hspan'.opener,
          any_mono (fun c hc => by rw [closers, hc]; rfl) hspan'.closer, hspan'.shorter⟩
    · refine .inr ⟨any_mono (fun c hc => by rw [openers, hc]; rfl) hspan.opener, ?_,
        Nat.lt_of_le_of_lt hless hspan.shorter⟩
      rcases ihsecond hsecond with ⟨hnull', rfl⟩ | hspan'
      · exact any_mono (fun c hc => by rw [closers, hnull', hc]; simp) hspan.closer
      · exact any_mono (fun c hc => by rw [closers, hc]; rfl) hspan'.closer
  | alt first second ihfirst ihsecond =>
    rcases mem_ends_alt.mp h with h | h
    · rcases ihfirst h with ⟨hnull, hplace⟩ | hspan
      · exact .inl ⟨by rw [nullable, hnull]; rfl, hplace⟩
      · exact .inr ⟨any_mono (fun c hc => by rw [openers, hc]; rfl) hspan.opener,
          any_mono (fun c hc => by rw [closers, hc]; rfl) hspan.closer, hspan.shorter⟩
    · rcases ihsecond h with ⟨hnull, hplace⟩ | hspan
      · exact .inl ⟨by rw [nullable, hnull]; simp, hplace⟩
      · exact .inr ⟨any_mono (fun c hc => by rw [openers, hc]; simp) hspan.opener,
          any_mono (fun c hc => by rw [closers, hc]; simp) hspan.closer, hspan.shorter⟩

/-- A match of a pattern that matches no empty text spans something. -/
theorem spans_of_mem_ends {pattern : Pattern} {place last : Place}
    (hnull : nullable pattern = false) (h : last ∈ ends word pattern place) :
    Spans pattern place last := by
  rcases ends_cases h with ⟨hnull', -⟩ | hspan
  · rw [hnull] at hnull'
    exact absurd hnull' Bool.false_ne_true
  · exact hspan

/-- Such a pattern begins at one of its openers only. -/
theorem opener_of_begins {pattern : Pattern} {place : Place} (hnull : nullable pattern = false)
    (h : Begins word pattern place) : place.rest.head?.any (openers pattern) = true := by
  obtain ⟨last, hlast⟩ := begins_iff.mp h
  exact (spans_of_mem_ends hnull hlast).opener

/-! ## The character before a match -/

/-- Whether a match begins depends on the character before it only by its being one of a word. -/
theorem mem_ends_of_same {pattern : Pattern} {place other last : Place}
    (hrest : place.rest = other.rest) (hword : place.before.any word = other.before.any word)
    (h : last ∈ ends word pattern place) :
    ∃ end', end' ∈ ends word pattern other ∧ last.rest = end'.rest ∧
      last.before.any word = end'.before.any word := by
  induction pattern generalizing place other last with
  | run cls least most =>
    obtain ⟨front, hfront, hbefore, hall, hleast, hmost⟩ := mem_runEnds.mp h
    refine ⟨⟨lastOf other.before front, last.rest⟩,
      mem_runEnds.mpr ⟨front, hrest ▸ hfront, rfl, hall, hleast, hmost⟩, rfl, ?_⟩
    rw [hbefore]
    cases front with
    | nil => exact hword
    | cons c front => rw [lastOf_cons, lastOf_cons]
  | boundary =>
    obtain ⟨rfl, hat⟩ := mem_ends_boundary.mp h
    refine ⟨other, mem_ends_boundary.mpr ⟨rfl, ?_⟩, hrest, hword⟩
    rwa [atBoundary, ← hrest, ← hword]
  | seq first second ihfirst ihsecond =>
    obtain ⟨middle, hfirst, hsecond⟩ := mem_ends_seq.mp h
    obtain ⟨middle', hfirst', hrest', hword'⟩ := ihfirst hrest hword hfirst
    obtain ⟨end', hsecond', hend⟩ := ihsecond hrest' hword' hsecond
    exact ⟨end', mem_ends_seq.mpr ⟨middle', hfirst', hsecond'⟩, hend⟩
  | alt first second ihfirst ihsecond =>
    rcases mem_ends_alt.mp h with h | h
    · obtain ⟨end', hmem, hend⟩ := ihfirst hrest hword h
      exact ⟨end', mem_ends_alt.mpr (.inl hmem), hend⟩
    · obtain ⟨end', hmem, hend⟩ := ihsecond hrest hword h
      exact ⟨end', mem_ends_alt.mpr (.inr hmem), hend⟩

theorem begins_of_same {pattern : Pattern} {before other : Option Char} {rest : List Char}
    (hword : before.any word = other.any word) (h : Begins word pattern ⟨before, rest⟩) :
    Begins word pattern ⟨other, rest⟩ := by
  obtain ⟨last, hlast⟩ := begins_iff.mp h
  obtain ⟨end', hend, -⟩ := mem_ends_of_same (show (⟨before, rest⟩ : Place).rest = (⟨other, rest⟩ : Place).rest from rfl) hword hlast
  exact begins_iff.mpr ⟨end', hend⟩

def boundaryFree : Pattern → Bool
  | .run .. => true
  | .boundary => false
  | .seq first second => boundaryFree first && boundaryFree second
  | .alt first second => boundaryFree first && boundaryFree second

/-- Without a boundary it does not depend on that character at all. -/
theorem mem_ends_of_free {pattern : Pattern} {place other last : Place}
    (hfree : boundaryFree pattern = true) (hrest : place.rest = other.rest)
    (h : last ∈ ends word pattern place) :
    ∃ end', end' ∈ ends word pattern other ∧ last.rest = end'.rest := by
  induction pattern generalizing place other last with
  | run cls least most =>
    obtain ⟨front, hfront, -, hbounds⟩ := mem_runEnds.mp h
    exact ⟨⟨lastOf other.before front, last.rest⟩,
      mem_runEnds.mpr ⟨front, hrest ▸ hfront, rfl, hbounds⟩, rfl⟩
  | boundary => exact absurd hfree (by simp [boundaryFree])
  | seq first second ihfirst ihsecond =>
    rw [boundaryFree, Bool.and_eq_true] at hfree
    obtain ⟨middle, hfirst, hsecond⟩ := mem_ends_seq.mp h
    obtain ⟨middle', hfirst', hrest'⟩ := ihfirst hfree.1 hrest hfirst
    obtain ⟨end', hsecond', hend⟩ := ihsecond hfree.2 hrest' hsecond
    exact ⟨end', mem_ends_seq.mpr ⟨middle', hfirst', hsecond'⟩, hend⟩
  | alt first second ihfirst ihsecond =>
    rw [boundaryFree, Bool.and_eq_true] at hfree
    rcases mem_ends_alt.mp h with h | h
    · obtain ⟨end', hmem, hend⟩ := ihfirst hfree.1 hrest h
      exact ⟨end', mem_ends_alt.mpr (.inl hmem), hend⟩
    · obtain ⟨end', hmem, hend⟩ := ihsecond hfree.2 hrest h
      exact ⟨end', mem_ends_alt.mpr (.inr hmem), hend⟩

theorem begins_of_free {pattern : Pattern} {before other : Option Char} {rest : List Char}
    (hfree : boundaryFree pattern = true) (h : Begins word pattern ⟨before, rest⟩) :
    Begins word pattern ⟨other, rest⟩ := by
  obtain ⟨last, hlast⟩ := begins_iff.mp h
  obtain ⟨end', hend, -⟩ := mem_ends_of_free hfree
    (show (⟨before, rest⟩ : Place).rest = (⟨other, rest⟩ : Place).rest from rfl) hlast
  exact begins_iff.mpr ⟨end', hend⟩

/-! ## The first end -/

/-- The end of a run without bound is no character of the class. -/
theorem head_runEnds {cls : Char → Bool} {least : Nat} {before : Option Char} {rest : List Char}
    {last : Place} (h : (runEnds cls least none before rest).head? = some last) :
    last.rest.head?.any cls = false := by
  induction rest generalizing least before with
  | nil =>
    have hmem := List.mem_of_head? h
    obtain ⟨front, hrest, -⟩ := mem_runEnds.mp hmem
    obtain ⟨-, hnil⟩ := List.append_eq_nil_iff.mp hrest.symm
    rw [hnil]
    rfl
  | cons c rest ih =>
    rw [runEnds, List.head?_append] at h
    rcases Option.or_eq_some_iff.mp h with hrun | ⟨hnone, hhere⟩
    · split at hrun
      · exact ih hrun
      · exact absurd hrun (by simp)
    · split at hhere
      · next hleast =>
        cases hhere
        by_cases hcls : cls c = true
        · have hstop : runEnds cls (least - 1) none (some c) rest ≠ [] := by
            rw [List.ne_nil_iff_exists_cons]
            have hmem : (⟨some c, rest⟩ : Place) ∈ runEnds cls (least - 1) none (some c) rest :=
              mem_runEnds.mpr ⟨[], rfl, rfl, rfl, by simp [hleast], by simp⟩
            exact List.exists_cons_of_ne_nil (List.ne_nil_of_mem hmem)
          rw [if_pos ⟨hcls, by simp⟩, Option.map_none, List.head?_eq_none_iff] at hnone
          exact absurd hnone hstop
        · simpa using hcls
      · exact absurd hhere (by simp)

/-- The first end of two patterns in order is the first end of the second one, at some end of the
first one. -/
theorem head_seq {first second : Pattern} {place last : Place}
    (h : (ends word (.seq first second) place).head? = some last) :
    ∃ middle ∈ ends word first place, (ends word second middle).head? = some last := by
  rw [ends, List.head?_flatMap] at h
  exact List.exists_of_findSome?_eq_some h

/-- Where the second pattern always matches, it starts at the first end of the first one. -/
theorem head_seq_of_total {first second : Pattern} {place last : Place}
    (htotal : ∀ middle, Begins word second middle)
    (h : (ends word (.seq first second) place).head? = some last) :
    ∃ middle, (ends word first place).head? = some middle ∧
      (ends word second middle).head? = some last := by
  rw [ends] at h
  cases hends : ends word first place with
  | nil =>
    rw [hends] at h
    exact absurd h (by simp)
  | cons middle others =>
    rw [hends, List.flatMap_cons, List.head?_append] at h
    obtain ⟨end₀, hend₀⟩ := List.exists_cons_of_ne_nil (htotal middle)
    obtain ⟨more, hmore⟩ := hend₀
    rw [hmore, List.head?_cons, Option.some_or] at h
    exact ⟨middle, rfl, by rw [hmore, List.head?_cons, h]⟩

theorem head_alt {first second : Pattern} {place last : Place}
    (h : (ends word (.alt first second) place).head? = some last) :
    (ends word first place).head? = some last ∨ (ends word second place).head? = some last := by
  rw [ends, List.head?_append] at h
  rcases Option.or_eq_some_iff.mp h with h | ⟨-, h⟩
  · exact .inl h
  · exact .inr h

theorem head_oneOf {patterns : List Pattern} {place last : Place}
    (h : (ends word (oneOf patterns) place).head? = some last) :
    ∃ pattern ∈ patterns, (ends word pattern place).head? = some last := by
  induction patterns with
  | nil =>
    have hmem := List.mem_of_head? h
    obtain ⟨front, -, -, hall, hleast, -⟩ := mem_runEnds.mp hmem
    cases front with
    | nil => exact absurd hleast (by simp)
    | cons c front => exact absurd hall (by simp)
  | cons pattern patterns ih =>
    rcases head_alt h with h | h
    · exact ⟨pattern, List.mem_cons_self, h⟩
    · obtain ⟨other, hmem, h⟩ := ih h
      exact ⟨other, List.mem_cons_of_mem _ hmem, h⟩

/-! ## Another text behind the same words -/

/-- No class of the pattern holds the character. -/
def avoids (c : Char) : Pattern → Bool
  | .run cls _ _ => !cls c
  | .boundary => true
  | .seq first second => avoids c first && avoids c second
  | .alt first second => avoids c first && avoids c second

/-- A match that cannot pass a character goes through when the text from that character on is
exchanged for one that closes a word too. -/
theorem ends_swap {pattern : Pattern} {c : Char} {before : Option Char} {front back rest : List Char}
    {last : Place} (havoid : avoids c pattern = true) (hc : word c = false)
    (hword : (lastOf before front).any word = true →
      atBoundary word ⟨lastOf before front, rest⟩ = true)
    (h : last ∈ ends word pattern ⟨before, front ++ c :: back⟩) :
    ∃ done left, front = done ++ left ∧ last = ⟨lastOf before done, left ++ c :: back⟩ ∧
      ⟨lastOf before done, left ++ rest⟩ ∈ ends word pattern ⟨before, front ++ rest⟩ := by
  induction pattern generalizing before front last with
  | run cls least most =>
    obtain ⟨covered, hrest, hbefore, hall, hleast, hmost⟩ := mem_runEnds.mp h
    have hinside : ∃ left, front = covered ++ left ∧ last.rest = left ++ c :: back := by
      rcases List.append_eq_append_iff.mp hrest with ⟨excess, hcovered, hover⟩ | ⟨left, hleft⟩
      · cases excess with
        | nil =>
          refine ⟨[], ?_, ?_⟩
          · rw [hcovered, List.append_nil, List.append_nil]
          · rw [List.nil_append] at hover ⊢
            exact hover.symm
        | cons d excess =>
          have hd : c = d := (List.cons.inj hover).1
          have hcls : cls c = true := by
            rw [hcovered, ← hd, List.all_append, List.all_cons] at hall
            simp only [Bool.and_eq_true] at hall
            exact hall.2.1
          rw [avoids, hcls] at havoid
          exact absurd havoid Bool.false_ne_true
      · exact ⟨left, hleft.1, hleft.2⟩
    obtain ⟨left, hfront, hleft⟩ := hinside
    refine ⟨covered, left, hfront, Place.ext hbefore hleft, ?_⟩
    refine mem_runEnds.mpr ⟨covered, ?_, rfl, hall, hleast, hmost⟩
    rw [hfront, List.append_assoc]
  | boundary =>
    obtain ⟨rfl, hat⟩ := mem_ends_boundary.mp h
    refine ⟨[], front, rfl, rfl, mem_ends_boundary.mpr ⟨rfl, ?_⟩⟩
    cases front with
    | nil =>
      refine hword ?_
      simpa [atBoundary, hc] using hat
    | cons d front => exact hat
  | seq first second ihfirst ihsecond =>
    rw [avoids, Bool.and_eq_true] at havoid
    obtain ⟨middle, hfirst, hsecond⟩ := mem_ends_seq.mp h
    obtain ⟨done, left, hfront, hmiddle, hswap⟩ := ihfirst havoid.1 hword hfirst
    rw [hmiddle] at hsecond
    rw [hfront, lastOf_append] at hword
    obtain ⟨more, others, hleft, hlast, hswap'⟩ := ihsecond havoid.2 hword hsecond
    refine ⟨done ++ more, others, ?_, ?_, mem_ends_seq.mpr ⟨_, hswap, ?_⟩⟩
    · rw [hfront, hleft, List.append_assoc]
    · rw [hlast, lastOf_append]
    · rw [lastOf_append]
      exact hswap'
  | alt first second ihfirst ihsecond =>
    rw [avoids, Bool.and_eq_true] at havoid
    rcases mem_ends_alt.mp h with h | h
    · obtain ⟨done, left, hfront, hlast, hswap⟩ := ihfirst havoid.1 hword h
      exact ⟨done, left, hfront, hlast, mem_ends_alt.mpr (.inl hswap)⟩
    · obtain ⟨done, left, hfront, hlast, hswap⟩ := ihsecond havoid.2 hword h
      exact ⟨done, left, hfront, hlast, mem_ends_alt.mpr (.inr hswap)⟩

/-! ## Substitution -/

/-- A mark that seals off the matches of a pattern: none begins inside a mark, none needs the text
behind a mark, and none begins behind one that did not begin behind the match it stands for. -/
structure Sealed (word : Char → Bool) (pattern : Pattern) (mark : List Char) : Prop where
  nonempty : mark ≠ []
  consumes : ∀ place, ∀ last ∈ ends word pattern place, last.rest.length < place.rest.length
  fresh : ∀ before done left back, mark = done ++ left → left ≠ [] →
    ¬ Begins word pattern ⟨lastOf before done, left ++ back⟩
  passes : ∀ before front back rest, Begins word pattern ⟨lastOf before front, rest⟩ →
    Begins word pattern ⟨before, front ++ mark ++ back⟩ →
    Begins word pattern ⟨before, front ++ rest⟩
  closed : ∀ place last rest, (ends word pattern place).head? = some last →
    rest.head? = last.rest.head? → Begins word pattern ⟨mark.getLast?, rest⟩ →
    Begins word pattern ⟨last.before, rest⟩

variable {pattern : Pattern} {mark : List Char}

theorem subFrom_skip (before : Option Char) (front rest : List Char) :
    subFrom word pattern mark before front.length (front ++ rest) =
      subFrom word pattern mark (lastOf before front) 0 rest := by
  induction front generalizing before with
  | nil => rfl
  | cons c front ih => rw [List.length_cons, List.cons_append, subFrom, ih, lastOf_cons]

theorem subFrom_miss {before : Option Char} {c : Char} {rest : List Char}
    (h : ¬ Begins word pattern ⟨before, c :: rest⟩) :
    subFrom word pattern mark before 0 (c :: rest) =
      c :: subFrom word pattern mark (some c) 0 rest := by
  have hnil : ends word pattern ⟨before, c :: rest⟩ = [] := not_not.mp h
  rw [subFrom, hnil]

/-- Behind a match the substitution goes on where the match ends. -/
theorem subFrom_hit (hseal : Sealed word pattern mark) {before : Option Char} {rest : List Char}
    {last : Place} (h : (ends word pattern ⟨before, rest⟩).head? = some last) :
    subFrom word pattern mark before 0 rest =
      mark ++ subFrom word pattern mark last.before 0 last.rest := by
  have hmem := List.mem_of_head? h
  have hless := hseal.consumes _ _ hmem
  obtain ⟨front, hfront, hbefore⟩ := ends_split hmem
  cases front with
  | nil =>
    rw [List.nil_append] at hfront
    rw [← hfront] at hless
    exact absurd hless (Nat.lt_irrefl _)
  | cons c front =>
    simp only at hfront hbefore
    subst hfront
    rw [List.cons_append, subFrom]
    obtain ⟨others, hends⟩ := List.head?_eq_some_iff.mp h
    rw [List.cons_append] at hends
    rw [hends]
    simp only
    rw [List.length_append, Nat.add_sub_cancel, subFrom_skip, hbefore, lastOf_cons]

/-- The result begins with the text up to the first match, which a mark stands for. -/
theorem subFrom_shape (hseal : Sealed word pattern mark) (before : Option Char)
    (rest : List Char) :
    ∃ front behind, rest = front ++ behind ∧
      (behind = [] ∧ subFrom word pattern mark before 0 rest = front ∨
        Begins word pattern ⟨lastOf before front, behind⟩ ∧
          ∃ back, subFrom word pattern mark before 0 rest = front ++ mark ++ back) := by
  induction rest generalizing before with
  | nil => exact ⟨[], [], rfl, .inl ⟨rfl, rfl⟩⟩
  | cons c rest ih =>
    by_cases h : Begins word pattern ⟨before, c :: rest⟩
    · obtain ⟨last, others, hends⟩ := List.exists_cons_of_ne_nil h
      have hhead : (ends word pattern ⟨before, c :: rest⟩).head? = some last := by
        rw [hends, List.head?_cons]
      exact ⟨[], c :: rest, rfl, .inr ⟨h, _, subFrom_hit hseal hhead⟩⟩
    · obtain ⟨front, behind, hrest, hshape⟩ := ih (some c)
      refine ⟨c :: front, behind, by rw [hrest]; rfl, ?_⟩
      rw [subFrom_miss h, lastOf_cons]
      rcases hshape with ⟨hnil, hsub⟩ | ⟨hbegins, back, hsub⟩
      · exact .inl ⟨hnil, by rw [hsub]⟩
      · exact .inr ⟨hbegins, back, by rw [hsub]; rfl⟩

theorem searchFrom_append {before : Option Char} {front back : List Char}
    (h : ∀ done left, front = done ++ left → left ≠ [] →
      ¬ Begins word pattern ⟨lastOf before done, left ++ back⟩) :
    searchFrom word pattern before (front ++ back) =
      searchFrom word pattern (lastOf before front) back := by
  induction front generalizing before with
  | nil => rfl
  | cons c front ih =>
    have hhere : ¬ Begins word pattern ⟨before, c :: (front ++ back)⟩ :=
      h [] (c :: front) rfl (List.cons_ne_nil _ _)
    rw [List.cons_append, searchFrom, decide_eq_false hhere, Bool.false_or, lastOf_cons]
    refine ih fun done left hfront hleft => ?_
    have hlater := h (c :: done) left (by rw [hfront]; rfl) hleft
    rwa [lastOf_cons] at hlater

/-- Nothing is found in what a substitution leaves, also behind another character than the one
the text stood behind. -/
theorem searchFrom_subFrom (hseal : Sealed word pattern mark) (before other : Option Char)
    (rest : List Char)
    (hsame : ∀ text : List Char, text.head? = rest.head? → Begins word pattern ⟨other, text⟩ →
      Begins word pattern ⟨before, text⟩) :
    searchFrom word pattern other (subFrom word pattern mark before 0 rest) = false := by
  induction hlength : rest.length using Nat.strongRecOn generalizing before other rest with
  | ind length ih =>
    subst hlength
    by_cases h : Begins word pattern ⟨before, rest⟩
    · obtain ⟨last, others, hends⟩ := List.exists_cons_of_ne_nil h
      have hhead : (ends word pattern ⟨before, rest⟩).head? = some last := by
        rw [hends, List.head?_cons]
      have hless := hseal.consumes _ _ (List.mem_of_head? hhead)
      have hmark : lastOf other mark = mark.getLast? := by
        rw [lastOf, List.getLast?_eq_some_getLast hseal.nonempty, Option.some_or]
      rw [subFrom_hit hseal hhead, searchFrom_append fun done left => hseal.fresh other done left _,
        hmark]
      exact ih _ hless _ _ _ (fun text htext => hseal.closed _ _ text hhead htext) rfl
    · cases rest with
      | nil =>
        have hother : ¬ Begins word pattern ⟨other, []⟩ := fun hbegins => h (hsame [] rfl hbegins)
        rw [subFrom, searchFrom, decide_eq_false hother]
      | cons c rest =>
        have htail := ih rest.length (Nat.lt_succ_self _) (some c) (some c) rest
          (fun _ _ hbegins => hbegins) rfl
        have hhere : ¬ Begins word pattern ⟨other, c :: subFrom word pattern mark (some c) 0 rest⟩ := by
          intro hbegins
          have hbegins := hsame (c :: subFrom word pattern mark (some c) 0 rest) rfl hbegins
          obtain ⟨front, behind, hrest, ⟨rfl, hsub⟩ | ⟨hbehind, back, hsub⟩⟩ :=
            subFrom_shape hseal (some c) rest
          · rw [List.append_nil] at hrest
            rw [hsub, ← hrest] at hbegins
            exact h hbegins
          · rw [hsub, ← List.cons_append, ← List.cons_append] at hbegins
            rw [← lastOf_cons before c front] at hbehind
            have hrest' := hseal.passes before (c :: front) back behind hbehind hbegins
            rw [List.cons_append, ← hrest] at hrest'
            exact h hrest'
        rw [subFrom_miss h, searchFrom, decide_eq_false hhere, Bool.false_or, htail]

/-- A text in which nothing is found stays as it is. -/
theorem subFrom_of_not_found {before : Option Char} {rest : List Char}
    (h : searchFrom word pattern before rest = false) :
    subFrom word pattern mark before 0 rest = rest := by
  induction rest generalizing before with
  | nil => rfl
  | cons c rest ih =>
    rw [searchFrom, Bool.or_eq_false_iff, decide_eq_false_iff_not] at h
    rw [subFrom_miss h.1, ih h.2]

theorem sub_of_not_found {mark text : String} (h : search word pattern text = false) :
    sub word pattern mark text = text := by
  rw [sub, subFrom_of_not_found h, String.ofList_toList]

/-- Nothing is found in a text a sealed pattern was substituted in. -/
theorem search_sub {mark : String} (hseal : Sealed word pattern mark.toList) (text : String) :
    search word pattern (sub word pattern mark text) = false := by
  rw [search, sub, String.toList_ofList]
  exact searchFrom_subFrom hseal none none text.toList fun _ _ h => h

end

end PowerFramework.Lib.Regex
