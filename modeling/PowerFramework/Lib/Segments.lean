import Mathlib.Data.List.Basic
/-!
# Segments

The pieces of a list between the places of one value, as `str.split` makes them.  A list is such a
piece when it stands between two of these places, or between one and an end (`mem_splitOn_iff`).
-/

namespace PowerFramework.Lib.Segments

variable {α : Type} [BEq α] [LawfulBEq α] {a : α} {xs piece : List α}

/-- The list ends here, or with the separator. -/
def Closed (a : α) (front : List α) : Prop := front = [] ∨ ∃ before, front = before ++ [a]

/-- The list starts here, or with the separator. -/
def Opened (a : α) (back : List α) : Prop := back = [] ∨ ∃ behind, back = a :: behind

omit [LawfulBEq α] [BEq α] in
theorem Closed.append {front : List α} (h : Closed a front) (before : List α) :
    Closed a (before ++ a :: front) := by
  rcases h with rfl | ⟨rest, rfl⟩
  · exact Or.inr ⟨before, rfl⟩
  · exact Or.inr ⟨before ++ a :: rest, by simp⟩

theorem mem_splitOn_of_opened {back : List α} (hpiece : a ∉ piece) (hback : Opened a back) :
    piece ∈ (piece ++ back).splitOn a := by
  rcases hback with rfl | ⟨behind, rfl⟩
  · rw [List.append_nil, List.splitOn_eq_singleton hpiece]
    exact List.mem_singleton_self _
  · rw [List.splitOn_append_cons_self_of_not_mem hpiece]
    exact List.mem_cons_self

theorem not_mem_of_mem_splitOn (h : piece ∈ xs.splitOn a) : a ∉ piece := by
  induction hn : xs.length using Nat.strongRecOn generalizing xs with
  | ind n ih =>
    by_cases ha : a ∈ xs
    · obtain ⟨first, rest, rfl, hfirst⟩ := List.eq_append_cons_of_mem ha
      rw [List.splitOn_append_cons_self_of_not_mem hfirst, List.mem_cons] at h
      rcases h with rfl | h
      · exact hfirst
      · exact ih rest.length (by rw [← hn]; simp; omega) h rfl
    · rw [List.splitOn_eq_singleton ha, List.mem_singleton] at h
      rw [h]
      exact ha

/-- A piece of a list is what stands between two separators or ends. -/
theorem mem_splitOn_iff : piece ∈ xs.splitOn a ↔ a ∉ piece ∧
    ∃ front back, xs = front ++ piece ++ back ∧ Closed a front ∧ Opened a back := by
  constructor
  · intro h
    refine ⟨not_mem_of_mem_splitOn h, ?_⟩
    induction hn : xs.length using Nat.strongRecOn generalizing xs with
    | ind n ih =>
      by_cases ha : a ∈ xs
      · obtain ⟨first, rest, rfl, hfirst⟩ := List.eq_append_cons_of_mem ha
        rw [List.splitOn_append_cons_self_of_not_mem hfirst, List.mem_cons] at h
        rcases h with rfl | h
        · exact ⟨[], a :: rest, rfl, Or.inl rfl, Or.inr ⟨rest, rfl⟩⟩
        · obtain ⟨front, back, rfl, hfront, hback⟩ :=
            ih rest.length (by rw [← hn]; simp; omega) h rfl
          exact ⟨first ++ a :: front, back, by simp, hfront.append first, hback⟩
      · rw [List.splitOn_eq_singleton ha, List.mem_singleton] at h
        exact ⟨[], [], by simp [h], Or.inl rfl, Or.inl rfl⟩
  · rintro ⟨hpiece, front, back, rfl, rfl | ⟨before, rfl⟩, hback⟩
    · exact mem_splitOn_of_opened hpiece hback
    · rw [List.append_assoc, List.append_assoc, List.singleton_append,
        List.splitOn_append_cons_self]
      exact List.mem_append_right _ (mem_splitOn_of_opened hpiece hback)

/-- Without an empty piece the separator does not stand twice in a row. -/
theorem no_double (h : [] ∉ xs.splitOn a) : ¬ [a, a] <:+: xs := by
  rintro ⟨front, back, rfl⟩
  apply h
  rw [mem_splitOn_iff]
  exact ⟨List.not_mem_nil, front ++ [a], a :: back, by simp, Or.inr ⟨front, rfl⟩, Or.inr ⟨back, rfl⟩⟩

/-! ## Two lists joined by a mark -/

section
omit [BEq α] [LawfulBEq α]
variable {mark : α} {front back left right : List α}

/-- A piece without the mark stands before it or behind it. -/
theorem before_or_behind (hmark : mark ∉ piece)
    (h : front ++ piece ++ back = left ++ mark :: right) :
    (∃ rest, left = front ++ piece ++ rest ∧ back = rest ++ mark :: right) ∨
      ∃ rest, right = rest ++ piece ++ back ∧ front = left ++ mark :: rest := by
  rcases List.append_eq_append_iff.mp h with ⟨rest, hleft, hback⟩ | ⟨rest, hfront, hright⟩
  · exact Or.inl ⟨rest, hleft, hback⟩
  · cases rest with
    | nil =>
      refine Or.inl ⟨[], ?_, hright.symm⟩
      rw [List.append_nil] at hfront ⊢
      exact hfront.symm
    | cons first rest =>
      obtain ⟨rfl, htail⟩ : mark = first ∧ right = rest ++ back := List.cons.inj hright
      have hsplit : front ++ piece = (left ++ [mark]) ++ rest := by rw [hfront]; simp
      rcases List.append_eq_append_iff.mp hsplit with ⟨more, hleft, hpiece⟩ | ⟨more, hfront', hrest⟩
      · rcases List.eq_nil_or_concat more with rfl | ⟨more, last, rfl⟩
        · rw [List.append_nil] at hleft
          rw [List.nil_append] at hpiece
          refine Or.inr ⟨[], ?_, ?_⟩
          · rw [htail, hpiece, List.nil_append]
          · rw [← hleft]
        · rw [List.concat_eq_append, ← List.append_assoc] at hleft
          have hlast := List.append_inj_right' hleft rfl
          rw [List.cons.injEq] at hlast
          rw [hpiece, hlast.1] at hmark
          exact absurd (by simp) hmark
      · refine Or.inr ⟨more, ?_, ?_⟩
        · rw [htail, hrest]
        · rw [hfront']
          simp

/-- A list without the mark that stands in neither part does not stand in the whole. -/
theorem not_infix_join (hmark : mark ∉ piece) (hleft : ¬ piece <:+: left)
    (hright : ¬ piece <:+: right) : ¬ piece <:+: left ++ mark :: right := by
  rintro ⟨front, back, h⟩
  rcases before_or_behind hmark h with ⟨rest, rfl, -⟩ | ⟨rest, rfl, -⟩
  · exact hleft ⟨front, rest, rfl⟩
  · exact hright ⟨rest, back, rfl⟩

end

section
omit [BEq α] [LawfulBEq α]
variable {mark : α} {front front' left right back back' : List α}

end

/-- Two parts joined by another mark than the separator have a piece without the mark only if one of
them has it. -/
theorem not_mem_splitOn_join {mark : α} {left right : List α} (hmark : mark ∉ piece) (hne : mark ≠ a)
    (hleft : piece ∉ left.splitOn a) (hright : piece ∉ right.splitOn a) :
    piece ∉ (left ++ mark :: right).splitOn a := by
  intro h
  obtain ⟨hpiece, front, back, heq, hfront, hback⟩ := mem_splitOn_iff.mp h
  rcases before_or_behind hmark heq.symm with ⟨rest, rfl, rfl⟩ | ⟨rest, rfl, rfl⟩
  · refine hleft (mem_splitOn_iff.mpr ⟨hpiece, front, rest, rfl, hfront, ?_⟩)
    rcases hback with hnil | ⟨behind, hbehind⟩
    · simp at hnil
    · cases rest with
      | nil => exact absurd (List.cons.inj hbehind).1 hne
      | cons first rest => exact Or.inr ⟨rest, by rw [(List.cons.inj hbehind).1]⟩
  · refine hright (mem_splitOn_iff.mpr ⟨hpiece, rest, back, rfl, ?_, hback⟩)
    rcases hfront with hnil | ⟨before, hbefore⟩
    · simp at hnil
    · rcases List.eq_nil_or_concat rest with rfl | ⟨rest, last, rfl⟩
      · have hlast := List.append_inj_right' hbefore rfl
        exact absurd (List.cons.inj hlast).1 hne
      · rw [List.concat_eq_append, ← List.cons_append, ← List.append_assoc] at hbefore
        have hlast := List.append_inj_right' hbefore rfl
        exact Or.inr ⟨rest, by rw [List.concat_eq_append, hlast]⟩

end PowerFramework.Lib.Segments
