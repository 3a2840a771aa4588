import Mathlib.Data.List.Basic
/-!
# Loops that end at the first exception

A loop inside a `try`: what it did before an element failed stays done, and the elements behind
the one that failed are not looked at.
-/

namespace PowerFramework.Lib.Loop

universe u

variable {ε α β : Type u}

/-- The results of the elements before the first one that fails, and the one that fails. -/
def untilFailure (f : α → Except ε β) : List α → List (α × β) × Option (α × ε)
  | [] => ([], none)
  | x :: xs =>
      match f x with
      | .error e => ([], some (x, e))
      | .ok y => ((x, y) :: (untilFailure f xs).1, (untilFailure f xs).2)

/-- The loop comes to the element: nothing before it fails. -/
def Reaches (f : α → Except ε β) (xs : List α) (x : α) : Prop :=
  ∃ front back, xs = front ++ x :: back ∧ ∀ y ∈ front, ∃ z, f y = .ok z

/-- The elements the loop comes to. -/
def reached (f : α → Except ε β) : List α → List α
  | [] => []
  | x :: xs => x :: match f x with
      | .error _ => []
      | .ok _ => reached f xs

variable {f : α → Except ε β} {x y : α} {xs : List α}

theorem reaches_cons :
    Reaches f (x :: xs) y ↔ y = x ∨ (∃ z, f x = .ok z) ∧ Reaches f xs y := by
  constructor
  · rintro ⟨front, back, hxs, hfront⟩
    cases front with
    | nil => exact .inl (List.cons.inj hxs).1.symm
    | cons x' front =>
      obtain ⟨rfl, htail⟩ := List.cons.inj hxs
      rw [List.forall_mem_cons] at hfront
      exact .inr ⟨hfront.1, front, back, htail, hfront.2⟩
  · rintro (rfl | ⟨hx, front, back, hxs, hfront⟩)
    · exact ⟨[], xs, rfl, by simp⟩
    · exact ⟨x :: front, back, by rw [hxs]; rfl, by
        rw [List.forall_mem_cons]
        exact ⟨hx, hfront⟩⟩

theorem Reaches.mem (h : Reaches f xs x) : x ∈ xs := by
  obtain ⟨front, back, rfl, -⟩ := h
  simp

/-- What stands before an element the loop comes to does not fail. -/
theorem Reaches.front_ok {front back : List α} (h : Reaches f (front ++ x :: back) x)
    (hx : x ∉ front) : ∀ y ∈ front, ∃ z, f y = .ok z := by
  induction front with
  | nil => simp
  | cons y front ih =>
    rw [List.mem_cons, not_or] at hx
    rcases reaches_cons.mp h with rfl | ⟨hy, htail⟩
    · exact absurd rfl hx.1
    · rw [List.forall_mem_cons]
      exact ⟨hy, ih htail hx.2⟩

/-- A loop that comes to an element comes to the first one like it, and if that is another one
it does not fail there. -/
theorem Reaches.first {p : α → Bool} (h : Reaches f xs y) (hy : p y = true)
    (hx : xs.find? p = some x) : Reaches f xs x ∧ (x = y ∨ ∃ z, f x = .ok z) := by
  induction xs with
  | nil => cases hx
  | cons x' xs ih =>
    rw [List.find?_cons] at hx
    rcases reaches_cons.mp h with rfl | ⟨hx', htail⟩
    · rw [hy] at hx
      cases hx
      exact ⟨h, .inl rfl⟩
    · split at hx
      · cases hx
        exact ⟨reaches_cons.mpr (.inl rfl), .inr hx'⟩
      · obtain ⟨hreach, hread⟩ := ih htail hx
        exact ⟨reaches_cons.mpr (.inr ⟨hx', hreach⟩), hread⟩

theorem mem_reached : y ∈ reached f xs ↔ Reaches f xs y := by
  induction xs with
  | nil =>
    constructor
    · intro h
      cases h
    · intro h
      exact absurd h.mem List.not_mem_nil
  | cons x xs ih =>
    rw [reached, List.mem_cons, reaches_cons]
    cases hx : f x with
    | error e => simp
    | ok z => simp [ih]

/-- The results are those of the elements the loop comes to that do not fail. -/
theorem mem_untilFailure {z : β} :
    (y, z) ∈ (untilFailure f xs).1 ↔ Reaches f xs y ∧ f y = .ok z := by
  induction xs with
  | nil =>
    constructor
    · intro h
      cases h
    · rintro ⟨h, -⟩
      exact absurd h.mem List.not_mem_nil
  | cons x xs ih =>
    rw [untilFailure, reaches_cons]
    cases hx : f x with
    | error e =>
      constructor
      · intro h
        cases h
      · rintro ⟨rfl | ⟨⟨w, hw⟩, -⟩, hy⟩
        · rw [hx] at hy
          cases hy
        · cases hw
    | ok w =>
      simp only [List.mem_cons, Prod.mk.injEq, ih, Except.ok.injEq, exists_eq', true_and]
      constructor
      · rintro (⟨rfl, rfl⟩ | ⟨hreach, hy⟩)
        · exact ⟨.inl rfl, hx⟩
        · exact ⟨.inr hreach, hy⟩
      · rintro ⟨rfl | hreach, hy⟩
        · rw [hx] at hy
          cases hy
          exact .inl ⟨rfl, rfl⟩
        · exact .inr ⟨hreach, hy⟩

/-- A loop without a failure comes to every element. -/
theorem reaches_of_none (h : (untilFailure f xs).2 = none) (hx : x ∈ xs) : Reaches f xs x := by
  induction xs with
  | nil => cases hx
  | cons x' xs ih =>
    rw [untilFailure] at h
    cases hx' : f x' with
    | error e =>
      rw [hx'] at h
      cases h
    | ok w =>
      rw [hx'] at h
      rcases List.mem_cons.mp hx with rfl | hx
      · exact reaches_cons.mpr (.inl rfl)
      · exact reaches_cons.mpr (.inr ⟨⟨w, hx'⟩, ih h hx⟩)

/-- Without a failure every element has its result. -/
theorem ok_of_none (h : (untilFailure f xs).2 = none) (hx : x ∈ xs) : ∃ z, f x = .ok z := by
  induction xs with
  | nil => cases hx
  | cons x' xs ih =>
    rw [untilFailure] at h
    cases hx' : f x' with
    | error e =>
      rw [hx'] at h
      cases h
    | ok w =>
      rw [hx'] at h
      rcases List.mem_cons.mp hx with rfl | hx
      · exact ⟨w, hx'⟩
      · exact ih h hx

/-- A loop has no failure exactly when no element fails. -/
theorem failure_eq_none_iff : (untilFailure f xs).2 = none ↔ ∀ x ∈ xs, ∃ z, f x = .ok z := by
  constructor
  · intro h x hx
    exact ok_of_none h hx
  · intro h
    induction xs with
    | nil => rfl
    | cons x xs ih =>
      rw [List.forall_mem_cons] at h
      obtain ⟨z, hz⟩ := h.1
      rw [untilFailure, hz]
      exact ih h.2

end PowerFramework.Lib.Loop
