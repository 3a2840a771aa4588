import Mathlib.Data.List.Nodup
import PowerFramework.Lib.Run
/-!
# Grouping by key

A dict that keeps its insertion order, and the loop that gathers values under their keys: each is
combined with what its key already holds.  What ends under a key is what the values with that key
make by themselves.
-/

namespace PowerFramework.Lib.Grouping

open Failure Run

variable {κ α β ε : Type} [DecidableEq κ]

/-- `d[key] = value` -/
def put (key : κ) (value : α) : List (κ × α) → List (κ × α)
  | [] => [(key, value)]
  | (k, v) :: d => if k = key then (key, value) :: d else (k, v) :: put key value d

/-- One value of the loop. -/
def regroup (step : Option α → β → Except ε α) (key : β → κ) (d : List (κ × α)) (x : β) :
    Except ε (List (κ × α)) :=
  (step (d.lookup (key x)) x).map fun value => put (key x) value d

/-- What one more value makes of what its key holds. -/
def combine (step : Option α → β → Except ε α) (held : Option α) (x : β) : Except ε (Option α) :=
  (step held x).map some

theorem lookup_cons [BEq κ] [LawfulBEq κ] (key k : κ) (value : α) (d : List (κ × α)) :
    List.lookup k ((key, value) :: d) = if k = key then some value else d.lookup k := by
  rw [List.lookup_cons]
  by_cases h : k = key
  · simp [h]
  · rw [if_neg h, beq_eq_false_iff_ne.mpr h]

theorem lookup_put (key k : κ) (value : α) (d : List (κ × α)) :
    (put key value d).lookup k = if k = key then some value else d.lookup k := by
  induction d with
  | nil => rw [put, lookup_cons]
  | cons item d ih =>
      obtain ⟨key', value'⟩ := item
      rw [put]
      by_cases hkey : key' = key
      · rw [if_pos hkey, lookup_cons, lookup_cons, hkey]
        split_ifs <;> rfl
      · rw [if_neg hkey, lookup_cons, lookup_cons, ih]
        by_cases hk : k = key'
        · rw [if_pos hk, if_pos hk, if_neg (hk ▸ hkey)]
        · rw [if_neg hk, if_neg hk]

theorem mem_put {key : κ} {value : α} {d : List (κ × α)} {item : κ × α}
    (h : item ∈ put key value d) : item = (key, value) ∨ item ∈ d := by
  induction d with
  | nil => exact Or.inl (by simpa [put] using h)
  | cons entry d ih =>
      obtain ⟨key', value'⟩ := entry
      rw [put] at h
      split_ifs at h with hkey
      · rcases List.mem_cons.mp h with h | h
        · exact Or.inl h
        · exact Or.inr (List.mem_cons_of_mem _ h)
      · rcases List.mem_cons.mp h with h | h
        · exact Or.inr (List.mem_cons.mpr (Or.inl h))
        · exact (ih h).imp id (List.mem_cons_of_mem _)

theorem mem_keys_put {key k : κ} {value : α} {d : List (κ × α)} :
    k ∈ (put key value d).map Prod.fst ↔ k = key ∨ k ∈ d.map Prod.fst := by
  induction d with
  | nil => simp [put]
  | cons item d ih =>
      obtain ⟨key', value'⟩ := item
      rw [put]
      by_cases hkey : key' = key
      · simp [hkey]
      · rw [if_neg hkey, List.map_cons, List.mem_cons, ih, List.map_cons, List.mem_cons]
        exact or_left_comm

theorem nodup_keys_put {key : κ} {value : α} {d : List (κ × α)} (h : (d.map Prod.fst).Nodup) :
    ((put key value d).map Prod.fst).Nodup := by
  induction d with
  | nil => simp [put]
  | cons item d ih =>
      obtain ⟨key', value'⟩ := item
      rw [List.map_cons, List.nodup_cons] at h
      rw [put]
      by_cases hkey : key' = key
      · rw [if_pos hkey, List.map_cons, List.nodup_cons]
        exact hkey ▸ h
      · rw [if_neg hkey, List.map_cons, List.nodup_cons, mem_keys_put]
        exact ⟨fun hmem => hmem.elim hkey h.1, ih h.2⟩

theorem lookup_isSome {k : κ} {d : List (κ × α)} : (d.lookup k).isSome ↔ k ∈ d.map Prod.fst := by
  induction d with
  | nil => simp
  | cons item d ih =>
      obtain ⟨key, value⟩ := item
      rw [lookup_cons, List.map_cons, List.mem_cons]
      by_cases h : k = key
      · simp [h]
      · rw [if_neg h, ih, or_iff_right h]

theorem lookup_eq_some_of_mem {k : κ} {value : α} {d : List (κ × α)} (h : (d.map Prod.fst).Nodup)
    (hmem : (k, value) ∈ d) : d.lookup k = some value := by
  induction d with
  | nil => cases hmem
  | cons item d ih =>
      obtain ⟨key, value'⟩ := item
      rw [List.map_cons, List.nodup_cons] at h
      rw [lookup_cons]
      rcases List.mem_cons.mp hmem with heq | hrest
      · cases heq
        exact if_pos rfl
      · have hne : k ≠ key := by
          rintro rfl
          exact h.1 (List.mem_map.mpr ⟨_, hrest, rfl⟩)
        rw [if_neg hne, ih h.2 hrest]

theorem mem_of_lookup [BEq κ] [LawfulBEq κ] {k : κ} {value : α} {d : List (κ × α)}
    (h : d.lookup k = some value) : (k, value) ∈ d := by
  induction d with
  | nil => cases h
  | cons item d ih =>
      obtain ⟨key, value'⟩ := item
      rw [lookup_cons] at h
      split_ifs at h with hk
      · cases h
        exact hk ▸ List.mem_cons_self
      · exact List.mem_cons_of_mem _ (ih h)

variable {step : Option α → β → Except ε α} {key : β → κ} {d d' : List (κ × α)} {xs : List β}

/-- What the loop leaves under a key, by induction on the values. -/
theorem lookup_regrouped (h : xs.foldlM (regroup step key) d = .ok d') (k : κ) :
    (xs.filter (key · = k)).foldlM (combine step) (d.lookup k) = .ok (d'.lookup k) := by
  induction xs generalizing d with
  | nil =>
      rw [foldlM_nil_eq_ok] at h
      rw [h, List.filter_nil]
      rfl
  | cons x xs ih =>
      obtain ⟨mid, hx, h⟩ := foldlM_cons_eq_ok.mp h
      obtain ⟨value, hvalue, rfl⟩ := map_eq_ok.mp hx
      have hrest := ih h
      rw [lookup_put] at hrest
      by_cases hk : key x = k
      · rw [List.filter_cons_of_pos (by simpa using hk), foldlM_cons_eq_ok]
        rw [if_pos hk.symm] at hrest
        rw [hk] at hvalue
        exact ⟨some value, map_eq_ok.mpr ⟨value, hvalue, rfl⟩, hrest⟩
      · rw [List.filter_cons_of_neg (by simpa using hk)]
        rwa [if_neg (Ne.symm hk)] at hrest

/-- The loop comes to its end when the values of every key can be combined. -/
theorem exists_regrouped_iff : (∃ d', xs.foldlM (regroup step key) d = .ok d') ↔
    ∀ k, ∃ held, (xs.filter (key · = k)).foldlM (combine step) (d.lookup k) = .ok held := by
  constructor
  · rintro ⟨d', h⟩ k
    exact ⟨_, lookup_regrouped h k⟩
  · intro h
    induction xs generalizing d with
    | nil => exact ⟨d, rfl⟩
    | cons x xs ih =>
        obtain ⟨held, hheld⟩ := h (key x)
        rw [List.filter_cons_of_pos (by simp), foldlM_cons_eq_ok] at hheld
        obtain ⟨mid, hmid, -⟩ := hheld
        obtain ⟨value, hvalue, -⟩ := map_eq_ok.mp hmid
        obtain ⟨d', hd'⟩ := @ih (put (key x) value d) (by
          intro k
          obtain ⟨held, hheld⟩ := h k
          rw [lookup_put]
          by_cases hk : key x = k
          · rw [List.filter_cons_of_pos (by simpa using hk), foldlM_cons_eq_ok] at hheld
            obtain ⟨mid, hmid, hrest⟩ := hheld
            rw [← hk, combine, hvalue] at hmid
            cases hmid
            rw [if_pos hk.symm]
            exact ⟨held, hrest⟩
          · rw [List.filter_cons_of_neg (by simpa using hk)] at hheld
            rw [if_neg (Ne.symm hk)]
            exact ⟨held, hheld⟩)
        exact ⟨d', foldlM_cons_eq_ok.mpr ⟨_, map_eq_ok.mpr ⟨value, hvalue, rfl⟩, hd'⟩⟩

/-- What every step gives, all that is gathered is. -/
theorem forall_regrouped {P : α → Prop}
    (hstep : ∀ held x value, x ∈ xs → (∀ v, held = some v → P v) → step held x = .ok value →
      P value) (hd : ∀ item ∈ d, P item.2) (h : xs.foldlM (regroup step key) d = .ok d') :
    ∀ item ∈ d', P item.2 := by
  induction xs generalizing d with
  | nil =>
      rw [foldlM_nil_eq_ok] at h
      exact h ▸ hd
  | cons x xs ih =>
      obtain ⟨mid, hx, h⟩ := foldlM_cons_eq_ok.mp h
      obtain ⟨value, hvalue, rfl⟩ := map_eq_ok.mp hx
      refine ih (fun held y v hy => hstep held y v (List.mem_cons_of_mem x hy)) ?_ h
      intro item hitem
      rcases mem_put hitem with rfl | hitem
      · exact hstep _ x value List.mem_cons_self (fun v hv => hd _ (mem_of_lookup hv)) hvalue
      · exact hd item hitem

theorem nodup_keys_regrouped (hd : (d.map Prod.fst).Nodup)
    (h : xs.foldlM (regroup step key) d = .ok d') : (d'.map Prod.fst).Nodup := by
  apply foldlM_invariant (P := fun d => (d.map Prod.fst).Nodup) _ hd h
  intro mid x next hmid hx
  obtain ⟨value, -, rfl⟩ := map_eq_ok.mp hx
  exact nodup_keys_put hmid

end PowerFramework.Lib.Grouping
