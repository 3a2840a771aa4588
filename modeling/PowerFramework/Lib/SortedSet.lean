import Mathlib.Data.List.Basic
/-!
# Sorted sets

`sorted(set(xs))` as the listing of a tree set.  It depends on the members of the list only.
-/

namespace PowerFramework.Lib

open Std

variable {α : Type*} [Ord α] [TransOrd α] [LawfulEqOrd α]

/-- `sorted(set(xs))` -/
def sortedSet (xs : List α) : List α := (ExtTreeSet.ofList xs).toList

@[simp] theorem mem_sortedSet {xs : List α} {x : α} : x ∈ sortedSet xs ↔ x ∈ xs := by
  classical
  let : BEq α := instBEqOfDecidableEq
  rw [sortedSet, ExtTreeSet.mem_toList, ExtTreeSet.mem_ofList, List.contains_iff_mem]

theorem sortedSet_congr {xs ys : List α} (h : ∀ x, x ∈ xs ↔ x ∈ ys) :
    sortedSet xs = sortedSet ys := by
  have hset : ExtTreeSet.ofList xs = (ExtTreeSet.ofList ys : ExtTreeSet α) := by
    apply ExtTreeSet.ext_mem
    intro x
    rw [← ExtTreeSet.mem_toList, ← ExtTreeSet.mem_toList]
    change x ∈ sortedSet xs ↔ x ∈ sortedSet ys
    rw [mem_sortedSet, mem_sortedSet, h]
  rw [sortedSet, hset, sortedSet]

theorem sortedSet_eq_iff {xs ys : List α} :
    sortedSet xs = sortedSet ys ↔ ∀ x, x ∈ xs ↔ x ∈ ys := by
  constructor
  · intro h x
    rw [← mem_sortedSet, h, mem_sortedSet]
  · exact sortedSet_congr

@[simp] theorem sortedSet_sortedSet (xs : List α) : sortedSet (sortedSet xs) = sortedSet xs :=
  sortedSet_congr fun _ => mem_sortedSet

theorem nodup_sortedSet (xs : List α) : (sortedSet xs).Nodup := by
  apply ExtTreeSet.distinct_toList.imp
  intro a b hne heq
  exact hne (compare_eq_iff_eq.mpr heq)

@[simp] theorem sortedSet_eq_nil {xs : List α} : sortedSet xs = [] ↔ xs = [] := by
  simp only [List.eq_nil_iff_forall_not_mem, mem_sortedSet]

theorem sortedSet_singleton (x : α) : sortedSet [x] = [x] := by
  rw [← List.perm_singleton]
  have hsingle : [x].Nodup := by simp
  apply (List.perm_ext_iff_of_nodup (nodup_sortedSet _) hsingle).mpr
  intro y
  rw [mem_sortedSet]

/-- The duplicates of a list are gone. -/
theorem nodup_eraseDups {β : Type*} [DecidableEq β] (xs : List β) : xs.eraseDups.Nodup := by
  induction hlength : xs.length using Nat.strongRecOn generalizing xs with
  | _ n ih =>
    cases xs with
    | nil => simp
    | cons x xs =>
      rw [List.eraseDups_cons, List.nodup_cons]
      constructor
      · rw [List.mem_eraseDups, List.mem_filter]
        simp
      · refine ih (xs.filter fun y => !y == x).length ?_ _ rfl
        have hle := List.length_filter_le (fun y => !y == x) xs
        rw [List.length_cons] at hlength
        omega

end PowerFramework.Lib
