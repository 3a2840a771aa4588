import Mathlib.Algebra.BigOperators.Group.List.Basic
import Mathlib.Algebra.GroupWithZero.Nat
import Mathlib.Data.List.Nodup
import Mathlib.Logic.Relation
/-!
# Breadth-first search

A queue of nodes, each of which hands on its successors the first time it is taken.  With fuel for
the queue and the successors of all nodes not yet seen it finds what the queue leads to.
-/

namespace PowerFramework.Lib.BreadthFirst

open Relation

variable {α : Type*} [DecidableEq α] {next : α → List α} {nodes : List α}

/-- The nodes seen once the queue is empty. -/
def walk (next : α → List α) : Nat → List α → List α → List α
  | 0, _, seen => seen
  | _ + 1, [], seen => seen
  | fuel + 1, node :: queue, seen =>
      if node ∈ seen then walk next fuel queue seen
      else walk next fuel (queue ++ next node) (seen ++ [node])

/-- How many successors the unseen nodes still have to hand on. -/
def pending (next : α → List α) (nodes seen : List α) : Nat :=
  ((nodes.filter (· ∉ seen)).map fun node => (next node).length).sum

theorem pending_concat {node : α} {seen : List α} (hnodup : nodes.Nodup) (hnode : node ∈ nodes)
    (hnew : node ∉ seen) :
    pending next nodes (seen ++ [node]) + (next node).length = pending next nodes seen := by
  unfold pending
  induction nodes with
  | nil => exact absurd hnode List.not_mem_nil
  | cons first nodes ih =>
      obtain ⟨hfirst, hnodup⟩ := List.nodup_cons.mp hnodup
      rcases List.mem_cons.mp hnode with rfl | hnode
      · have hrest : nodes.filter (· ∉ seen ++ [node]) = nodes.filter (· ∉ seen) := by
          apply List.filter_congr
          intro x hx
          have hne : x ≠ node := fun heq => hfirst (heq ▸ hx)
          simp [hne]
        have hout : ¬node ∉ seen ++ [node] := by simp
        rw [List.filter_cons_of_neg (by simp), hrest, List.filter_cons_of_pos (by simpa using hnew),
          List.map_cons, List.sum_cons, Nat.add_comm]
      · have hne : first ≠ node := fun heq => hfirst (heq ▸ hnode)
        have hih := ih hnodup hnode
        by_cases hseen : first ∈ seen
        · rw [List.filter_cons_of_neg (by simp [hseen]), List.filter_cons_of_neg (by simp [hseen])]
          exact hih
        · rw [List.filter_cons_of_pos (by simp [hseen, hne]),
            List.filter_cons_of_pos (by simp [hseen])]
          simp only [List.map_cons, List.sum_cons]
          omega

/-- What is seen in the end holds the queue and every successor, and comes from the queue. -/
structure Walked (next : α → List α) (queue seen found : List α) : Prop where
  keeps : seen ⊆ found
  takes : queue ⊆ found
  closed : ∀ x ∈ found, next x ⊆ found
  reached : ∀ x ∈ found, x ∈ seen ∨ ∃ q ∈ queue, ReflTransGen (fun a b => b ∈ next a) q x
  nodup : found.Nodup

theorem walked (hnodup : nodes.Nodup) (hclosed : ∀ x ∈ nodes, next x ⊆ nodes) {fuel : Nat}
    {queue seen : List α} (hqueue : queue ⊆ nodes) (hseen : seen.Nodup)
    (hfuel : queue.length + pending next nodes seen ≤ fuel)
    (hhanded : ∀ x ∈ seen, ∀ y ∈ next x, y ∈ seen ∨ y ∈ queue) :
    Walked next queue seen (walk next fuel queue seen) := by
  induction fuel generalizing queue seen with
  | zero =>
      obtain rfl : queue = [] := List.length_eq_zero_iff.mp (by omega)
      refine ⟨List.Subset.refl _, List.nil_subset _, ?_, fun x hx => Or.inl hx, hseen⟩
      intro x hx y hy
      exact (hhanded x hx y hy).resolve_right List.not_mem_nil
  | succ fuel ih =>
      cases queue with
      | nil =>
          refine ⟨List.Subset.refl _, List.nil_subset _, ?_, fun x hx => Or.inl hx, hseen⟩
          intro x hx y hy
          exact (hhanded x hx y hy).resolve_right List.not_mem_nil
      | cons node queue =>
          obtain ⟨hnode, hrest⟩ := List.cons_subset.mp hqueue
          rw [List.length_cons] at hfuel
          rw [walk]
          split_ifs with hold
          · have hih := ih hrest hseen (by omega) (by
              intro x hx y hy
              rcases hhanded x hx y hy with h | h
              · exact Or.inl h
              · rcases List.mem_cons.mp h with rfl | h
                · exact Or.inl hold
                · exact Or.inr h)
            refine ⟨hih.keeps, List.cons_subset.mpr ⟨hih.keeps hold, hih.takes⟩, hih.closed, ?_,
              hih.nodup⟩
            intro x hx
            rcases hih.reached x hx with h | ⟨q, hq, hpath⟩
            · exact Or.inl h
            · exact Or.inr ⟨q, List.mem_cons_of_mem _ hq, hpath⟩
          · have hpending : pending next nodes (seen ++ [node]) + (next node).length =
                pending next nodes seen := pending_concat hnodup hnode hold
            have hmore : queue ++ next node ⊆ nodes :=
              List.append_subset.mpr ⟨hrest, hclosed node hnode⟩
            have hnew : (seen ++ [node]).Nodup :=
              List.nodup_append.mpr ⟨hseen, List.nodup_singleton node, by
                intro a ha b hb heq
                rw [List.mem_singleton.mp hb] at heq
                exact hold (heq ▸ ha)⟩
            have hih := ih hmore hnew (by rw [List.length_append]; omega) (by
              intro x hx y hy
              rcases List.mem_append.mp hx with hx | hx
              · rcases hhanded x hx y hy with h | h
                · exact Or.inl (List.mem_append_left _ h)
                · rcases List.mem_cons.mp h with rfl | h
                  · exact Or.inl (by simp)
                  · exact Or.inr (List.mem_append_left _ h)
              · rw [List.mem_singleton.mp hx] at hy
                exact Or.inr (List.mem_append_right _ hy))
            obtain ⟨hseen', hqueue', hclosed', hreached', hnodup'⟩ := hih
            refine ⟨fun x hx => hseen' (List.mem_append_left _ hx), ?_, hclosed', ?_, hnodup'⟩
            · refine List.cons_subset.mpr ⟨hseen' (by simp), ?_⟩
              exact fun x hx => hqueue' (List.mem_append_left _ hx)
            · intro x hx
              rcases hreached' x hx with h | ⟨q, hq, hpath⟩
              · rcases List.mem_append.mp h with h | h
                · exact Or.inl h
                · rw [List.mem_singleton.mp h]
                  exact Or.inr ⟨node, List.mem_cons_self .., .refl⟩
              · rcases List.mem_append.mp hq with hq | hq
                · exact Or.inr ⟨q, List.mem_cons_of_mem _ hq, hpath⟩
                · exact Or.inr ⟨node, List.mem_cons_self .., .head hq hpath⟩

/-- The walk from the successors of a node finds what the node leads to. -/
theorem mem_walk_next (hnodup : nodes.Nodup) (hclosed : ∀ x ∈ nodes, next x ⊆ nodes) {fuel : Nat}
    {node x : α} (hnode : node ∈ nodes) (hfuel : (next node).length + pending next nodes [] ≤ fuel) :
    x ∈ walk next fuel (next node) [] ↔ TransGen (fun a b => b ∈ next a) node x := by
  have hwalked := walked hnodup hclosed (hclosed node hnode) List.nodup_nil hfuel (by simp)
  constructor
  · intro hx
    rcases hwalked.reached x hx with h | ⟨q, hq, hpath⟩
    · exact absurd h List.not_mem_nil
    · exact TransGen.head' hq hpath
  · intro hpath
    induction hpath with
    | single hstep => exact hwalked.takes hstep
    | tail _ hstep ih => exact hwalked.closed _ ih hstep

end PowerFramework.Lib.BreadthFirst
