import PowerFramework.Lib.DepthFirst
import PowerFramework.State.Projection
/-!
# Dependency cycles

What `detect_dependency_cycles` reports: loops of the relation between tasks that the declared and
the explicit dependencies make, and among tasks that each depend on one of them a loop that leads
from one of them to another.
-/

namespace PowerFramework.State

open Lib Lib.DepthFirst Lib.Failure Ledger

variable {tasks : Table TaskAuthorityView} {explicit : List Dependency}

/-! ## The search as a depth-first search -/

/-- A trail that the search comes back on, as the cycle it reports. -/
def addCycle (cycles : List (List String)) (trail : List String) : List (List String) :=
  if normalizeCycle trail ∈ cycles then cycles else cycles ++ [normalizeCycle trail]

theorem mem_foldl_addCycle {cycles trails : List (List String)} {cycle : List String} :
    cycle ∈ trails.foldl addCycle cycles ↔
      cycle ∈ cycles ∨ ∃ trail ∈ trails, normalizeCycle trail = cycle := by
  induction trails generalizing cycles with
  | nil => simp
  | cons trail trails ih =>
      have hadd : cycle ∈ addCycle cycles trail ↔
          cycle ∈ cycles ∨ normalizeCycle trail = cycle := by
        unfold addCycle
        split_ifs with hmem
        · constructor
          · exact Or.inl
          · rintro (h | rfl)
            · exact h
            · exact hmem
        · rw [List.mem_append, List.mem_singleton, eq_comm]
      rw [List.foldl_cons, ih, hadd, List.exists_mem_cons_iff, or_assoc]

/-- The reported cycles are those of the trails that the plain search keeps. -/
theorem cycleSearch_eq (next : String → List String) (fuel : Nat) (stack : List String)
    (node : String) (visited : List String) (trails : List (List String)) :
    cycleSearch next fuel stack node (visited, trails.foldl addCycle []) =
      ((explore next fuel stack node (visited, trails)).1,
        (explore next fuel stack node (visited, trails)).2.foldl addCycle []) := by
  induction fuel generalizing stack node visited trails with
  | zero => rfl
  | succ fuel ih =>
      rw [explore_succ]
      have hfold : ∀ (neighbors : List String) (visited : List String)
          (trails : List (List String)),
          neighbors.foldl (fun found neighbor =>
            if neighbor ∈ stack ++ [node] then
              (found.1, addCycle found.2 ((stack ++ [node]).drop ((stack ++ [node]).idxOf neighbor)))
            else if neighbor ∈ found.1 then found
            else cycleSearch next fuel (stack ++ [node]) neighbor found)
            (visited, trails.foldl addCycle []) =
          ((neighbors.foldl (turn next fuel (stack ++ [node])) (visited, trails)).1,
            (neighbors.foldl (turn next fuel (stack ++ [node])) (visited, trails)).2.foldl
              addCycle []) := by
        intro neighbors
        induction neighbors with
        | nil => exact fun _ _ => rfl
        | cons neighbor neighbors ihfold =>
            intro visited trails
            rw [List.foldl_cons, List.foldl_cons, turn]
            split_ifs with hstack hvisited
            · have hconcat : addCycle (trails.foldl addCycle [])
                  (behind (stack ++ [node]) neighbor) =
                  (trails ++ [behind (stack ++ [node]) neighbor]).foldl addCycle [] := by
                rw [List.foldl_append, List.foldl_cons, List.foldl_nil]
              rw [← ihfold, ← hconcat]
              rfl
            · exact ihfold visited trails
            · rw [ih]
              exact ihfold _ _
      exact hfold (next node) (node :: visited) trails

theorem detectDependencyCycles_eq :
    detectDependencyCycles tasks explicit =
      ((loops (neighbors tasks explicit) tasks.size tasks.keys).foldl addCycle []).mergeSort
        fun a b => a.length < b.length ∨ (a.length = b.length ∧ a ≤ b) := by
  have hfold : ∀ (roots visited : List String) (trails : List (List String)),
      roots.foldl (fun found node =>
          if node ∈ found.1 then found
          else cycleSearch (neighbors tasks explicit) tasks.size [] node found)
        (visited, trails.foldl addCycle []) =
      ((search (neighbors tasks explicit) tasks.size roots (visited, trails)).1,
        (search (neighbors tasks explicit) tasks.size roots (visited, trails)).2.foldl
          addCycle []) := by
    intro roots
    induction roots with
    | nil => exact fun _ _ => rfl
    | cons root roots ih =>
        intro visited trails
        rw [search, List.foldl_cons, List.foldl_cons]
        split_ifs with hvisited
        · exact ih visited trails
        · rw [cycleSearch_eq]
          exact ih _ _
  exact congrArg (fun found : Found String => found.2.mergeSort _) (hfold tasks.keys [] [])

/-- A reported cycle is a loop of the search, turned to its least task. -/
theorem mem_detectDependencyCycles {cycle : List String} :
    cycle ∈ detectDependencyCycles tasks explicit ↔
      ∃ trail ∈ loops (neighbors tasks explicit) tasks.size tasks.keys,
        normalizeCycle trail = cycle := by
  rw [detectDependencyCycles_eq, List.mem_mergeSort, mem_foldl_addCycle]
  simp

/-! ## The relation between tasks -/

theorem mem_neighbors {node id : String} :
    id ∈ neighbors tasks explicit node ↔
      ((∃ view, tasks[node]? = some view ∧ id ∈ view.dependencies) ∧ id ∈ tasks) ∨
        ∃ dep ∈ explicit, explicitNeighbor tasks node dep = some id := by
  unfold neighbors
  rw [mem_sortedSet, List.mem_append, List.mem_filter, List.mem_filterMap]
  cases tasks[node]? with
  | none => simp
  | some view => simp

/-- An explicit dependency between two tasks puts its target behind its source, one of kind
`blocked_by` its source behind its target. -/
theorem explicitNeighbor_eq_some {node id : String} {dep : Dependency} :
    explicitNeighbor tasks node dep = some id ↔
      (dep.text "source_id" ≠ "" ∧ dep.text "target_id" ≠ "" ∧ dep.text "source_id" ∈ tasks ∧
        dep.text "target_id" ∈ tasks) ∧
      ((dep.text "dependency_kind" ∈ ["blocks", "requires"] ∧
          dep.text "target_id" = node ∧ dep.text "source_id" = id) ∨
        (dep.text "dependency_kind" = "blocked_by" ∧ dep.text "source_id" = node ∧
          dep.text "target_id" = id)) := by
  unfold explicitNeighbor
  dsimp only
  split_ifs with hends hkind htarget hkind' hsource
  · obtain ⟨hsource, _, hmem, _⟩ := hends
    subst htarget
    rcases hkind with h | h <;> simp_all
  · rcases hkind with h | h <;> simp [h, htarget]
  · subst hsource
    simp [hends, hkind']
  · simp [hkind', hsource]
  · simp [hkind', not_or.mp hkind]
  · simp [hends]

theorem mem_of_mem_neighbors {node id : String} (h : id ∈ neighbors tasks explicit node) :
    node ∈ tasks ∧ id ∈ tasks := by
  rcases mem_neighbors.mp h with ⟨⟨view, hview, -⟩, hid⟩ | ⟨dep, -, hdep⟩
  · exact ⟨Std.ExtTreeMap.mem_iff_isSome_getElem?.mpr (by simp [hview]), hid⟩
  · obtain ⟨⟨-, -, hsource, htarget⟩, ⟨-, rfl, rfl⟩ | ⟨-, rfl, rfl⟩⟩ :=
      explicitNeighbor_eq_some.mp hdep
    · exact ⟨htarget, hsource⟩
    · exact ⟨hsource, htarget⟩

theorem neighbors_closed : ∀ x ∈ tasks.keys, neighbors tasks explicit x ⊆ tasks.keys :=
  fun _ _ _ hid => Std.ExtTreeMap.mem_keys.mpr (mem_of_mem_neighbors hid).2


theorem detectDependencyCycles_ne_nil :
    detectDependencyCycles tasks explicit ≠ [] ↔ ∃ id, OnCycle (neighbors tasks explicit) id := by
  have hsize : tasks.keys.length ≤ tasks.size := by rw [Std.ExtTreeMap.length_keys]
  rw [← loops_ne_nil neighbors_closed (List.Subset.refl _) hsize]
  · simp only [Ne, List.eq_nil_iff_forall_not_mem, mem_detectDependencyCycles]
    push Not
    constructor
    · rintro ⟨_, trail, htrail, -⟩
      exact ⟨trail, htrail⟩
    · rintro ⟨trail, htrail⟩
      exact ⟨_, trail, htrail, rfl⟩
  · intro id hne
    obtain ⟨neighbor, hneighbor⟩ := List.exists_mem_of_ne_nil _ hne
    exact Std.ExtTreeMap.mem_keys.mpr (mem_of_mem_neighbors hneighbor).1

/-! ## Reported cycles -/

/-- A closed list of tasks in which one of the given tasks is followed by another. -/
def Among (D : String → Prop) (cycle : List String) : Prop :=
  ∃ a b, D a ∧ D b ∧ [a, b] <:+: cycle

end PowerFramework.State
