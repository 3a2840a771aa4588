import Mathlib.Data.String.Basic
import PowerFramework.Lib.Leftmost
import PowerFramework.State.Readiness
/-!
# Reported cycles

Every path that `detect_dependency_cycles` returns is a simple cycle written from its least task,
and none is returned exactly if there is no cycle.  Not every task on a cycle is reported: a search
that comes to a finished task does not come back to the tasks behind it.
-/

namespace PowerFramework.State

open Lib Lib.DepthFirst Lib.Failure Ledger

variable {tasks : Table TaskAuthorityView} {explicit : List Dependency}

/-! ## Canonical paths -/

/-- A simple directed cycle, written from its least task and back to it. -/
def IsCyclePath (next : String → List String) (path : List String) : Prop :=
  ∃ least rest, path = least :: rest ++ [least] ∧ (least :: rest).Nodup ∧
    Follows next (least :: rest ++ [least]) ∧ ∀ id ∈ rest, least ≤ id

/-- A loop is turned at its least task. -/
theorem normalizeCycle_eq {inner : List String} (h : inner ≠ []) : ∃ before least after,
    inner = before ++ least :: after ∧ (∀ id ∈ inner, least ≤ id) ∧
      normalizeCycle inner = least :: (after ++ before) ++ [least] := by
  cases hsorted : inner.mergeSort (· ≤ ·) with
  | nil =>
      have hlength : (inner.mergeSort (· ≤ ·)).length = inner.length := List.length_mergeSort inner
      rw [hsorted] at hlength
      exact absurd (List.length_eq_zero_iff.mp hlength.symm) h
  | cons least rest =>
      have hmem : least ∈ inner := by
        have hhead : least ∈ inner.mergeSort (· ≤ ·) := by
          rw [hsorted]
          exact List.mem_cons_self
        exact List.mem_mergeSort.mp hhead
      have hleast : ∀ id ∈ inner, least ≤ id := by
        have hpairwise : (inner.mergeSort (· ≤ ·)).Pairwise fun a b => decide (a ≤ b) = true := by
          apply List.pairwise_mergeSort
          · intro a b c hab hbc
            exact decide_eq_true ((of_decide_eq_true hab).trans (of_decide_eq_true hbc))
          · intro a b
            simpa using le_total a b
        intro id hid
        have hid' : id ∈ least :: rest := hsorted ▸ List.mem_mergeSort.mpr hid
        rw [hsorted] at hpairwise
        rcases List.mem_cons.mp hid' with rfl | hid'
        · exact le_refl id
        · exact of_decide_eq_true (List.rel_of_pairwise_cons hpairwise hid')
      have hindex : inner.idxOf least < inner.length := List.idxOf_lt_length_of_mem hmem
      have hdrop : inner.drop (inner.idxOf least) =
          least :: inner.drop (inner.idxOf least + 1) := by
        rw [List.drop_eq_getElem_cons hindex, List.getElem_idxOf]
      refine ⟨inner.take (inner.idxOf least), least, inner.drop (inner.idxOf least + 1), ?_, hleast,
        ?_⟩
      · rw [← hdrop, List.take_append_drop]
      · unfold normalizeCycle
        rw [hsorted]
        dsimp only
        rw [hdrop]
        simp

theorem mem_normalizeCycle {inner : List String} {id : String} :
    id ∈ normalizeCycle inner ↔ id ∈ inner := by
  rcases eq_or_ne inner [] with rfl | hne
  · simp [normalizeCycle]
  · obtain ⟨before, least, after, heq, -, hcycle⟩ := normalizeCycle_eq hne
    rw [hcycle, heq]
    simp only [List.mem_append, List.mem_cons, List.not_mem_nil, or_false]
    tauto

/-- A loop is a cycle from whichever of its nodes it is written. -/
theorem follows_turned {next : String → List String} {before after : List String} {node : String}
    (h : IsLoop next (before ++ node :: after)) :
    Follows next (node :: (after ++ before) ++ [node]) := by
  obtain ⟨hbefore, hafter, -⟩ := List.isChain_append.mp h.follows
  have hcloses := h.closes
  cases before with
  | nil =>
      rw [List.append_nil]
      refine List.isChain_append.mpr ⟨hafter, List.isChain_singleton node, ?_⟩
      intro a ha b hb
      rw [List.getLast?_eq_getLast_of_ne_nil (by simp), Option.mem_some_iff] at ha
      rw [List.head?_singleton, Option.mem_some_iff] at hb
      rw [← ha, ← hb]
      exact hcloses
  | cons first before =>
      have hprefix : Follows next ((first :: before) ++ [node]) := by
        have hsplit : (first :: before) ++ node :: after =
            ((first :: before) ++ [node]) ++ after := by simp
        exact (List.isChain_append.mp (hsplit ▸ h.follows)).1
      have hshape : node :: (after ++ first :: before) ++ [node] =
          (node :: after) ++ ((first :: before) ++ [node]) := by simp
      rw [hshape]
      refine List.isChain_append.mpr ⟨hafter, hprefix, ?_⟩
      intro a ha b hb
      rw [List.getLast?_eq_getLast_of_ne_nil (List.cons_ne_nil node after), Option.mem_some_iff]
        at ha
      have hb' : first = b := by simpa using hb
      rw [← ha, ← hb']
      simpa using hcloses

theorem isCyclePath_normalizeCycle {next : String → List String} {inner : List String}
    (h : IsLoop next inner) (hnodup : inner.Nodup) : IsCyclePath next (normalizeCycle inner) := by
  obtain ⟨before, least, after, rfl, hleast, hcycle⟩ := normalizeCycle_eq h.ne_nil
  refine ⟨least, after ++ before, hcycle, ?_, follows_turned h, ?_⟩
  · have hperm : List.Perm (before ++ least :: after) (least :: after ++ before) :=
      List.perm_append_comm
    exact hperm.nodup_iff.mp hnodup
  · intro id hid
    apply hleast id
    simp only [List.mem_append, List.mem_cons] at hid ⊢
    tauto

/-! ## What is reported -/

theorem length_keys_le : tasks.keys.length ≤ tasks.size := by
  rw [Std.ExtTreeMap.length_keys]

theorem isCyclePath_of_mem {cycle : List String}
    (h : cycle ∈ detectDependencyCycles tasks explicit) :
    IsCyclePath (neighbors tasks explicit) cycle := by
  obtain ⟨trail, htrail, rfl⟩ := mem_detectDependencyCycles.mp h
  exact isCyclePath_normalizeCycle
    (isLoop_of_mem_loops neighbors_closed (List.Subset.refl _) length_keys_le htrail)
    (nodup_of_mem_loops neighbors_closed (List.Subset.refl _) length_keys_le htrail)

theorem nodup_foldl_addCycle {cycles trails : List (List String)} (h : cycles.Nodup) :
    (trails.foldl addCycle cycles).Nodup := by
  induction trails generalizing cycles with
  | nil => exact h
  | cons trail trails ih =>
      rw [List.foldl_cons]
      apply ih
      unfold addCycle
      split_ifs with hmem
      · exact h
      · rw [List.nodup_append]
        refine ⟨h, List.nodup_singleton _, ?_⟩
        intro a ha b hb heq
        rw [List.mem_singleton.mp hb] at heq
        exact hmem (heq ▸ ha)

theorem nodup_detectDependencyCycles : (detectDependencyCycles tasks explicit).Nodup := by
  rw [detectDependencyCycles_eq]
  exact (List.mergeSort_perm _ _).nodup_iff.mpr (nodup_foldl_addCycle List.nodup_nil)

/-- The keys of a table depend on its members only. -/
theorem keys_congr {tasks' : Table TaskAuthorityView} (h : ∀ id, id ∈ tasks ↔ id ∈ tasks') :
    tasks.keys = tasks'.keys := by
  have hperm : tasks.keys.Perm tasks'.keys := by
    refine (List.perm_ext_iff_of_nodup tasks.nodup_keys tasks'.nodup_keys).mpr ?_
    intro id
    rw [Std.ExtTreeMap.mem_keys, Std.ExtTreeMap.mem_keys, h]
  refine hperm.eq_of_pairwise ?_ tasks.ordered_keys tasks'.ordered_keys
  intro a b _ _ hlt hgt
  rw [Std.OrientedCmp.gt_of_lt hlt] at hgt
  cases hgt

/-- The search reads the tasks and who waits for whom, and nothing else. -/
theorem detectDependencyCycles_congr {tasks' : Table TaskAuthorityView}
    {explicit' : List Dependency} (htasks : ∀ id, id ∈ tasks ↔ id ∈ tasks')
    (hneighbors : ∀ node id,
      id ∈ neighbors tasks explicit node ↔ id ∈ neighbors tasks' explicit' node) :
    detectDependencyCycles tasks explicit = detectDependencyCycles tasks' explicit' := by
  have hnext : neighbors tasks explicit = neighbors tasks' explicit' := by
    funext node
    apply sortedSet_congr
    intro id
    have hmem := hneighbors node id
    rwa [neighbors, neighbors, mem_sortedSet, mem_sortedSet] at hmem
  have hkeys := keys_congr htasks
  have hsize : tasks.size = tasks'.size := by
    rw [← Std.ExtTreeMap.length_keys, hkeys, Std.ExtTreeMap.length_keys]
  unfold detectDependencyCycles
  rw [hnext, hkeys, hsize]

/-! ## Tasks in any order -/

/-- A dict of tasks, with its items as they were inserted. -/
structure TaskDict where
  items : List (String × TaskAuthorityView)
  distinct : (items.map Prod.fst).Nodup

/-- What the search reads of a dict: its keys, and the value of each. -/
def TaskDict.table (dict : TaskDict) : Table TaskAuthorityView := Std.ExtTreeMap.ofList dict.items

/-- The same tasks and explicit dependencies, in any order, each task with the same declared
dependencies, in any order. -/
structure Reordered (dict dict' : TaskDict) (explicit explicit' : List Dependency) : Prop where
  left : ∀ id view, (id, view) ∈ dict.items →
    ∃ view', (id, view') ∈ dict'.items ∧ ∀ dep, dep ∈ view.dependencies ↔ dep ∈ view'.dependencies
  right : ∀ id view', (id, view') ∈ dict'.items →
    ∃ view, (id, view) ∈ dict.items ∧ ∀ dep, dep ∈ view.dependencies ↔ dep ∈ view'.dependencies
  explicit : ∀ dep, dep ∈ explicit ↔ dep ∈ explicit'

variable {dict dict' : TaskDict} {explicit' : List Dependency}

theorem getElem?_table {id : String} {view : TaskAuthorityView} :
    dict.table[id]? = some view ↔ (id, view) ∈ dict.items := by
  have hdistinct : dict.items.Pairwise fun a b => ¬compare a.1 b.1 = .eq := by
    refine (List.pairwise_map.mp dict.distinct).imp ?_
    intro a b hne heq
    exact hne (Std.LawfulEqOrd.eq_of_compare heq)
  have hsome : ∀ {value}, (id, value) ∈ dict.items → dict.table[id]? = some value :=
    fun hmem => Std.ExtTreeMap.getElem?_ofList_of_mem Std.ReflCmp.compare_self hdistinct hmem
  constructor
  · intro h
    have hmem : id ∈ dict.table := Std.ExtTreeMap.mem_iff_isSome_getElem?.mpr (by simp [h])
    rw [TaskDict.table, Std.ExtTreeMap.mem_ofList, List.contains_iff_mem] at hmem
    obtain ⟨⟨key, value⟩, hitem, rfl⟩ := List.mem_map.mp hmem
    rw [hsome hitem] at h
    exact Option.some.inj h ▸ hitem
  · exact hsome

theorem mem_table {id : String} : id ∈ dict.table ↔ ∃ view, (id, view) ∈ dict.items := by
  simp only [Std.ExtTreeMap.mem_iff_isSome_getElem?, Option.isSome_iff_exists, getElem?_table]

theorem Reordered.mem_table_iff (h : Reordered dict dict' explicit explicit') (id : String) :
    id ∈ dict.table ↔ id ∈ dict'.table := by
  rw [mem_table, mem_table]
  constructor
  · rintro ⟨view, hview⟩
    obtain ⟨view', hview', -⟩ := h.left id view hview
    exact ⟨view', hview'⟩
  · rintro ⟨view', hview'⟩
    obtain ⟨view, hview, -⟩ := h.right id view' hview'
    exact ⟨view, hview⟩

theorem Reordered.mem_neighbors_iff (h : Reordered dict dict' explicit explicit')
    (node id : String) :
    id ∈ neighbors dict.table explicit node ↔ id ∈ neighbors dict'.table explicit' node := by
  have hdeclared : (∃ view, dict.table[node]? = some view ∧ id ∈ view.dependencies) ↔
      ∃ view, dict'.table[node]? = some view ∧ id ∈ view.dependencies := by
    simp only [getElem?_table]
    constructor
    · rintro ⟨view, hview, hid⟩
      obtain ⟨view', hview', hsame⟩ := h.left node view hview
      exact ⟨view', hview', (hsame id).mp hid⟩
    · rintro ⟨view', hview', hid⟩
      obtain ⟨view, hview, hsame⟩ := h.right node view' hview'
      exact ⟨view, hview, (hsame id).mpr hid⟩
  have hexplicit : ∀ dep, explicitNeighbor dict.table node dep = some id ↔
      explicitNeighbor dict'.table node dep = some id := by
    intro dep
    simp only [explicitNeighbor_eq_some, h.mem_table_iff]
  simp only [mem_neighbors, hdeclared, h.mem_table_iff, h.explicit, hexplicit]

/-- The paths returned are simple cycles, each of them once and whatever the order of the tasks and
dependencies, and there are none exactly if the graph is acyclic. -/
theorem cycle_reports (dict : TaskDict) (explicit : List Dependency) :
    (∀ path ∈ detectDependencyCycles dict.table explicit,
        IsCyclePath (neighbors dict.table explicit) path) ∧
      (detectDependencyCycles dict.table explicit).Nodup ∧
      (∀ dict' explicit', Reordered dict dict' explicit explicit' →
        detectDependencyCycles dict'.table explicit' = detectDependencyCycles dict.table explicit) ∧
      (detectDependencyCycles dict.table explicit = [] ↔
        ∀ id, ¬OnCycle (neighbors dict.table explicit) id) := by
  refine ⟨fun path hpath => isCyclePath_of_mem hpath, nodup_detectDependencyCycles, ?_, ?_⟩
  · intro dict' explicit' h
    exact (detectDependencyCycles_congr h.mem_table_iff h.mem_neighbors_iff).symm
  · rw [← not_iff_not, ← Ne, detectDependencyCycles_ne_nil]
    push Not
    exact Iff.rfl

/-! ## Tasks on a cycle -/

/-- The task lies on a loop that is closed by the leftmost trail to some task. -/
def ClosedOver (tasks : Table TaskAuthorityView) (explicit : List Dependency) (id : String) :
    Prop :=
  ∃ last trail back, Branch (neighbors tasks explicit) last [] tasks.keys trail ∧
    back ∈ neighbors tasks explicit last ∧ back ∈ trail ∧ id ∈ behind trail back

/-- A task is reported exactly if such a loop passes it. -/
theorem reported_iff {id : String} :
    (∃ path ∈ detectDependencyCycles tasks explicit, id ∈ path) ↔ ClosedOver tasks explicit id := by
  constructor
  · rintro ⟨path, hpath, hid⟩
    obtain ⟨trail, htrail, rfl⟩ := mem_detectDependencyCycles.mp hpath
    obtain ⟨last, rest, back, hbranch, hback, hon, rfl⟩ :=
      (mem_loops_iff neighbors_closed (List.Subset.refl _) length_keys_le).mp htrail
    exact ⟨last, rest, back, hbranch, hback, hon, mem_normalizeCycle.mp hid⟩
  · rintro ⟨last, rest, back, hbranch, hback, hon, hid⟩
    refine ⟨_, mem_detectDependencyCycles.mpr ⟨behind rest back, ?_, rfl⟩,
      mem_normalizeCycle.mpr hid⟩
    exact (mem_loops_iff neighbors_closed (List.Subset.refl _) length_keys_le).mpr
      ⟨last, rest, back, hbranch, hback, hon, rfl⟩

theorem onCycle_of_reported {id : String}
    (h : ∃ path ∈ detectDependencyCycles tasks explicit, id ∈ path) :
    OnCycle (neighbors tasks explicit) id := by
  obtain ⟨path, hpath, hid⟩ := h
  obtain ⟨trail, htrail, rfl⟩ := mem_detectDependencyCycles.mp hpath
  have hmem := mem_normalizeCycle.mp hid
  exact together_self.mp ((isLoop_of_mem_loops neighbors_closed (List.Subset.refl _)
    length_keys_le htrail).together hmem hmem)

/-- The tasks reported are those on a cycle, and each of these that is not terminal is classified
so. -/
structure ReportsCycles (tasks : Table TaskAuthorityView) (explicit : List Dependency) : Prop where
  exact : ∀ id, (∃ path ∈ detectDependencyCycles tasks explicit, id ∈ path) ↔
    OnCycle (neighbors tasks explicit) id
  classified : ∀ (state : ProjectState) (task : TaskAuthorityView), task.terminal = false →
    OnCycle (neighbors tasks explicit) task.taskId →
    evaluateTaskReadiness task state (detectDependencyCycles tasks explicit).flatten =
      .circularDependency

theorem reports_cycles_iff (tasks : Table TaskAuthorityView) (explicit : List Dependency) :
    ReportsCycles tasks explicit ↔
      ∀ id, OnCycle (neighbors tasks explicit) id → ClosedOver tasks explicit id := by
  constructor
  · intro h id honcycle
    exact reported_iff.mp ((h.exact id).mpr honcycle)
  · intro h
    have hexact : ∀ id, (∃ path ∈ detectDependencyCycles tasks explicit, id ∈ path) ↔
        OnCycle (neighbors tasks explicit) id :=
      fun id => ⟨onCycle_of_reported, fun honcycle => reported_iff.mpr (h id honcycle)⟩
    refine ⟨hexact, ?_⟩
    intro state task hterminal honcycle
    have hmem : task.taskId ∈ (detectDependencyCycles tasks explicit).flatten :=
      List.mem_flatten.mpr ((hexact task.taskId).mpr honcycle)
    unfold evaluateTaskReadiness
    rw [hterminal, if_neg Bool.false_ne_true, if_pos hmem]

/-- `a` waits for `b` and `c`, which both wait for `a` or for each other. -/
def crossedTasks : Table TaskAuthorityView := Std.ExtTreeMap.ofList [
  ("a", submittedView "a" ["b", "c"]), ("b", submittedView "b" ["a"]),
  ("c", submittedView "c" ["b"])]

/-- The search comes to `c` when `b` is finished, and does not report it. -/
theorem crossed_not_reported : OnCycle (neighbors crossedTasks []) "c" ∧
    (¬∃ path ∈ detectDependencyCycles crossedTasks [], "c" ∈ path) ∧
      ¬ReportsCycles crossedTasks [] := by
  have hcycle : OnCycle (neighbors crossedTasks []) "c" := by
    have hb : "b" ∈ neighbors crossedTasks [] "c" := by decide +kernel
    have ha : "a" ∈ neighbors crossedTasks [] "b" := by decide +kernel
    have hc : "c" ∈ neighbors crossedTasks [] "a" := by decide +kernel
    exact ((Relation.TransGen.single hb).tail ha).tail hc
  have hloops : loops (neighbors crossedTasks []) crossedTasks.size crossedTasks.keys =
      [["a", "b"]] := by decide +kernel
  have hunreported : ¬∃ path ∈ detectDependencyCycles crossedTasks [], "c" ∈ path := by
    rintro ⟨path, hpath, hc⟩
    obtain ⟨trail, htrail, rfl⟩ := mem_detectDependencyCycles.mp hpath
    rw [hloops, List.mem_singleton] at htrail
    rw [mem_normalizeCycle, htrail] at hc
    exact absurd hc (by decide)
  exact ⟨hcycle, hunreported, fun h => hunreported ((h.exact "c").mpr hcycle)⟩

end PowerFramework.State
