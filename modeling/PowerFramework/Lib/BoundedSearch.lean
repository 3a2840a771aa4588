import Mathlib.Combinatorics.SimpleGraph.Metric
import PowerFramework.Lib.Grouping
/-!
# Breadth-first search with a bound

The search notes the distance of a node when it first meets it, and does not go on from the nodes
at the bound.  With fuel for all nodes it ends with the distances of the ball around its start, as
they are in the graph (`mem_search`).
-/

namespace PowerFramework.Lib.BoundedSearch

open Grouping

variable {α : Type} [DecidableEq α]

/-- The distances noted so far, and the nodes to go on from. -/
structure Search (α : Type) where
  distances : List (α × Nat)
  queue : List α

/-- The nodes with a distance. -/
def Search.known (s : Search α) : List α := s.distances.map Prod.fst

def Search.distanceOf (s : Search α) (node : α) : Nat := (s.distances.lookup node).getD 0

/-- A neighbour of a node at a distance. -/
def meet (distance : Nat) (s : Search α) (neighbor : α) : Search α :=
  if neighbor ∈ s.known then s
  else ⟨s.distances ++ [(neighbor, distance + 1)], s.queue ++ [neighbor]⟩

/-- The first node of the queue hands on its neighbours. -/
def visit (next : α → List α) (bound : Nat) (s : Search α) : Search α :=
  match s.queue with
  | [] => s
  | node :: queue =>
      if bound ≤ s.distanceOf node then ⟨s.distances, queue⟩
      else (next node).foldl (meet (s.distanceOf node)) ⟨s.distances, queue⟩

def search (next : α → List α) (bound : Nat) : Nat → Search α → Search α
  | 0, s => s
  | fuel + 1, s => search next bound fuel (visit next bound s)

/-- The search around a node. -/
def around (start : α) : Search α := ⟨[(start, 0)], [start]⟩

/-! ## One visit -/

section
variable {s : Search α} {distance : Nat}

omit [DecidableEq α] in
theorem Search.mem_known {node : α} : node ∈ s.known ↔ ∃ d, (node, d) ∈ s.distances := by
  simp [Search.known]

theorem Search.distanceOf_eq (hnodup : s.known.Nodup) {node : α} {d : Nat}
    (h : (node, d) ∈ s.distances) : s.distanceOf node = d := by
  rw [Search.distanceOf, lookup_eq_some_of_mem hnodup h]
  rfl

/-- The nodes met for the first time go behind the others, and stay in the order of the queue. -/
theorem foldl_meet (neighbors : List α) :
    ∃ fresh : List α, fresh.Nodup ∧ (∀ node ∈ fresh, node ∈ neighbors ∧ node ∉ s.known) ∧
      (∀ node ∈ neighbors, node ∈ s.known ∨ node ∈ fresh) ∧
      neighbors.foldl (meet distance) s =
        ⟨s.distances ++ fresh.map fun node => (node, distance + 1), s.queue ++ fresh⟩ := by
  induction neighbors generalizing s with
  | nil => exact ⟨[], List.nodup_nil, nofun, nofun, by simp⟩
  | cons neighbor neighbors ih =>
    by_cases hknown : neighbor ∈ s.known
    · obtain ⟨fresh, hnodup, hfresh, hall, heq⟩ := @ih s
      refine ⟨fresh, hnodup, fun node hnode => ?_, fun node hnode => ?_, ?_⟩
      · exact ⟨List.mem_cons_of_mem _ (hfresh node hnode).1, (hfresh node hnode).2⟩
      · rcases List.mem_cons.mp hnode with rfl | hnode
        · exact Or.inl hknown
        · exact hall node hnode
      · rw [List.foldl_cons, meet, if_pos hknown, heq]
    · obtain ⟨fresh, hnodup, hfresh, hall, heq⟩ :=
        @ih ⟨s.distances ++ [(neighbor, distance + 1)], s.queue ++ [neighbor]⟩
      have hmore : ∀ node, node ∈ (⟨s.distances ++ [(neighbor, distance + 1)],
          s.queue ++ [neighbor]⟩ : Search α).known ↔ node ∈ s.known ∨ node = neighbor := by
        intro node
        simp [Search.known]
      refine ⟨neighbor :: fresh, ?_, fun node hnode => ?_, fun node hnode => ?_, ?_⟩
      · rw [List.nodup_cons]
        exact ⟨fun hmem => (hfresh neighbor hmem).2 ((hmore neighbor).mpr (Or.inr rfl)), hnodup⟩
      · rcases List.mem_cons.mp hnode with rfl | hnode
        · exact ⟨List.mem_cons_self, hknown⟩
        · obtain ⟨hmem, hnew⟩ := hfresh node hnode
          rw [hmore, not_or] at hnew
          exact ⟨List.mem_cons_of_mem _ hmem, hnew.1⟩
      · rcases List.mem_cons.mp hnode with rfl | hnode
        · exact Or.inr List.mem_cons_self
        · rcases hall node hnode with hold | hnew
          · rcases (hmore node).mp hold with hold | rfl
            · exact Or.inl hold
            · exact Or.inr List.mem_cons_self
          · exact Or.inr (List.mem_cons_of_mem _ hnew)
      · rw [List.foldl_cons, meet, if_neg hknown, heq]
        simp

end

/-! ## The invariant -/

/-- The neighbours that are listed are those of a graph, possibly with the node itself. -/
def Lists (G : SimpleGraph α) (next : α → List α) : Prop :=
  (∀ a, ∀ b ∈ next a, a = b ∨ G.Adj a b) ∧ ∀ a b, G.Adj a b → b ∈ next a

/-- The distances are those of walks, the queue is in their order, no node is further than the next
one and a step, and the nodes that are done have met their neighbours. -/
structure Searching (G : SimpleGraph α) (next : α → List α) (bound : Nat) (start : α)
    (s : Search α) : Prop where
  nodup : s.known.Nodup
  origin : (start, 0) ∈ s.distances
  walks : ∀ node d, (node, d) ∈ s.distances → d ≤ bound ∧ ∃ walk : G.Walk start node, walk.length = d
  queued : ∀ node ∈ s.queue, node ∈ s.known
  ordered : s.queue.Pairwise fun a b => s.distanceOf a ≤ s.distanceOf b
  near : ∀ first ∈ s.queue.head?, ∀ node d, (node, d) ∈ s.distances → d ≤ s.distanceOf first + 1
  done : ∀ node d, (node, d) ∈ s.distances → node ∈ s.queue ∨ bound ≤ d ∨
    ∀ b ∈ next node, ∃ e ≤ d + 1, (b, e) ∈ s.distances

section
variable {G : SimpleGraph α} {next : α → List α} {bound : Nat} {start : α} {s : Search α}

theorem searching_around (bound : Nat) (start : α) : Searching G next bound start (around start) where
  nodup := List.nodup_singleton start
  origin := List.mem_singleton_self _
  walks node d h := by
    obtain ⟨rfl, rfl⟩ := Prod.mk.inj (List.mem_singleton.mp h)
    exact ⟨Nat.zero_le _, .nil, rfl⟩
  queued node h := h
  ordered := List.pairwise_singleton _ _
  near first _ node d h := by
    obtain ⟨-, rfl⟩ := Prod.mk.inj (List.mem_singleton.mp h)
    exact Nat.zero_le _
  done node d h := by
    obtain ⟨rfl, rfl⟩ := Prod.mk.inj (List.mem_singleton.mp h)
    exact Or.inl (List.mem_singleton_self _)

/-- A visit keeps the invariant. -/
theorem Searching.visit (hlists : Lists G next) (h : Searching G next bound start s) :
    Searching G next bound start (visit next bound s) := by
  obtain ⟨distances, queue⟩ := s
  cases queue with
  | nil => exact h
  | cons node queue =>
    have hnode := h.queued node List.mem_cons_self
    obtain ⟨d, hd⟩ := Search.mem_known.mp hnode
    have hdistance : (⟨distances, node :: queue⟩ : Search α).distanceOf node = d :=
      Search.distanceOf_eq h.nodup hd
    have hordered := List.pairwise_cons.mp h.ordered
    have hnear : ∀ other e, (other, e) ∈ distances → e ≤ d + 1 := by
      intro other e hother
      have := h.near node rfl other e hother
      rw [hdistance] at this
      exact this
    have hqueue : ∀ other ∈ queue, ∃ e, d ≤ e ∧ (other, e) ∈ distances := by
      intro other hother
      obtain ⟨e, he⟩ := Search.mem_known.mp (h.queued other (List.mem_cons_of_mem _ hother))
      have hle := hordered.1 other hother
      rw [hdistance, Search.distanceOf_eq h.nodup he] at hle
      exact ⟨e, hle, he⟩
    rw [BoundedSearch.visit]
    simp only [hdistance]
    split_ifs with hbound
    · refine ⟨h.nodup, h.origin, h.walks, fun other hother => h.queued other
        (List.mem_cons_of_mem _ hother), hordered.2, ?_, ?_⟩
      · intro first hfirst other e hother
        obtain ⟨e', he', hmem⟩ := hqueue first (List.mem_of_mem_head? hfirst)
        have hfirst' : (⟨distances, queue⟩ : Search α).distanceOf first = e' :=
          Search.distanceOf_eq h.nodup hmem
        have := hnear other e hother
        omega
      · intro other e hother
        rcases h.done other e hother with hqueued | hdone
        · rcases List.mem_cons.mp hqueued with rfl | hqueued
          · have hsame : e = d := by
              rw [← hdistance]
              exact (Search.distanceOf_eq h.nodup hother).symm
            exact Or.inr (Or.inl (hsame ▸ hbound))
          · exact Or.inl hqueued
        · exact Or.inr hdone
    · obtain ⟨fresh, hnodup, hfresh, hall, heq⟩ :=
        @foldl_meet _ _ ⟨distances, queue⟩ d (next node)
      dsimp only at heq
      rw [heq]
      have hknown : (⟨distances ++ fresh.map fun node => (node, d + 1), queue ++ fresh⟩ :
          Search α).known = (⟨distances, queue⟩ : Search α).known ++ fresh := by
        simp [Search.known, Function.comp_def]
      have hdistinct : ((⟨distances, queue⟩ : Search α).known ++ fresh).Nodup := by
        rw [List.nodup_append]
        refine ⟨h.nodup, hnodup, ?_⟩
        rintro a ha b hb rfl
        exact (hfresh a hb).2 ha
      have hentry : ∀ other e, (other, e) ∈ distances ++ fresh.map (fun node => (node, d + 1)) ↔
          (other, e) ∈ distances ∨ other ∈ fresh ∧ e = d + 1 := by
        intro other e
        rw [List.mem_append, List.mem_map]
        constructor
        · rintro (hold | ⟨new, hnew, heq⟩)
          · exact Or.inl hold
          · obtain ⟨rfl, rfl⟩ := Prod.mk.inj heq
            exact Or.inr ⟨hnew, rfl⟩
        · rintro (hold | ⟨hnew, rfl⟩)
          · exact Or.inl hold
          · exact Or.inr ⟨other, hnew, rfl⟩
      have hkept : ∀ other e, (other, e) ∈ distances ∨ other ∈ fresh ∧ e = d + 1 →
          (⟨distances ++ fresh.map fun node => (node, d + 1), queue ++ fresh⟩ :
            Search α).distanceOf other = e := by
        intro other e hother
        exact Search.distanceOf_eq (hknown ▸ hdistinct) ((hentry other e).mpr hother)
      have hsorted : (queue ++ fresh).Pairwise fun a b =>
          (⟨distances ++ fresh.map fun node => (node, d + 1), queue ++ fresh⟩ :
            Search α).distanceOf a ≤ (⟨distances ++ fresh.map fun node => (node, d + 1),
              queue ++ fresh⟩ : Search α).distanceOf b := by
        rw [List.pairwise_append]
        refine ⟨hordered.2.imp_of_mem ?_, List.pairwise_of_forall_mem_list ?_, ?_⟩
        · intro a b ha hb hle
          obtain ⟨e, -, he⟩ := hqueue a ha
          obtain ⟨e', -, he'⟩ := hqueue b hb
          rw [Search.distanceOf_eq h.nodup he, Search.distanceOf_eq h.nodup he'] at hle
          rw [hkept a e (Or.inl he), hkept b e' (Or.inl he')]
          exact hle
        · intro a ha b hb
          rw [hkept a _ (Or.inr ⟨ha, rfl⟩), hkept b _ (Or.inr ⟨hb, rfl⟩)]
        · intro a ha b hb
          obtain ⟨e, -, he⟩ := hqueue a ha
          rw [hkept a e (Or.inl he), hkept b _ (Or.inr ⟨hb, rfl⟩)]
          exact hnear a e he
      refine ⟨hknown ▸ hdistinct, (hentry _ _).mpr (Or.inl h.origin), ?_, ?_, hsorted, ?_, ?_⟩
      · intro other e hother
        rcases (hentry other e).mp hother with hold | ⟨hnew, rfl⟩
        · exact h.walks other e hold
        · obtain ⟨walk, hlength⟩ := (h.walks node d hd).2
          have hadj : G.Adj node other := by
            rcases hlists.1 node other (hfresh other hnew).1 with rfl | hadj
            · exact absurd hnode (hfresh node hnew).2
            · exact hadj
          exact ⟨by omega, walk.concat hadj, by rw [SimpleGraph.Walk.length_concat, hlength]⟩
      · intro other hother
        rw [hknown]
        rcases List.mem_append.mp hother with hold | hnew
        · exact List.mem_append_left _ (h.queued other (List.mem_cons_of_mem _ hold))
        · exact List.mem_append_right _ hnew
      · intro first hfirst other e hother
        have hlow : d ≤ (⟨distances ++ fresh.map fun node => (node, d + 1), queue ++ fresh⟩ :
            Search α).distanceOf first := by
          rcases List.mem_append.mp (List.mem_of_mem_head? hfirst) with hold | hnew
          · obtain ⟨e', hle, he'⟩ := hqueue first hold
            rw [hkept first e' (Or.inl he')]
            exact hle
          · rw [hkept first _ (Or.inr ⟨hnew, rfl⟩)]
            omega
        rcases (hentry other e).mp hother with hold | ⟨-, rfl⟩
        · have := hnear other e hold
          omega
        · omega
      · intro other e hother
        rcases (hentry other e).mp hother with hold | ⟨hnew, -⟩
        · rcases h.done other e hold with hqueued | hfar | hmet
          · rcases List.mem_cons.mp hqueued with rfl | hqueued
            · have hsame : e = d := by
                rw [← hdistance]
                exact (Search.distanceOf_eq h.nodup hold).symm
              right
              right
              intro b hb
              rcases hall b hb with hmem | hmem
              · obtain ⟨e', he'⟩ := Search.mem_known.mp hmem
                exact ⟨e', hsame ▸ hnear b e' he', (hentry b e').mpr (Or.inl he')⟩
              · exact ⟨d + 1, by omega, (hentry b _).mpr (Or.inr ⟨hmem, rfl⟩)⟩
            · exact Or.inl (List.mem_append_left _ hqueued)
          · exact Or.inr (Or.inl hfar)
          · right
            right
            intro b hb
            obtain ⟨e', hle, he'⟩ := hmet b hb
            exact ⟨e', hle, (hentry b e').mpr (Or.inl he')⟩
        · exact Or.inl (List.mem_append_right _ hnew)

theorem Searching.search (hlists : Lists G next) (fuel : Nat) (h : Searching G next bound start s) :
    Searching G next bound start (search next bound fuel s) := by
  induction fuel generalizing s with
  | zero => exact h
  | succ fuel ih => exact ih (h.visit hlists)

/-! ## Fuel -/

/-- The visits that can still be made: of the queue, and of the nodes not met yet. -/
def Search.pending (nodes : List α) (s : Search α) : Nat :=
  s.queue.length + (nodes.filter (· ∉ s.known)).length

variable {nodes : List α}

/-- A visit takes one node from the queue, and adds those that it meets. -/
theorem pending_visit (hnodes : nodes.Nodup) (hclosed : ∀ node ∈ nodes, next node ⊆ nodes)
    (hknown : s.known ⊆ nodes) (hqueue : s.queue ⊆ s.known) (hne : s.queue ≠ []) :
    (visit next bound s).known ⊆ nodes ∧ (visit next bound s).queue ⊆ (visit next bound s).known ∧
      (visit next bound s).pending nodes < s.pending nodes := by
  obtain ⟨distances, queue⟩ := s
  cases queue with
  | nil => exact absurd rfl hne
  | cons node queue =>
    obtain ⟨hnode, hrest⟩ := List.cons_subset.mp hqueue
    rw [visit]
    dsimp only
    split_ifs with hbound
    · refine ⟨hknown, hrest, ?_⟩
      rw [Search.pending, Search.pending, List.length_cons]
      show queue.length + _ < queue.length + 1 + _
      exact Nat.add_lt_add_right (Nat.lt_succ_self _) _
    · obtain ⟨fresh, hnodup, hfresh, -, heq⟩ := @foldl_meet _ _ ⟨distances, queue⟩
        ((⟨distances, node :: queue⟩ : Search α).distanceOf node) (next node)
      rw [heq]
      set known := (⟨distances, queue⟩ : Search α).known with hknown'
      have hmore : (⟨distances ++ fresh.map fun other => (other,
          (⟨distances, node :: queue⟩ : Search α).distanceOf node + 1), queue ++ fresh⟩ :
            Search α).known = known ++ fresh := by
        simp [Search.known, hknown', Function.comp_def]
      have hnew : fresh ⊆ nodes := fun other hother =>
        hclosed node (hknown hnode) (hfresh other hother).1
      refine ⟨?_, ?_, ?_⟩
      · rw [hmore]
        exact List.append_subset.mpr ⟨hknown, hnew⟩
      · rw [hmore]
        exact List.append_subset.mpr ⟨List.subset_append_of_subset_left _ hrest,
          List.subset_append_right _ _⟩
      · rw [Search.pending, Search.pending, hmore]
        have hdistinct : (fresh ++ nodes.filter (· ∉ known ++ fresh)).Nodup := by
          rw [List.nodup_append]
          refine ⟨hnodup, hnodes.filter _, ?_⟩
          rintro a ha b hb rfl
          have hout := of_decide_eq_true (List.mem_filter.mp hb).2
          exact hout (List.mem_append_right _ ha)
        have hsubset : fresh ++ nodes.filter (· ∉ known ++ fresh) ⊆ nodes.filter (· ∉ known) := by
          intro other hother
          rw [List.mem_filter, decide_eq_true_iff]
          rcases List.mem_append.mp hother with hother | hother
          · exact ⟨hnew hother, (hfresh other hother).2⟩
          · rw [List.mem_filter, decide_eq_true_iff, List.mem_append, not_or] at hother
            exact ⟨hother.1, hother.2.1⟩
        have hcount := (hdistinct.subperm hsubset).length_le
        rw [List.length_append] at hcount
        show (queue ++ fresh).length + _ < (node :: queue).length +
          (nodes.filter (· ∉ known)).length
        rw [List.length_append, List.length_cons]
        omega

theorem search_of_queue_eq_nil (fuel : Nat) (h : s.queue = []) : search next bound fuel s = s := by
  induction fuel with
  | zero => rfl
  | succ fuel ih =>
    have hvisit : visit next bound s = s := by
      rw [visit, h]
    rw [search, hvisit, ih]

/-- With a visit for every node the queue runs empty. -/
theorem queue_search (hnodes : nodes.Nodup) (hclosed : ∀ node ∈ nodes, next node ⊆ nodes)
    {fuel : Nat} (hknown : s.known ⊆ nodes) (hqueue : s.queue ⊆ s.known)
    (hfuel : s.pending nodes ≤ fuel) : (search next bound fuel s).queue = [] := by
  induction fuel generalizing s with
  | zero =>
    have hlength : s.queue.length = 0 := by
      rw [Search.pending] at hfuel
      omega
    exact List.length_eq_zero_iff.mp hlength
  | succ fuel ih =>
    by_cases hne : s.queue = []
    · rw [search_of_queue_eq_nil _ hne, hne]
    · obtain ⟨hknown', hqueue', hless⟩ := @pending_visit _ _ next bound s nodes hnodes hclosed hknown
        hqueue hne
      exact ih hknown' hqueue' (by omega)

/-! ## The ball -/

/-- When the queue has run empty, a walk within the bound has met its last node. -/
theorem Searching.met (h : Searching G next bound start s) (hlists : Lists G next)
    (hqueue : s.queue = []) {node : α} (walk : G.Walk start node) (hwalk : walk.length ≤ bound) :
    ∃ d ≤ walk.length, (node, d) ∈ s.distances := by
  induction hlength : walk.length generalizing node with
  | zero =>
    obtain rfl := SimpleGraph.Walk.eq_of_length_eq_zero hlength
    exact ⟨0, le_rfl, h.origin⟩
  | succ n ih =>
    have hnil : ¬ walk.Nil := by
      rw [← SimpleGraph.Walk.length_eq_zero_iff]
      omega
    have hdrop : walk.dropLast.length = n := by
      rw [SimpleGraph.Walk.length_dropLast, hlength]
      omega
    obtain ⟨d, hle, hd⟩ := ih walk.dropLast (by omega) hdrop
    rcases h.done walk.penultimate d hd with hqueued | hfar | hmet
    · rw [hqueue] at hqueued
      cases hqueued
    · omega
    · obtain ⟨e, he, hmem⟩ := hmet node (hlists.2 _ _ (walk.adj_penultimate hnil))
      exact ⟨e, by omega, hmem⟩

/-- The search ends with the distances of the nodes within the bound. -/
theorem mem_search (hlists : Lists G next) (hnodes : nodes.Nodup)
    (hclosed : ∀ node ∈ nodes, next node ⊆ nodes) (hstart : start ∈ nodes) {fuel : Nat}
    (hfuel : nodes.length ≤ fuel) {node : α} {d : Nat} :
    (node, d) ∈ (search next bound fuel (around start)).distances ↔
      G.Reachable start node ∧ G.dist start node = d ∧ d ≤ bound := by
  have hsearching := (searching_around bound start).search hlists fuel
  have hempty : (search next bound fuel (around start)).queue = [] := by
    apply queue_search hnodes hclosed
    · intro other hother
      rw [List.mem_singleton.mp hother]
      exact hstart
    · exact List.Subset.refl _
    · have hout : (nodes.filter (· ∉ (around start).known)).length < nodes.length := by
        apply List.length_filter_lt_length_iff_exists.mpr
        exact ⟨start, hstart, by simp [around, Search.known]⟩
      rw [Search.pending]
      show 1 + _ ≤ fuel
      omega
  have hexact : ∀ e, (node, e) ∈ (search next bound fuel (around start)).distances →
      G.Reachable start node ∧ G.dist start node = e ∧ e ≤ bound := by
    intro e he
    obtain ⟨hbound, walk, hwalk⟩ := hsearching.walks node e he
    have hreachable : G.Reachable start node := ⟨walk⟩
    obtain ⟨shortest, hshortest⟩ := hreachable.exists_walk_length_eq_dist
    have hle := SimpleGraph.dist_le walk
    obtain ⟨e', he', hmem⟩ := hsearching.met hlists hempty shortest (by omega)
    have hsame : e = e' := by
      rw [← Search.distanceOf_eq hsearching.nodup he, Search.distanceOf_eq hsearching.nodup hmem]
    exact ⟨hreachable, by omega, hbound⟩
  refine ⟨hexact d, ?_⟩
  rintro ⟨hreachable, hdist, hbound⟩
  obtain ⟨shortest, hshortest⟩ := hreachable.exists_walk_length_eq_dist
  obtain ⟨e, -, he⟩ := hsearching.met hlists hempty shortest (by omega)
  have hsame : e = d := by
    rw [← (hexact e he).2.1]
    exact hdist
  exact hsame ▸ he

theorem nodup_search (hlists : Lists G next) (fuel : Nat) :
    (search next bound fuel (around start)).known.Nodup :=
  ((searching_around bound start).search hlists fuel).nodup

end

end PowerFramework.Lib.BoundedSearch
