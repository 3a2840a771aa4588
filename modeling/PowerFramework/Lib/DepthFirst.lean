import Mathlib.Data.List.Chain
import Mathlib.Data.List.Perm.Subperm
import Mathlib.Data.List.Nodup
import Mathlib.Logic.Relation
/-!
# Depth-first search for cycles

A search that follows each node's successors and keeps, whenever it comes back to a node it stands
behind, the trail from there to where it stands.  Every trail it keeps is a loop, and among nodes
that each have a successor among them it keeps one that leads from one of them to another.
-/

namespace PowerFramework.Lib.DepthFirst

open Relation

variable {α : Type*}

/-- What a search has visited, and the trails it has kept. -/
abbrev Found (α : Type*) := List α × List (List α)

section
variable [DecidableEq α]

/-- The part of a trail behind a node. -/
def behind (trail : List α) (node : α) : List α := trail.drop (trail.idxOf node)

/-- The search below a node at the end of a trail. -/
def explore (next : α → List α) : Nat → List α → α → Found α → Found α
  | 0, _, _, found => found
  | fuel + 1, stack, node, found =>
      (next node).foldl (fun found neighbor =>
        if neighbor ∈ stack ++ [node] then
          (found.1, found.2 ++ [behind (stack ++ [node]) neighbor])
        else if neighbor ∈ found.1 then found
        else explore next fuel (stack ++ [node]) neighbor found) (node :: found.1, found.2)

/-- The search from each root that no earlier one has led to. -/
def search (next : α → List α) (fuel : Nat) (roots : List α) (found : Found α) : Found α :=
  roots.foldl (fun found node =>
    if node ∈ found.1 then found else explore next fuel [] node found) found

/-- A successor of the last node of a trail. -/
def turn (next : α → List α) (fuel : Nat) (trail : List α) (found : Found α) (neighbor : α) :
    Found α :=
  if neighbor ∈ trail then (found.1, found.2 ++ [behind trail neighbor])
  else if neighbor ∈ found.1 then found
  else explore next fuel trail neighbor found

theorem explore_succ (next : α → List α) (fuel : Nat) (stack : List α) (node : α)
    (found : Found α) :
    explore next (fuel + 1) stack node found =
      (next node).foldl (turn next fuel (stack ++ [node])) (node :: found.1, found.2) := rfl

/-- The trails that a search keeps. -/
def loops (next : α → List α) (fuel : Nat) (roots : List α) : List (List α) :=
  (search next fuel roots ([], [])).2

end

/-! ## Trails and loops -/

section
variable (next : α → List α)

/-- Each node of the list is a successor of the one before it. -/
def Follows (trail : List α) : Prop := trail.IsChain fun a b => b ∈ next a

/-- A list of nodes each followed by the next, and the last by the first. -/
structure IsLoop (trail : List α) : Prop where
  ne_nil : trail ≠ []
  follows : Follows next trail
  closes : trail.head ne_nil ∈ next (trail.getLast ne_nil)

/-- A trail without repetition among the given nodes. -/
structure IsTrail (nodes trail : List α) : Prop where
  nodup : trail.Nodup
  subset : trail ⊆ nodes
  follows : Follows next trail

variable {next} {nodes trail : List α} {node : α}

theorem IsTrail.length_le (h : IsTrail next nodes trail) : trail.length ≤ nodes.length :=
  (List.subperm_of_subset h.nodup h.subset).length_le

theorem IsTrail.singleton (hnode : node ∈ nodes) : IsTrail next nodes [node] :=
  ⟨List.nodup_singleton node, by simpa using hnode, List.isChain_singleton node⟩

theorem IsTrail.concat {stack : List α} {neighbor : α} (h : IsTrail next nodes (stack ++ [node]))
    (hnext : neighbor ∈ next node) (hmem : neighbor ∈ nodes) (hnew : neighbor ∉ stack ++ [node]) :
    IsTrail next nodes (stack ++ [node] ++ [neighbor]) := by
  refine ⟨?_, ?_, ?_⟩
  · rw [List.nodup_append]
    refine ⟨h.nodup, List.nodup_singleton neighbor, ?_⟩
    intro a ha b hb heq
    rw [List.mem_singleton.mp hb] at heq
    exact hnew (heq ▸ ha)
  · intro x hx
    rcases List.mem_append.mp hx with hx | hx
    · exact h.subset hx
    · rw [List.mem_singleton.mp hx]
      exact hmem
  · refine List.isChain_append.mpr ⟨h.follows, List.isChain_singleton neighbor, ?_⟩
    intro a ha b hb
    rw [List.getLast?_concat, Option.mem_some_iff] at ha
    rw [List.head?_singleton, Option.mem_some_iff] at hb
    rw [← ha, ← hb]
    exact hnext

variable [DecidableEq α]

theorem behind_ne_nil (hmem : node ∈ trail) : behind trail node ≠ [] := by
  rw [behind, Ne, List.drop_eq_nil_iff, not_le]
  exact List.idxOf_lt_length_of_mem hmem

theorem head_behind (hmem : node ∈ trail) :
    (behind trail node).head (behind_ne_nil hmem) = node := by
  simp [behind, List.head_drop]

theorem getLast_behind (hmem : node ∈ trail) :
    (behind trail node).getLast (behind_ne_nil hmem) =
      trail.getLast (List.ne_nil_of_mem hmem) := by
  simp [behind, List.getLast_drop]

/-- A successor of the last node of a trail that lies on the trail closes a loop. -/
theorem isLoop_behind {stack : List α} {neighbor : α} (h : Follows next (stack ++ [node]))
    (hnext : neighbor ∈ next node) (hmem : neighbor ∈ stack ++ [node]) :
    IsLoop next (behind (stack ++ [node]) neighbor) := by
  refine ⟨behind_ne_nil hmem, h.drop _, ?_⟩
  rw [head_behind hmem, getLast_behind hmem, List.getLast_concat]
  exact hnext

end

/-! ## What a search keeps -/

section
variable {next : α → List α} {nodes : List α} {D : α → Prop}

/-- A trail from one of the nodes to one of them. -/
def Between (D : α → Prop) (trail : List α) : Prop :=
  ∃ h : trail ≠ [], D (trail.head h) ∧ D (trail.getLast h)

/-- What a part of a search does that stands on a trail.  Of nodes that each have a successor
among them, only those on the trail are left unfinished unless a trail between two of them is
kept. -/
structure Searched (next : α → List α) (D : α → Prop) (trail : List α) (found found' : Found α) :
    Prop where
  visited : found.1 ⊆ found'.1
  kept : found.2 ⊆ found'.2
  loops : (∀ t ∈ found.2, IsLoop next t) → ∀ t ∈ found'.2, IsLoop next t
  unfinished : (∀ t ∈ found'.2, ¬Between D t) → (∀ x ∈ found.1, D x → x ∈ trail) →
    ∀ x ∈ found'.1, D x → x ∈ trail

theorem Searched.refl (trail : List α) (found : Found α) : Searched next D trail found found :=
  ⟨List.Subset.refl _, List.Subset.refl _, id, fun _ h => h⟩

theorem Searched.trans {trail : List α} {found mid found' : Found α}
    (h : Searched next D trail found mid) (h' : Searched next D trail mid found') :
    Searched next D trail found found' where
  visited _ hx := h'.visited (h.visited hx)
  kept _ ht := h'.kept (h.kept ht)
  loops hloops := h'.loops (h.loops hloops)
  unfinished hnone hfound := by
    apply h'.unfinished hnone
    exact h.unfinished (fun t ht => hnone t (h'.kept ht)) hfound

variable [DecidableEq α]

/-- What the search of one successor does, given what searches with less fuel do. -/
theorem searched_turn {fuel : Nat} {stack : List α} {node neighbor : α} (found : Found α)
    (hexplore : ∀ {neighbor}, IsTrail next nodes (stack ++ [node] ++ [neighbor]) → ∀ found,
      Searched next D (stack ++ [node]) found (explore next fuel (stack ++ [node]) neighbor found) ∧
        neighbor ∈ (explore next fuel (stack ++ [node]) neighbor found).1)
    (htrail : IsTrail next nodes (stack ++ [node])) (hnext : neighbor ∈ next node)
    (hmem : neighbor ∈ nodes) :
    Searched next D (stack ++ [node]) found (turn next fuel (stack ++ [node]) found neighbor) ∧
      ((∀ t ∈ (turn next fuel (stack ++ [node]) found neighbor).2, ¬Between D t) →
        (∀ x ∈ found.1, D x → x ∈ stack ++ [node]) → D neighbor → ¬D node) := by
  unfold turn
  split_ifs with hstack hvisited
  · have hloop := isLoop_behind htrail.follows hnext hstack
    refine ⟨⟨List.Subset.refl _, List.subset_append_left _ _, ?_, fun _ h => h⟩, ?_⟩
    · intro hloops t ht
      rcases List.mem_append.mp ht with ht | ht
      · exact hloops t ht
      · rw [List.mem_singleton.mp ht]
        exact hloop
    · intro hnone _ hneighbor hnode
      apply hnone _ (List.mem_append_right _ (List.mem_singleton_self _))
      refine ⟨hloop.ne_nil, ?_, ?_⟩
      · rwa [head_behind hstack]
      · rwa [getLast_behind hstack, List.getLast_concat]
  · exact ⟨.refl _ _, fun _ hfound hneighbor _ => hstack (hfound neighbor hvisited hneighbor)⟩
  · obtain ⟨hsearched, hnow⟩ := hexplore (htrail.concat hnext hmem hstack) found
    refine ⟨hsearched, ?_⟩
    intro hnone hfound hneighbor _
    exact hstack (hsearched.unfinished hnone hfound neighbor hnow hneighbor)

variable (hclosed : ∀ x ∈ nodes, next x ⊆ nodes) (hD : ∀ x ∈ nodes, D x → ∃ y ∈ next x, D y)

include hclosed hD

/-- The search below a node: by induction on the fuel, and below it on the successors still to be
searched. -/
theorem searched_explore {fuel : Nat} {stack : List α} {node : α}
    (htrail : IsTrail next nodes (stack ++ [node])) (hfuel : nodes.length ≤ fuel + stack.length)
    (found : Found α) :
    Searched next D stack found (explore next fuel stack node found) ∧
      node ∈ (explore next fuel stack node found).1 := by
  induction fuel generalizing stack node found with
  | zero =>
      have hlength := htrail.length_le
      rw [List.length_append, List.length_singleton] at hlength
      omega
  | succ fuel ih =>
      have hnode : node ∈ nodes := htrail.subset (by simp)
      have hexplore : ∀ {neighbor}, IsTrail next nodes (stack ++ [node] ++ [neighbor]) →
          ∀ found, Searched next D (stack ++ [node]) found
              (explore next fuel (stack ++ [node]) neighbor found) ∧
            neighbor ∈ (explore next fuel (stack ++ [node]) neighbor found).1 := by
        intro neighbor htrail found
        apply ih htrail
        rw [List.length_append, List.length_singleton]
        omega
      have hfold : ∀ neighbors ⊆ next node, ∀ found : Found α,
          Searched next D (stack ++ [node]) found
              (neighbors.foldl (turn next fuel (stack ++ [node])) found) ∧
            ((∀ t ∈ (neighbors.foldl (turn next fuel (stack ++ [node])) found).2, ¬Between D t) →
              (∀ x ∈ found.1, D x → x ∈ stack ++ [node]) →
                ∀ neighbor ∈ neighbors, D neighbor → ¬D node) := by
        intro neighbors hsubset
        induction neighbors with
        | nil => exact fun found => ⟨.refl _ found, fun _ _ _ h => absurd h List.not_mem_nil⟩
        | cons neighbor neighbors ihfold =>
            intro found
            obtain ⟨hneighbor, hrest⟩ := List.cons_subset.mp hsubset
            obtain ⟨hturn, hfirst⟩ := searched_turn found hexplore htrail hneighbor
              (hclosed node hnode hneighbor)
            obtain ⟨hlater, hothers⟩ :=
              ihfold hrest (turn next fuel (stack ++ [node]) found neighbor)
            refine ⟨hturn.trans hlater, ?_⟩
            intro hnone hfound x hx
            have hnone' := fun t ht => hnone t (hlater.kept ht)
            rcases List.mem_cons.mp hx with rfl | hx
            · exact hfirst hnone' hfound
            · exact hothers hnone (hturn.unfinished hnone' hfound) x hx
      obtain ⟨hsearched, hlast⟩ := hfold (next node) (List.Subset.refl _) (node :: found.1, found.2)
      rw [explore_succ]
      have hhere := hsearched.visited (List.mem_cons_self ..)
      refine ⟨⟨?_, hsearched.kept, hsearched.loops, ?_⟩, hhere⟩
      · exact fun x hx => hsearched.visited (List.mem_cons_of_mem node hx)
      · intro hnone hfound x hx hDx
        have hfound' : ∀ x ∈ node :: found.1, D x → x ∈ stack ++ [node] := by
          intro y hy hDy
          rcases List.mem_cons.mp hy with rfl | hy
          · simp
          · exact List.mem_append_left _ (hfound y hy hDy)
        rcases List.mem_append.mp (hsearched.unfinished hnone hfound' x hx hDx) with hx | hx
        · exact hx
        · -- the node itself is finished, so it has no successor among the nodes
          rw [List.mem_singleton.mp hx] at hDx
          obtain ⟨neighbor, hneighbor, hDneighbor⟩ := hD node hnode hDx
          exact absurd hDx (hlast hnone hfound' neighbor hneighbor hDneighbor)

theorem searched_search {fuel : Nat} {roots : List α} (hroots : roots ⊆ nodes)
    (hfuel : nodes.length ≤ fuel) (found : Found α) :
    Searched next D [] found (search next fuel roots found) ∧
      roots ⊆ (search next fuel roots found).1 := by
  induction roots generalizing found with
  | nil => exact ⟨.refl _ _, List.nil_subset _⟩
  | cons root roots ih =>
      obtain ⟨hroot, hrest⟩ := List.cons_subset.mp hroots
      have hstep : ∃ mid, search next fuel (root :: roots) found = search next fuel roots mid ∧
          Searched next D [] found mid ∧ root ∈ mid.1 := by
        by_cases hvisited : root ∈ found.1
        · exact ⟨found, by simp [search, hvisited], .refl _ _, hvisited⟩
        · have htrail : IsTrail next nodes ([] ++ [root]) := IsTrail.singleton hroot
          obtain ⟨hsearched, hnow⟩ :=
            searched_explore hclosed hD htrail (by simpa using hfuel) found
          exact ⟨_, by simp [search, hvisited], hsearched, hnow⟩
      obtain ⟨mid, heq, hmid, hnow⟩ := hstep
      obtain ⟨hsearched, hmem⟩ := ih hrest mid
      rw [heq]
      exact ⟨hmid.trans hsearched, List.cons_subset.mpr ⟨hsearched.visited hnow, hmem⟩⟩

end

/-! ## What a search leaves to do -/

section
variable {next : α → List α} {nodes : List α}

/-- A part of a search below a trail hands on every successor of what it visits, and keeps a trail
through each node of its own trail that it comes back to. -/
structure Exhausts (next : α → List α) (trail : List α) (found found' : Found α) : Prop where
  visited : found.1 ⊆ found'.1
  kept : found.2 ⊆ found'.2
  handed : ∀ x ∈ found'.1, x ∈ found.1 ∨ next x ⊆ found'.1
  returns : ∀ p ∈ trail, (∀ t ∈ found'.2, p ∉ t) → ∀ x ∈ found'.1, x ∈ found.1 ∨ p ∉ next x

theorem Exhausts.refl (trail : List α) (found : Found α) : Exhausts next trail found found :=
  ⟨List.Subset.refl _, List.Subset.refl _, fun _ hx => Or.inl hx, fun _ _ _ _ hx => Or.inl hx⟩

theorem Exhausts.trans {trail : List α} {found mid found' : Found α}
    (h : Exhausts next trail found mid) (h' : Exhausts next trail mid found') :
    Exhausts next trail found found' where
  visited _ hx := h'.visited (h.visited hx)
  kept _ ht := h'.kept (h.kept ht)
  handed x hx := by
    rcases h'.handed x hx with hx | hx
    · rcases h.handed x hx with hx | hx
      · exact Or.inl hx
      · exact Or.inr fun y hy => h'.visited (hx hy)
    · exact Or.inr hx
  returns p hp hnone x hx := by
    rcases h'.returns p hp hnone x hx with hx | hx
    · exact h.returns p hp (fun t ht => hnone t (h'.kept ht)) x hx
    · exact Or.inr hx

variable [DecidableEq α]

theorem mem_behind {trail : List α} {node : α} (h : node ∈ trail) : node ∈ behind trail node := by
  have hhead := List.head_mem (behind_ne_nil h)
  rwa [head_behind h] at hhead

end

/-! ## The loops of a graph -/

section
variable {next : α → List α} {nodes : List α}

/-- A node from which the successors lead back to it. -/
def OnCycle (next : α → List α) (node : α) : Prop := TransGen (fun a b => b ∈ next a) node node

/-- Two nodes on a common cycle. -/
def Together (next : α → List α) (a b : α) : Prop :=
  TransGen (fun a b => b ∈ next a) a b ∧ TransGen (fun a b => b ∈ next a) b a

theorem Together.symm {a b : α} (h : Together next a b) : Together next b a := ⟨h.2, h.1⟩

theorem Together.trans {a b c : α} (h : Together next a b) (h' : Together next b c) :
    Together next a c :=
  ⟨h.1.trans h'.1, h'.2.trans h.2⟩

theorem together_self {a : α} : Together next a a ↔ OnCycle next a := and_self_iff

/-- The way round a cycle starts with a step to a node of the cycle. -/
theorem Together.exists_next {a b : α} (h : Together next a b) :
    ∃ c ∈ next b, Together next a c := by
  obtain ⟨c, hc, hrest⟩ := TransGen.head'_iff.mp h.2
  refine ⟨c, hc, h.1.tail hc, ?_⟩
  rcases reflTransGen_iff_eq_or_transGen.mp hrest with rfl | hrest
  · exact h.1.tail hc
  · exact hrest

/-- There is no cycle where each step leads to a node of lower rank. -/
theorem not_onCycle_of_rank (rank : α → Nat) (h : ∀ a, ∀ b ∈ next a, rank b < rank a) (node : α) :
    ¬OnCycle next node := by
  intro hcycle
  have hdescends : ∀ {a b : α}, TransGen (fun a b => b ∈ next a) a b → rank b < rank a := by
    intro a b hpath
    induction hpath with
    | single hstep => exact h _ _ hstep
    | tail _ hstep ih => exact (h _ _ hstep).trans ih
  exact lt_irrefl _ (hdescends hcycle)

theorem OnCycle.exists_next {a : α} (h : OnCycle next a) : ∃ c ∈ next a, OnCycle next c := by
  obtain ⟨c, hc, htogether⟩ := (together_self.mpr h).exists_next
  exact ⟨c, hc, together_self.mp (htogether.symm.trans htogether)⟩

/-- A trail leads from its first node to each of its nodes, and from each to its last. -/
theorem Follows.leads {trail : List α} (h : Follows next trail) (hne : trail ≠ []) {a : α}
    (ha : a ∈ trail) :
    ReflTransGen (fun a b => b ∈ next a) (trail.head hne) a ∧
      ReflTransGen (fun a b => b ∈ next a) a (trail.getLast hne) := by
  induction trail generalizing a with
  | nil => exact absurd rfl hne
  | cons first rest ih =>
      rcases eq_or_ne rest [] with rfl | hrest
      · rw [List.mem_singleton.mp ha]
        exact ⟨.refl, .refl⟩
      · have hfirst : rest.head hrest ∈ next first := by
          obtain ⟨second, rest, rfl⟩ := List.exists_cons_of_ne_nil hrest
          exact (List.isChain_cons_cons.mp h).1
        have hfollows : Follows next rest := h.tail
        rw [List.head_cons, List.getLast_cons hrest]
        rcases List.mem_cons.mp ha with rfl | ha
        · refine ⟨.refl, ?_⟩
          exact .head hfirst (ih hfollows hrest (List.getLast_mem hrest)).1
        · obtain ⟨hto, hfrom⟩ := ih hfollows hrest ha
          exact ⟨.head hfirst hto, hfrom⟩

theorem IsLoop.together {trail : List α} (h : IsLoop next trail) {a b : α} (ha : a ∈ trail)
    (hb : b ∈ trail) : Together next a b := by
  have hleads : ∀ {a b : α}, a ∈ trail → b ∈ trail →
      TransGen (fun a b => b ∈ next a) a b := by
    intro a b ha hb
    have hlast := (h.follows.leads h.ne_nil ha).2
    have hfirst := (h.follows.leads h.ne_nil hb).1
    exact (TransGen.tail' hlast h.closes).trans_left hfirst
  exact ⟨hleads ha hb, hleads hb ha⟩

/-- A node of a loop is followed by a node of the loop. -/
theorem IsLoop.exists_next {trail : List α} (h : IsLoop next trail) {a : α} (ha : a ∈ trail) :
    ∃ b ∈ trail, b ∈ next a := by
  obtain ⟨before, after, rfl⟩ := List.append_of_mem ha
  cases after with
  | nil =>
      refine ⟨_, List.head_mem h.ne_nil, ?_⟩
      have hcloses := h.closes
      rwa [List.getLast_concat] at hcloses
  | cons b after =>
      refine ⟨b, by simp, ?_⟩
      exact (List.isChain_cons_cons.mp (List.isChain_append.mp h.follows).2.1).1

variable [DecidableEq α] {fuel : Nat} {roots : List α}
  (hclosed : ∀ x ∈ nodes, next x ⊆ nodes) (hroots : roots ⊆ nodes) (hfuel : nodes.length ≤ fuel)

include hclosed hroots hfuel

theorem isLoop_of_mem_loops {trail : List α} (h : trail ∈ loops next fuel roots) :
    IsLoop next trail := by
  obtain ⟨hsearched, -⟩ := searched_search (D := fun _ => False) hclosed
    (fun _ _ hfalse => hfalse.elim) hroots hfuel ([], [])
  exact hsearched.loops (fun _ ht => absurd ht List.not_mem_nil) trail h

/-- Among nodes that each have a successor among them, one is followed by another on a loop that
the search keeps. -/
theorem exists_between {D : α → Prop} (hD : ∀ x ∈ nodes, D x → ∃ y ∈ next x, D y) {node : α}
    (hnode : node ∈ roots) (hDnode : D node) : ∃ trail ∈ loops next fuel roots, Between D trail := by
  obtain ⟨hsearched, hmem⟩ := searched_search hclosed hD hroots hfuel ([], [])
  by_contra hnone
  have hno : ∀ t ∈ (search next fuel roots ([], [])).2, ¬Between D t :=
    fun t ht hbetween => hnone ⟨t, ht, hbetween⟩
  have hleft := hsearched.unfinished hno (fun _ hx => absurd hx List.not_mem_nil) node
    (hmem hnode) hDnode
  exact List.not_mem_nil hleft

/-- The search from all nodes keeps a trail exactly when there is a cycle. -/
theorem loops_ne_nil (hall : ∀ x, next x ≠ [] → x ∈ roots) :
    loops next fuel roots ≠ [] ↔ ∃ node, OnCycle next node := by
  constructor
  · intro hne
    obtain ⟨trail, htrail⟩ := List.exists_mem_of_ne_nil _ hne
    have hloop := isLoop_of_mem_loops hclosed hroots hfuel htrail
    have hhead := List.head_mem hloop.ne_nil
    exact ⟨_, together_self.mp (hloop.together hhead hhead)⟩
  · rintro ⟨node, honcycle⟩
    obtain ⟨neighbor, hneighbor, -⟩ := honcycle.exists_next
    obtain ⟨trail, htrail, -⟩ := exists_between hclosed hroots hfuel
      (fun _ _ h => h.exists_next) (hall node (List.ne_nil_of_mem hneighbor)) honcycle
    exact List.ne_nil_of_mem htrail

/-- A cycle each of whose nodes has one successor on it is kept whole. -/
theorem mem_loop_of_single {node : α} (hnode : node ∈ roots) (honcycle : OnCycle next node)
    (hsingle : ∀ a b c, Together next node a → b ∈ next a → Together next node b → c ∈ next a →
      Together next node c → b = c) : ∃ trail ∈ loops next fuel roots, node ∈ trail := by
  obtain ⟨trail, htrail, hne, hfirst, -⟩ := exists_between hclosed hroots hfuel
    (D := Together next node) (fun _ _ h => h.exists_next) hnode (together_self.mpr honcycle)
  refine ⟨trail, htrail, ?_⟩
  have hloop := isLoop_of_mem_loops hclosed hroots hfuel htrail
  have hon : ∀ {a}, a ∈ trail → Together next node a := fun ha =>
    hfirst.trans (hloop.together (List.head_mem hne) ha)
  -- the loop has every successor of its nodes that lies on the cycle
  have hkeeps : ∀ {a b}, a ∈ trail → b ∈ next a → Together next node b → b ∈ trail := by
    intro a b ha hb htogether
    obtain ⟨c, hc, hnext⟩ := hloop.exists_next ha
    rw [hsingle a b c (hon ha) hb htogether hnext (hon hc)]
    exact hc
  have hwalk : ∀ {a}, ReflTransGen (fun a b => b ∈ next a) a node → a ∈ trail → node ∈ trail := by
    intro a hpath
    induction hpath using ReflTransGen.head_induction_on with
    | refl => exact id
    | @head a b hstep hrest ih =>
        intro ha
        refine ih (hkeeps ha hstep ⟨(hon ha).1.tail hstep, ?_⟩)
        rcases reflTransGen_iff_eq_or_transGen.mp hrest with heq | hrest
        · exact heq ▸ honcycle
        · exact hrest
  exact hwalk hfirst.2.to_reflTransGen (List.head_mem hne)

end

end PowerFramework.Lib.DepthFirst
