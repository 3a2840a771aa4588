import PowerFramework.Lib.DepthFirst
/-!
# Leftmost trails

A depth-first search reaches each node on one trail: the one that turns, wherever it stands, to the
first successor that still leads to the node off the trail.  So the loops that a search keeps can be
told from the graph and the order of its successors alone.
-/

namespace PowerFramework.Lib.DepthFirst

open Relation

variable {α : Type*} {next : α → List α} {nodes stack options rest : List α} {u : α}

/-- A way from `a` to `u` off some nodes. -/
def LeadsOff (next : α → List α) (avoid : List α) (a u : α) : Prop :=
  a ∉ avoid ∧ ReflTransGen (fun x y => y ∈ next x ∧ y ∉ avoid) a u

/-- The trail to `u` behind a stack that turns, at each of its nodes, to the first option that
leads to `u` off the nodes it has passed. -/
inductive Branch (next : α → List α) (u : α) : List α → List α → List α → Prop
  | here {stack options before after : List α} (hoptions : options = before ++ u :: after)
      (hbefore : ∀ b ∈ before, ¬LeadsOff next stack b u) (hu : u ∉ stack) :
      Branch next u stack options [u]
  | turn {stack options before after rest : List α} {child : α}
      (hoptions : options = before ++ child :: after)
      (hbefore : ∀ b ∈ before, ¬LeadsOff next stack b u)
      (hchild : LeadsOff next stack child u) (hne : child ≠ u)
      (hrest : Branch next u (stack ++ [child]) (next child) rest) :
      Branch next u stack options (child :: rest)

theorem LeadsOff.refl {avoid : List α} (h : u ∉ avoid) : LeadsOff next avoid u u := ⟨h, .refl⟩

theorem LeadsOff.end_notMem {avoid : List α} {a : α} (h : LeadsOff next avoid a u) : u ∉ avoid := by
  rcases ReflTransGen.cases_tail h.2 with heq | ⟨_, -, hlast⟩
  · exact heq ▸ h.1
  · exact hlast.2

/-- A way off a longer stack, behind its last node. -/
theorem LeadsOff.cons {node child : α} (hnode : node ∉ stack) (hnext : child ∈ next node)
    (h : LeadsOff next (stack ++ [node]) child u) : LeadsOff next stack node u := by
  have hoff : ∀ {x}, x ∉ stack ++ [node] → x ∉ stack := fun hx hmem => hx (by simp [hmem])
  refine ⟨hnode, .head ⟨hnext, hoff h.1⟩ ?_⟩
  exact h.2.lift id fun _ _ hstep => ⟨hstep.1, hoff hstep.2⟩

/-- From a set that keeps all successors off the stack, no way leads out of it off the stack. -/
theorem LeadsOff.mem_of_closed {visited : List α} {a : α} (h : LeadsOff next stack a u)
    (hclosed : ∀ x ∈ visited, x ∉ stack → next x ⊆ visited) (ha : a ∈ visited) : u ∈ visited := by
  have hboth : u ∈ visited ∧ u ∉ stack := by
    obtain ⟨hoff, hpath⟩ := h
    induction hpath with
    | refl => exact ⟨ha, hoff⟩
    | tail _ hstep ih => exact ⟨hclosed _ ih.1 ih.2 hstep.1, hstep.2⟩
  exact hboth.1

/-- An option that does not lead to `u` is passed over. -/
theorem Branch.cons {option : α} (hoption : ¬LeadsOff next stack option u)
    (h : Branch next u stack options rest) : Branch next u stack (option :: options) rest := by
  have hpassed : ∀ before : List α, (∀ b ∈ before, ¬LeadsOff next stack b u) →
      ∀ b ∈ option :: before, ¬LeadsOff next stack b u := by
    intro before hbefore b hb
    rcases List.mem_cons.mp hb with rfl | hb
    · exact hoption
    · exact hbefore b hb
  cases h with
  | @here _ _ before after hoptions hbefore hu =>
      have heq : option :: options = (option :: before) ++ u :: after := by rw [hoptions]; rfl
      exact .here heq (hpassed before hbefore) hu
  | @turn _ _ before after _ child hoptions hbefore hchild hne hrest =>
      have heq : option :: options = (option :: before) ++ child :: after := by rw [hoptions]; rfl
      exact .turn heq (hpassed before hbefore) hchild hne hrest

/-- Options behind those that are looked at. -/
theorem Branch.append (h : Branch next u stack options rest) (more : List α) :
    Branch next u stack (options ++ more) rest := by
  cases h with
  | @here _ _ before after hoptions hbefore hu =>
      have heq : options ++ more = before ++ u :: (after ++ more) := by
        rw [hoptions, List.append_assoc]
        rfl
      exact .here heq hbefore hu
  | @turn _ _ before after _ child hoptions hbefore hchild hne hrest =>
      have heq : options ++ more = before ++ child :: (after ++ more) := by
        rw [hoptions, List.append_assoc]
        rfl
      exact .turn heq hbefore hchild hne hrest

theorem Branch.leads (h : Branch next u stack options rest) :
    ∃ option ∈ options, LeadsOff next stack option u := by
  cases h with
  | here hoptions _ hu => exact ⟨u, by simp [hoptions], .refl hu⟩
  | @turn _ _ _ _ _ child hoptions _ hchild _ _ => exact ⟨child, by simp [hoptions], hchild⟩

/-- The first element that has a property. -/
theorem first_unique {P : α → Prop} {before before' after after' : List α} {x y : α}
    (h : before ++ x :: after = before' ++ y :: after') (hbefore : ∀ b ∈ before, ¬P b) (hx : P x)
    (hbefore' : ∀ b ∈ before', ¬P b) (hy : P y) : x = y := by
  induction before generalizing before' with
  | nil =>
      cases before' with
      | nil => exact (List.cons.inj h).1
      | cons b before' =>
          have hsame : x = b := (List.cons.inj h).1
          exact absurd (hsame ▸ hx) (hbefore' b List.mem_cons_self)
  | cons b before ih =>
      cases before' with
      | nil =>
          have hsame : b = y := (List.cons.inj h).1
          exact absurd (hsame ▸ hy) (hbefore b List.mem_cons_self)
      | cons b' before' =>
          exact ih (List.cons.inj h).2 (fun c hc => hbefore c (List.mem_cons_of_mem b hc))
            (fun c hc => hbefore' c (List.mem_cons_of_mem b' hc))

/-- There is one such trail. -/
theorem Branch.unique (h : Branch next u stack options rest) {rest' : List α}
    (h' : Branch next u stack options rest') : rest = rest' := by
  induction h generalizing rest' with
  | here hoptions hbefore hu =>
      cases h' with
      | here => rfl
      | turn hoptions' hbefore' hchild' hne' hrest' =>
          exact absurd (first_unique (hoptions.symm.trans hoptions') hbefore (.refl hu) hbefore'
            hchild').symm hne'
  | turn hoptions hbefore hchild hne hrest ih =>
      cases h' with
      | here hoptions' hbefore' hu' =>
          exact absurd (first_unique (hoptions.symm.trans hoptions') hbefore hchild hbefore'
            (.refl hu')) hne
      | turn hoptions' hbefore' hchild' hne' hrest' =>
          obtain rfl := first_unique (hoptions.symm.trans hoptions') hbefore hchild hbefore' hchild'
          rw [ih hrest']

/-- A leftmost trail is a trail. -/
theorem Branch.isTrail (h : Branch next u stack options rest)
    (hclosed : ∀ x ∈ nodes, next x ⊆ nodes)
    (hoptions : ∀ option ∈ options, option ∉ stack → IsTrail next nodes (stack ++ [option])) :
    IsTrail next nodes (stack ++ rest) := by
  induction h with
  | here heq _ hu => exact hoptions u (by simp [heq]) hu
  | @turn stack options _ _ rest child heq _ hchild _ _ ih =>
      have htrail := hoptions child (by simp [heq]) hchild.1
      have hmem : child ∈ nodes := htrail.subset (by simp)
      rw [List.append_cons]
      exact ih fun option hoption hnew => htrail.concat hoption (hclosed child hmem hoption) hnew

/-! ## What a search reaches and keeps -/

/-- What the search of some options behind a stack does: each node it reaches stands at the end of
its leftmost trail, and the loops it keeps are those that such trails close. -/
structure Sweeps [DecidableEq α] (next : α → List α) (stack options : List α)
    (found found' : Found α) : Prop where
  visited : found.1 ⊆ found'.1
  kept : found.2 ⊆ found'.2
  closed : ∀ x ∈ found'.1, x ∉ stack → next x ⊆ found'.1
  searched : options ⊆ found'.1
  reached : ∀ u ∈ found'.1, u ∉ found.1 → ∃ rest, Branch next u stack options rest ∧
    ∀ v ∈ next u, v ∈ stack ++ rest → behind (stack ++ rest) v ∈ found'.2
  loops : ∀ t ∈ found'.2, t ∈ found.2 ∨ (∃ v ∈ options, v ∈ stack ∧ t = behind stack v) ∨
    ∃ u rest v, u ∉ found.1 ∧ Branch next u stack options rest ∧ v ∈ next u ∧
      v ∈ stack ++ rest ∧ t = behind (stack ++ rest) v
  back : ∀ v ∈ options, v ∈ stack → behind stack v ∈ found'.2

variable [DecidableEq α] {found mid found' : Found α} {fuel : Nat} {option : α}

theorem sweeps_nil (hclosed : ∀ x ∈ found.1, x ∉ stack → next x ⊆ found.1) :
    Sweeps next stack [] found found where
  visited := List.Subset.refl _
  kept := List.Subset.refl _
  closed := hclosed
  searched := List.nil_subset _
  reached _ hu hnew := absurd hu hnew
  loops _ ht := Or.inl ht
  back _ hv := absurd hv List.not_mem_nil

/-- One option, then the others: a node that the first has not reached does not lie behind it. -/
theorem Sweeps.cons (h : Sweeps next stack [option] found mid)
    (h' : Sweeps next stack options mid found') :
    Sweeps next stack (option :: options) found found' where
  visited _ hx := h'.visited (h.visited hx)
  kept _ ht := h'.kept (h.kept ht)
  closed := h'.closed
  searched := List.cons_subset.mpr ⟨h'.visited (h.searched List.mem_cons_self), h'.searched⟩
  reached u hu hnew := by
    by_cases hmid : u ∈ mid.1
    · obtain ⟨rest, hbranch, hback⟩ := h.reached u hmid hnew
      exact ⟨rest, hbranch.append options, fun v hv hon => h'.kept (hback v hv hon)⟩
    · obtain ⟨rest, hbranch, hback⟩ := h'.reached u hu hmid
      refine ⟨rest, hbranch.cons ?_, hback⟩
      intro hleads
      exact hmid (hleads.mem_of_closed h.closed (h.searched List.mem_cons_self))
  loops t ht := by
    rcases h'.loops t ht with ht | ⟨v, hv, hon, rfl⟩ | ⟨u, rest, v, hu, hbranch, hv, hon, rfl⟩
    · rcases h.loops t ht with ht | ⟨v, hv, hon, rfl⟩ | ⟨u, rest, v, hu, hbranch, hv, hon, rfl⟩
      · exact Or.inl ht
      · exact Or.inr (Or.inl ⟨v, List.mem_singleton.mp hv ▸ List.mem_cons_self, hon, rfl⟩)
      · exact Or.inr (Or.inr ⟨u, rest, v, hu, hbranch.append options, hv, hon, rfl⟩)
    · exact Or.inr (Or.inl ⟨v, List.mem_cons_of_mem option hv, hon, rfl⟩)
    · refine Or.inr (Or.inr ⟨u, rest, v, fun hfound => hu (h.visited hfound), hbranch.cons ?_, hv,
        hon, rfl⟩)
      intro hleads
      exact hu (hleads.mem_of_closed h.closed (h.searched List.mem_cons_self))
  back v hv hon := by
    rcases List.mem_cons.mp hv with rfl | hv
    · exact h'.kept (h.back v List.mem_cons_self hon)
    · exact h'.back v hv hon

/-- The search of a new option, given what the search of its successors does. -/
theorem sweeps_new (hnew : option ∉ stack) (hvisited : option ∉ found.1)
    (h : Sweeps next (stack ++ [option]) (next option) (option :: found.1, found.2) found') :
    Sweeps next stack [option] found found' := by
  have hhere : option ∈ found'.1 := h.visited List.mem_cons_self
  have hhead : ∀ {u}, u ∉ stack → Branch next u stack [u] [u] := by
    intro u hu
    have heq : [u] = [] ++ u :: [] := rfl
    exact .here heq (fun b hb => absurd hb List.not_mem_nil) hu
  have hturn : ∀ {u rest}, u ∉ option :: found.1 →
      Branch next u (stack ++ [option]) (next option) rest →
      Branch next u stack [option] (option :: rest) := by
    intro u rest hu hbranch
    obtain ⟨child, hchild, hleads⟩ := hbranch.leads
    have hne : option ≠ u := fun heq => hu (heq ▸ List.mem_cons_self)
    have heq : [option] = [] ++ option :: [] := rfl
    exact .turn heq (fun b hb => absurd hb List.not_mem_nil) (hleads.cons hnew hchild) hne hbranch
  constructor
  case visited => exact fun x hx => h.visited (List.mem_cons_of_mem option hx)
  case kept => exact h.kept
  case closed =>
    intro x hx hoff
    by_cases hoption : x = option
    · exact hoption ▸ h.searched
    · exact h.closed x hx (by simp [hoff, hoption])
  case searched => simpa using hhere
  case reached =>
    intro u hu hfound
    by_cases hoption : u = option
    · subst hoption
      exact ⟨[u], hhead hnew, h.back⟩
    · have hu' : u ∉ option :: found.1 := by simp [hoption, hfound]
      obtain ⟨rest, hbranch, hback⟩ := h.reached u hu hu'
      refine ⟨option :: rest, hturn hu' hbranch, ?_⟩
      rw [List.append_cons]
      exact hback
  case loops =>
    intro t ht
    rcases h.loops t ht with ht | ⟨v, hv, hon, rfl⟩ | ⟨u, rest, v, hu, hbranch, hv, hon, rfl⟩
    · exact Or.inl ht
    · exact Or.inr (Or.inr ⟨option, [option], v, hvisited,
        hhead hnew, hv, hon, rfl⟩)
    · refine Or.inr (Or.inr ⟨u, option :: rest, v,
        fun hfound => hu (List.mem_cons_of_mem option hfound), hturn hu hbranch, hv, ?_, ?_⟩)
      · rwa [List.append_cons]
      · rw [List.append_assoc]
        rfl
  case back =>
    intro v hv hon
    rw [List.mem_singleton.mp hv] at hon
    exact absurd hon hnew

/-- The options one after the other. -/
theorem sweeps_turns {options : List α} (hturn : ∀ option ∈ options, ∀ found : Found α,
      stack ⊆ found.1 → (∀ x ∈ found.1, x ∉ stack → next x ⊆ found.1) →
      Sweeps next stack [option] found (turn next fuel stack found option))
    (found : Found α) (hin : stack ⊆ found.1)
    (hclosed : ∀ x ∈ found.1, x ∉ stack → next x ⊆ found.1) :
    Sweeps next stack options found (options.foldl (turn next fuel stack) found) := by
  induction options generalizing found with
  | nil => exact sweeps_nil hclosed
  | cons option options ih =>
      have hfirst := hturn option List.mem_cons_self found hin hclosed
      refine hfirst.cons (ih ?_ _ (fun x hx => hfirst.visited (hin hx)) hfirst.closed)
      exact fun other hother => hturn other (List.mem_cons_of_mem option hother)

theorem sweeps_turn (hin : stack ⊆ found.1)
    (hclosed : ∀ x ∈ found.1, x ∉ stack → next x ⊆ found.1)
    (hexplore : option ∉ stack → option ∉ found.1 →
      Sweeps next stack [option] found (explore next fuel stack option found)) :
    Sweeps next stack [option] found (turn next fuel stack found option) := by
  unfold turn
  split_ifs with hstack hvisited
  · constructor
    case visited => exact List.Subset.refl _
    case kept => exact List.subset_append_left _ _
    case closed => exact hclosed
    case searched => simpa using hin hstack
    case reached => exact fun u hu hnew => absurd hu hnew
    case loops =>
      intro t ht
      rcases List.mem_append.mp ht with ht | ht
      · exact Or.inl ht
      · exact Or.inr (Or.inl ⟨option, List.mem_cons_self, hstack, List.mem_singleton.mp ht⟩)
    case back =>
      intro v hv _
      rw [List.mem_singleton.mp hv]
      simp
  · constructor
    case visited => exact List.Subset.refl _
    case kept => exact List.Subset.refl _
    case closed => exact hclosed
    case searched => simpa using hvisited
    case reached => exact fun u hu hnew => absurd hu hnew
    case loops => exact fun t ht => Or.inl ht
    case back =>
      intro v hv hon
      rw [List.mem_singleton.mp hv] at hon
      exact absurd hon hstack
  · exact hexplore hstack hvisited

/-- The search below an option: by induction on the fuel. -/
theorem sweeps_explore (hnext : ∀ x ∈ nodes, next x ⊆ nodes)
    (htrail : IsTrail next nodes (stack ++ [option])) (hfuel : nodes.length ≤ fuel + stack.length)
    (hin : stack ⊆ found.1) (hclosed : ∀ x ∈ found.1, x ∉ stack → next x ⊆ found.1)
    (hvisited : option ∉ found.1) :
    Sweeps next stack [option] found (explore next fuel stack option found) := by
  induction fuel generalizing stack option found with
  | zero =>
      have hlength := htrail.length_le
      rw [List.length_append, List.length_singleton] at hlength
      omega
  | succ fuel ih =>
      have hmem : option ∈ nodes := htrail.subset (by simp)
      have hnew : option ∉ stack := fun hstack => hvisited (hin hstack)
      rw [explore_succ]
      apply sweeps_new hnew hvisited
      apply sweeps_turns
      · intro child hchild found hin hclosed
        apply sweeps_turn hin hclosed
        intro hoff hfound
        apply ih (htrail.concat hchild (hnext option hmem hchild) hoff) _ hin hclosed hfound
        rw [List.length_append, List.length_singleton]
        omega
      · intro x hx
        rcases List.mem_append.mp hx with hx | hx
        · exact List.mem_cons_of_mem option (hin hx)
        · rw [List.mem_singleton.mp hx]
          exact List.mem_cons_self
      · intro x hx hoff y hy
        rcases List.mem_cons.mp hx with rfl | hx
        · exact absurd (by simp) hoff
        · refine List.mem_cons_of_mem option (hclosed x hx (fun hstack => hoff ?_) hy)
          exact List.mem_append_left _ hstack

section
variable {roots : List α} (hnext : ∀ x ∈ nodes, next x ⊆ nodes) (hroots : roots ⊆ nodes)
  (hfuel : nodes.length ≤ fuel)

include hnext hroots hfuel

theorem sweeps_search : Sweeps next [] roots ([], []) (search next fuel roots ([], [])) := by
  have hsearch : search next fuel roots ([], []) =
      roots.foldl (turn next fuel []) ([], []) := by
    unfold search turn
    simp
  rw [hsearch]
  refine sweeps_turns ?_ _ (List.nil_subset _) (fun x hx => absurd hx List.not_mem_nil)
  intro root hroot found hin hclosed
  apply sweeps_turn hin hclosed
  intro _ hfound
  exact sweeps_explore hnext (IsTrail.singleton (hroots hroot)) (by simpa using hfuel) hin hclosed
    hfound

/-- The loops that a search keeps, told from the graph: each successor of a node that lies on the
leftmost trail to the node closes one. -/
theorem mem_loops_iff {t : List α} : t ∈ loops next fuel roots ↔
    ∃ u rest v, Branch next u [] roots rest ∧ v ∈ next u ∧ v ∈ rest ∧ t = behind rest v := by
  have hsweeps := sweeps_search hnext hroots hfuel
  constructor
  · intro ht
    rcases hsweeps.loops t ht with ht | ⟨v, -, hv, -⟩ | ⟨u, rest, v, -, hbranch, hv, hon, heq⟩
    · exact absurd ht List.not_mem_nil
    · exact absurd hv List.not_mem_nil
    · exact ⟨u, rest, v, hbranch, hv, hon, heq⟩
  · rintro ⟨u, rest, v, hbranch, hv, hon, rfl⟩
    have hu : u ∈ (search next fuel roots ([], [])).1 := by
      obtain ⟨root, hroot, hleads⟩ := hbranch.leads
      exact hleads.mem_of_closed hsweeps.closed (hsweeps.searched hroot)
    obtain ⟨rest', hbranch', hback⟩ := hsweeps.reached u hu List.not_mem_nil
    obtain rfl := hbranch.unique hbranch'
    exact hback v hv hon

/-- A kept loop passes no node twice. -/
theorem nodup_of_mem_loops {t : List α} (h : t ∈ loops next fuel roots) : t.Nodup := by
  obtain ⟨u, rest, v, hbranch, -, -, rfl⟩ := (mem_loops_iff hnext hroots hfuel).mp h
  have htrail := hbranch.isTrail hnext
    fun root hroot _ => IsTrail.singleton (hroots hroot)
  exact htrail.nodup.sublist (List.drop_sublist _ _)

end

end PowerFramework.Lib.DepthFirst
