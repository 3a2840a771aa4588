import PowerFramework.Lib.DepthFirst
import PowerFramework.Temporal.Records
/-!
# What the searches find

The heads that reach a record, and the records that the search for cycles marks, in terms of the
supersession of valid records.
-/

namespace PowerFramework.Temporal

open Lib Lib.DepthFirst Relation

variable {records : Table TemporalRecord} {boundary : Date}

/-! ## Supersession -/

section
variable (records boundary)

/-- A valid record that no valid record supersedes. -/
def IsHead (path : String) : Prop :=
  isActive records boundary path = true ∧ isIncoming records boundary path = false

/-- The target is superseded, over valid records, by the path. -/
def Leads (path target : String) : Prop :=
  TransGen (fun a b => b ∈ superseded records boundary a) path target

/-- Two heads lead to the record. -/
def Shared (path : String) : Prop :=
  ∃ head other, IsHead records boundary head ∧ IsHead records boundary other ∧ head ≠ other ∧
    Leads records boundary head path ∧ Leads records boundary other path

/-- The head leads to a record that another head leads to. -/
def Competes (head : String) : Prop :=
  ∃ other target, IsHead records boundary other ∧ head ≠ other ∧
    Leads records boundary head target ∧ Leads records boundary other target

end

theorem mem_superseded {path target : String} :
    target ∈ superseded records boundary path ↔
      ∃ record memory, records[path]? = some record ∧ record.valid boundary = true ∧
        record.memory = some memory ∧ target ∈ memory.supersedes ∧ target ∈ records := by
  unfold superseded
  cases records[path]? with
  | none => simp
  | some record =>
      dsimp only
      split_ifs with hvalid
      · cases hmemory : record.memory with
        | none => simp [hmemory]
        | some memory => simp [hvalid, hmemory]
      · simp [hvalid]

theorem isActive_of_superseded {path target : String}
    (h : target ∈ superseded records boundary path) : isActive records boundary path = true := by
  obtain ⟨record, memory, hrecord, hvalid, -, -, -⟩ := mem_superseded.mp h
  simp [isActive, hrecord, hvalid]

theorem mem_of_isActive {path : String} (h : isActive records boundary path = true) :
    path ∈ records := by
  rw [Std.ExtTreeMap.mem_iff_isSome_getElem?]
  cases hrecord : records[path]? with
  | none => simp [isActive, hrecord] at h
  | some record => rfl

theorem mem_of_leads {path target : String} (h : Leads records boundary path target) :
    isActive records boundary path = true ∧ target ∈ records := by
  constructor
  · obtain ⟨next, hnext, -⟩ := TransGen.head'_iff.mp h
    exact isActive_of_superseded hnext
  · obtain ⟨last, -, hlast⟩ := TransGen.tail'_iff.mp h
    obtain ⟨-, -, -, -, -, -, hmem⟩ := mem_superseded.mp hlast
    exact hmem

section
variable (order : Enumeration records boundary)

theorem Enumeration.relation :
    (fun a b => b ∈ order.successors a) = fun a b => b ∈ superseded records boundary a := by
  funext a b
  exact propext (order.mem_successors a b)

theorem Enumeration.closed : ∀ x ∈ records.keys, order.successors x ⊆ records.keys := by
  intro x _ target htarget
  obtain ⟨-, -, -, -, -, -, hmem⟩ := mem_superseded.mp ((order.mem_successors x target).mp htarget)
  exact Std.ExtTreeMap.mem_keys.mpr hmem

theorem Enumeration.active_subset : order.active ⊆ records.keys := fun path hpath =>
  Std.ExtTreeMap.mem_keys.mpr (mem_of_isActive ((order.mem_active path).mp hpath))

theorem nodup_keys : records.keys.Nodup := by
  apply Std.ExtTreeMap.distinct_keys.imp
  intro a b hne heq
  exact hne (Std.compare_eq_iff_eq.mpr heq)

end

/-! ## The heads that reach a record -/

/-- The entry of a dict of lists that has no empty one. -/
def entryOf (heads : List String) : Option (List String) := if heads = [] then none else some heads

@[simp] theorem getD_entryOf (heads : List String) : (entryOf heads).getD [] = heads := by
  unfold entryOf
  split_ifs with h
  · exact h.symm
  · rfl

theorem getElem?_foldl_addReached {head : String} {reached : Table (List String)}
    {targets : List String} (hnodup : targets.Nodup) (target : String)
    (hnew : ∀ target ∈ targets, head ∉ ((reached[target]?).getD [] : List String)) :
    (targets.foldl (addReached head) reached)[target]? =
      if target ∈ targets then some ((reached[target]?).getD [] ++ [head]) else reached[target]? := by
  induction targets generalizing reached with
  | nil => simp
  | cons first targets ih =>
      obtain ⟨hfirst, hnodup⟩ := List.nodup_cons.mp hnodup
      have hadd : addReached head reached first =
          reached.insert first ((reached[first]?).getD [] ++ [head]) := by
        rw [addReached, if_neg (hnew first (List.mem_cons_self ..))]
      have hother : ∀ target, target ≠ first →
          (addReached head reached first)[target]? = reached[target]? := by
        intro target hne
        rw [hadd, Std.ExtTreeMap.getElem?_insert, if_neg]
        rw [Std.compare_eq_iff_eq]
        exact fun heq => hne heq.symm
      rw [List.foldl_cons, ih hnodup]
      · by_cases htarget : target ∈ targets
        · have hne : target ≠ first := fun heq => hfirst (heq ▸ htarget)
          rw [if_pos htarget, if_pos (List.mem_cons_of_mem _ htarget), hother target hne]
        · rw [if_neg htarget]
          by_cases heq : target = first
          · rw [heq, if_pos (List.mem_cons_self ..), hadd, Std.ExtTreeMap.getElem?_insert_self]
          · rw [hother target heq, if_neg]
            exact fun hmem => (List.mem_cons.mp hmem).elim heq htarget
      · intro target htarget
        rw [hother target fun heq => hfirst (heq ▸ htarget)]
        exact hnew target (List.mem_cons_of_mem _ htarget)

section
variable (order : Enumeration records boundary)

/-- The targets found from a head. -/
def Enumeration.found (head : String) : List String :=
  BreadthFirst.walk order.successors (queueFuel records.keys order.successors head)
    (order.successors head) []

theorem Enumeration.walked {head : String} (hhead : head ∈ records) :
    BreadthFirst.Walked order.successors (order.successors head) [] (order.found head) := by
  apply BreadthFirst.walked nodup_keys order.closed
    (order.closed head (Std.ExtTreeMap.mem_keys.mpr hhead)) List.nodup_nil
  · simp [queueFuel, BreadthFirst.pending]
  · simp

theorem Enumeration.mem_found {head target : String} (hhead : head ∈ records) :
    target ∈ order.found head ↔ Leads records boundary head target := by
  unfold Leads
  rw [← order.relation]
  apply BreadthFirst.mem_walk_next nodup_keys order.closed (Std.ExtTreeMap.mem_keys.mpr hhead)
  simp [queueFuel, BreadthFirst.pending]

/-- The heads that the queue finds the target from. -/
def Enumeration.sources (target : String) : List String :=
  order.heads.filter fun head => target ∈ order.found head

theorem Enumeration.mem_sources {head target : String} :
    head ∈ order.sources target ↔
      IsHead records boundary head ∧ Leads records boundary head target := by
  rw [sources, List.mem_filter, order.mem_heads, decide_eq_true_iff]
  constructor
  · rintro ⟨hhead, hfound⟩
    exact ⟨hhead, (order.mem_found (mem_of_isActive hhead.1)).mp hfound⟩
  · rintro ⟨hhead, hleads⟩
    exact ⟨hhead, (order.mem_found (mem_of_isActive hhead.1)).mpr hleads⟩

theorem Enumeration.getElem?_reachedBy (target : String) :
    (reachedBy records.keys order.successors order.heads)[target]? =
      entryOf (order.sources target) := by
  have hfold : ∀ (heads done : List String) (reached : Table (List String)),
      (done ++ heads).Nodup → (∀ head ∈ heads, head ∈ records) →
      (∀ target, reached[target]? = entryOf (done.filter fun head => target ∈ order.found head)) →
      (heads.foldl (fun reached head => (order.found head).foldl (addReached head) reached)
        reached)[target]? =
          entryOf ((done ++ heads).filter fun head => target ∈ order.found head) := by
    intro heads
    induction heads with
    | nil =>
        intro done reached _ _ hreached
        rw [List.append_nil]
        exact hreached target
    | cons head heads ih =>
        intro done reached hnodup hmem hreached
        rw [List.append_cons] at hnodup
        rw [List.foldl_cons, List.append_cons]
        apply ih _ _ hnodup fun other hother => hmem other (List.mem_cons_of_mem _ hother)
        intro target
        have hnew : head ∉ done := by
          intro hdone
          have hdisjoint := (List.nodup_append.mp (List.nodup_append.mp hnodup).1).2.2
          exact hdisjoint head hdone head (List.mem_singleton_self head) rfl
        rw [getElem?_foldl_addReached (order.walked (hmem head (List.mem_cons_self ..))).nodup,
          hreached, getD_entryOf, List.filter_append]
        · split_ifs with htarget
          · simp [htarget, entryOf]
          · simp [htarget]
        · intro target _
          rw [hreached, getD_entryOf]
          exact fun hhead => hnew (List.mem_filter.mp hhead).1
  exact hfold order.heads [] ∅ order.heads_nodup
    (fun head hhead => mem_of_isActive ((order.mem_heads head).mp hhead).1)
    (fun target => by simp [entryOf])

/-- What several heads reach is shared, and these heads compete. -/
theorem Enumeration.mem_competing {path : String} :
    path ∈ competing (reachedBy records.keys order.successors order.heads) ↔
      Shared records boundary path ∨
        (IsHead records boundary path ∧ Competes records boundary path) := by
  have hentry : ∀ target heads, (target, heads) ∈
      (reachedBy records.keys order.successors order.heads).toList ↔
        entryOf (order.sources target) = some heads := by
    intro target heads
    rw [Std.ExtTreeMap.mem_toList_iff_getElem?_eq_some, order.getElem?_reachedBy]
  have htwo : ∀ target, 1 < (order.sources target).length ↔
      ∃ head other, head ∈ order.sources target ∧ other ∈ order.sources target ∧ head ≠ other := by
    intro target
    have hnodup : (order.sources target).Nodup := order.heads_nodup.filter _
    constructor
    · intro hlength
      refine ⟨(order.sources target)[0], (order.sources target)[1], List.getElem_mem _,
        List.getElem_mem _, ?_⟩
      intro heq
      have hindex := (List.Nodup.getElem_inj_iff hnodup).mp heq
      omega
    · rintro ⟨head, other, hhead, hother, hne⟩
      rcases hsources : order.sources target with _ | ⟨first, _ | ⟨second, rest⟩⟩
      · rw [hsources] at hhead
        exact absurd hhead List.not_mem_nil
      · rw [hsources, List.mem_singleton] at hhead hother
        exact absurd (hhead.trans hother.symm) hne
      · simp
  unfold competing
  rw [List.mem_flatMap]
  constructor
  · rintro ⟨⟨target, heads⟩, hmem, hpath⟩
    have heads_eq : heads = order.sources target := by
      have h := (hentry target heads).mp hmem
      unfold entryOf at h
      split_ifs at h
      exact (Option.some.inj h).symm
    subst heads_eq
    dsimp only at hpath
    split_ifs at hpath with hlength
    · obtain ⟨head, other, hhead, hother, hne⟩ := (htwo target).mp hlength
      rw [order.mem_sources] at hhead hother
      obtain ⟨hhead, hleads⟩ := hhead
      obtain ⟨hother, hleads'⟩ := hother
      rcases List.mem_cons.mp hpath with rfl | hpath
      · exact Or.inl ⟨head, other, hhead, hother, hne, hleads, hleads'⟩
      · obtain ⟨hpath, hleadsPath⟩ := order.mem_sources.mp hpath
        refine Or.inr ⟨hpath, ?_⟩
        by_cases heq : path = head
        · exact ⟨other, target, hother, heq ▸ hne, hleadsPath, hleads'⟩
        · exact ⟨head, target, hhead, heq, hleadsPath, hleads⟩
    · exact absurd hpath List.not_mem_nil
  · have hmem : ∀ target, 1 < (order.sources target).length →
        (target, order.sources target) ∈
          (reachedBy records.keys order.successors order.heads).toList := by
      intro target hlength
      rw [hentry, entryOf, if_neg]
      intro hempty
      rw [hempty] at hlength
      exact absurd hlength (by decide)
    rintro (⟨head, other, hhead, hother, hne, hleads, hleads'⟩ |
      ⟨hhead, other, target, hother, hne, hleads, hleads'⟩)
    · have hlength := (htwo path).mpr ⟨head, other, order.mem_sources.mpr ⟨hhead, hleads⟩,
        order.mem_sources.mpr ⟨hother, hleads'⟩, hne⟩
      refine ⟨_, hmem path hlength, ?_⟩
      dsimp only
      rw [if_pos hlength]
      exact List.mem_cons_self ..
    · have hsource := order.mem_sources.mpr ⟨hhead, hleads⟩
      have hlength := (htwo target).mpr ⟨path, other, hsource,
        order.mem_sources.mpr ⟨hother, hleads'⟩, hne⟩
      refine ⟨_, hmem target hlength, ?_⟩
      dsimp only
      rw [if_pos hlength]
      exact List.mem_cons_of_mem _ hsource

end

/-! ## The records that the search for cycles marks -/

/-- The state of the search for cycles against the plain depth-first search from the same trail. -/
structure Tracks (marked : List String) (stack : List String) (search : Search)
    (found : Found String) : Prop where
  visiting : ∀ x, x ∈ search.visiting ↔ x ∈ stack
  visited : ∀ x, x ∈ found.1 ↔ x ∈ search.visited ∨ x ∈ stack
  conflicted : ∀ x, x ∈ search.conflicted ↔ x ∈ marked ∨ ∃ trail ∈ found.2, x ∈ trail

theorem mem_drop_idxOf {trail : List String} {target : String} (h : target ∈ trail) (x : String) :
    x ∈ (trail ++ [target]).drop ((trail ++ [target]).idxOf target) ↔ x ∈ behind trail target := by
  have hindex : (trail ++ [target]).idxOf target = trail.idxOf target := List.idxOf_append_of_mem h
  have hlength := List.idxOf_lt_length_of_mem h
  rw [hindex, List.drop_append_of_le_length (Nat.le_of_lt hlength), List.mem_append,
    List.mem_singleton]
  constructor
  · rintro (hx | rfl)
    · exact hx
    · exact mem_behind h
  · exact Or.inl

section
variable {successors : String → List String} {nodes marked : List String}

/-- By induction on the fuel of the plain search, and below it on the successors still to be
visited. -/
theorem tracks_visit (hclosed : ∀ x ∈ nodes, successors x ⊆ nodes) {fuel : Nat}
    {stack : List String} {path : String} {search : Search} {found : Found String}
    (htrail : IsTrail successors nodes (stack ++ [path]))
    (hfuel : nodes.length ≤ fuel + stack.length) (htracks : Tracks marked stack search found)
    (hnew : path ∉ found.1) :
    Tracks marked stack (visit successors (fuel + 1) path (stack ++ [path]) search)
      (explore successors fuel stack path found) := by
  induction fuel generalizing stack path search found with
  | zero =>
      have hlength := htrail.length_le
      rw [List.length_append, List.length_singleton] at hlength
      omega
  | succ fuel ih =>
      have hnode : path ∈ nodes := htrail.subset (by simp)
      have hout : path ∉ stack := fun hmem =>
        (List.nodup_append.mp htrail.nodup).2.2 path hmem path (List.mem_singleton_self path) rfl
      have hvisiting : path ∉ search.visiting := fun hmem => hout ((htracks.visiting path).mp hmem)
      have hvisited : path ∉ search.visited := fun hmem =>
        hnew ((htracks.visited path).mpr (Or.inl hmem))
      have hfold : ∀ targets ⊆ successors path, ∀ (search : Search) (found : Found String),
          Tracks marked (stack ++ [path]) search found →
            Tracks marked (stack ++ [path])
              (targets.foldl (fun search target =>
                visit successors (fuel + 1) target (stack ++ [path] ++ [target]) search) search)
              (targets.foldl (turn successors fuel (stack ++ [path])) found) := by
        intro targets
        induction targets with
        | nil => exact fun _ _ _ htracks => htracks
        | cons target targets ihfold =>
            intro hsubset search found htracks
            obtain ⟨htarget, hrest⟩ := List.cons_subset.mp hsubset
            rw [List.foldl_cons, List.foldl_cons]
            apply ihfold hrest
            by_cases hon : target ∈ stack ++ [path]
            · rw [visit, if_pos ((htracks.visiting target).mpr hon), turn, if_pos hon]
              refine ⟨htracks.visiting, htracks.visited, ?_⟩
              intro x
              rw [List.mem_append, htracks.conflicted, mem_drop_idxOf hon, or_assoc]
              simp only [List.mem_append, List.mem_singleton, or_and_right, exists_or,
                exists_eq_left]
            · by_cases hold : target ∈ found.1
              · have hvisited : target ∈ search.visited :=
                  ((htracks.visited target).mp hold).resolve_right hon
                rw [visit, if_neg fun hmem => hon ((htracks.visiting target).mp hmem),
                  if_pos hvisited, turn, if_neg hon, if_pos hold]
                exact htracks
              · rw [turn, if_neg hon, if_neg hold]
                apply ih (htrail.concat htarget (hclosed path hnode htarget) hon) _ htracks hold
                rw [List.length_append, List.length_singleton]
                omega
      have hentered : Tracks marked (stack ++ [path])
          { search with visiting := path :: search.visiting } (path :: found.1, found.2) := by
        refine ⟨?_, ?_, htracks.conflicted⟩
        · intro x
          rw [List.mem_cons, htracks.visiting, List.mem_append, List.mem_singleton, or_comm]
        · intro x
          rw [List.mem_cons, htracks.visited, List.mem_append, List.mem_singleton, or_comm,
            or_assoc]
      obtain ⟨hon, hseen, hmarks⟩ :=
        hfold (successors path) (List.Subset.refl _) _ _ hentered
      rw [visit, if_neg hvisiting, if_neg hvisited, explore_succ]
      refine ⟨?_, ?_, hmarks⟩
      · intro x
        rw [List.mem_filter, decide_eq_true_iff, hon, List.mem_append, List.mem_singleton]
        constructor
        · rintro ⟨hx | hx, hne⟩
          · exact hx
          · exact absurd hx hne
        · intro hx
          exact ⟨Or.inl hx, fun heq => hout (heq ▸ hx)⟩
      · intro x
        rw [hseen, List.mem_append, List.mem_singleton, List.mem_cons]
        tauto

/-- The search from all roots marks what the plain search keeps. -/
theorem tracks_roots (hclosed : ∀ x ∈ nodes, successors x ⊆ nodes) {fuel : Nat}
    (hfuel : nodes.length ≤ fuel) {roots : List String} (hroots : roots ⊆ nodes) {search : Search}
    {found : Found String} (htracks : Tracks marked [] search found) :
    Tracks marked []
      (roots.foldl (fun search path => visit successors (fuel + 1) path [path] search) search)
      (DepthFirst.search successors fuel roots found) := by
  induction roots generalizing search found with
  | nil => exact htracks
  | cons root roots ih =>
      obtain ⟨hroot, hrest⟩ := List.cons_subset.mp hroots
      rw [List.foldl_cons, DepthFirst.search, List.foldl_cons]
      apply ih hrest
      by_cases hold : root ∈ found.1
      · have hvisited : root ∈ search.visited :=
          ((htracks.visited root).mp hold).resolve_right List.not_mem_nil
        rw [visit, if_neg fun hmem => List.not_mem_nil ((htracks.visiting root).mp hmem),
          if_pos hvisited, if_pos hold]
        exact htracks
      · rw [if_neg hold]
        have htrail : IsTrail successors nodes ([] ++ [root]) := IsTrail.singleton hroot
        exact tracks_visit hclosed htrail (by simpa using hfuel) htracks hold

end

/-- The conflicted records: those shared by heads, the heads that compete, and those on a loop that
the search comes back on. -/
theorem mem_conflicted (order : Enumeration records boundary) {path : String} :
    path ∈ conflicted order ↔
      Shared records boundary path ∨
        (IsHead records boundary path ∧ Competes records boundary path) ∨
          ∃ trail ∈ loops order.successors records.size order.active, path ∈ trail := by
  have hfuel : records.keys.length ≤ records.size := by rw [Std.ExtTreeMap.length_keys]
  have hstart : Tracks (competing (reachedBy records.keys order.successors order.heads)) []
      ⟨[], [], competing (reachedBy records.keys order.successors order.heads)⟩ ([], []) :=
    ⟨by simp, by simp, by simp⟩
  have htracks := tracks_roots order.closed hfuel order.active_subset hstart
  unfold conflicted
  rw [htracks.conflicted, order.mem_competing, or_assoc]
  rfl

end PowerFramework.Temporal
