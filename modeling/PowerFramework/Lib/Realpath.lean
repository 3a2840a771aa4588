import PowerFramework.Lib.PosixPath
/-!
# Paths through symbolic links

A tree of directories, files and symbolic links, and the place a path leads to.  A path that is
walked without links ends where it says; otherwise it ends where its last link leads, followed by
what stands behind this link (`Leads.last_link`).
-/

namespace PowerFramework.Lib.Realpath

open Failure PosixPath

inductive Node where
  | directory
  | file
  | symlink (target : String)
  deriving DecidableEq, Repr

/-- What stands at a place; a place is the components of an absolute path. -/
abbrev Tree := List String → Option Node

/-- Where the target of a link starts. -/
def origin (here : List String) (target : String) : List String :=
  if target.toList.head? = some '/' then [] else here

def tooManyLinks (strict : Bool) : Exn :=
  if strict then ⟨"OSError", "Too many levels of symbolic links"⟩
  else valueError "Too many levels of symbolic links"

def noSuchPlace (tree : Tree) (here : List String) : Exn :=
  if tree here = some .file then ⟨"NotADirectoryError", "Not a directory"⟩
  else ⟨"FileNotFoundError", "No such file or directory"⟩

/-- One component: the place behind it, and what a link puts in front of the rest. -/
def step (tree : Tree) (strict : Bool) (here : List String) (component : String) :
    Except Exn (List String × List String) :=
  if component = "" ∨ component = "." then .ok (here, [])
  else if component = ".." then .ok (here.dropLast, [])
  else match tree (here ++ [component]) with
    | some (.symlink target) => .ok (origin here target, components target)
    | some _ => .ok (here ++ [component], [])
    | none => if strict then .error (noSuchPlace tree here) else .ok (here ++ [component], [])

/-- `os.path.realpath` from a place on.  A path that takes too many steps goes round in circles. -/
def walk (tree : Tree) (strict : Bool) :
    Nat → List String → List String → Except Exn (List String)
  | 0, _, _ => .error (tooManyLinks strict)
  | _ + 1, here, [] => .ok here
  | steps + 1, here, component :: path =>
      match step tree strict here component with
      | .error e => .error e
      | .ok (next, front) => walk tree strict steps next (front ++ path)

/-- `os.path.exists` -/
def pathExists (tree : Tree) (steps : Nat) (path : List String) : Bool :=
  (walk tree true steps [] path).isOk

def isLink (tree : Tree) (place : List String) : Bool :=
  match tree place with
  | some (.symlink _) => true
  | _ => false

/-- `os.path.islink` -/
def islink (tree : Tree) (steps : Nat) (path : List String) : Bool :=
  match walk tree true steps [] path.dropLast with
  | .error _ => false
  | .ok here => isLink tree (here ++ path.getLast?.toList)

/-! ## Where a path leads -/

/-- Some number of steps is enough to reach the place. -/
def Leads (tree : Tree) (strict : Bool) (here path place : List String) : Prop :=
  ∃ steps, walk tree strict steps here path = .ok place

/-- A component that is neither blank nor a dot or two. -/
def Plain (component : String) : Prop := component ≠ "" ∧ component ≠ "." ∧ component ≠ ".."

section
variable {tree : Tree} {strict : Bool} {steps : Nat}
  {here next front mid place path rest : List String}  {component target : String}

theorem walk_cons (h : step tree strict here component = .ok (next, front)) :
    walk tree strict (steps + 1) here (component :: path) =
      walk tree strict steps next (front ++ path) := by
  rw [walk, h]

/-- A walk that ends has taken its first step. -/
theorem step_of_walk (h : walk tree strict (steps + 1) here (component :: path) = .ok place) :
    ∃ next front, step tree strict here component = .ok (next, front) ∧
      walk tree strict steps next (front ++ path) = .ok place := by
  rw [walk] at h
  cases hstep : step tree strict here component with
  | error e =>
    rw [hstep] at h
    cases h
  | ok pair =>
    obtain ⟨next, front⟩ := pair
    rw [hstep] at h
    exact ⟨next, front, rfl, h⟩

theorem walk_mono (h : walk tree strict steps here path = .ok place) (more : Nat) :
    walk tree strict (steps + more) here path = .ok place := by
  induction steps generalizing here path with
  | zero => cases h
  | succ steps ih =>
    rw [Nat.succ_add]
    cases path with
    | nil => exact h
    | cons component path =>
      obtain ⟨next, front, hstep, hrest⟩ := step_of_walk h
      rw [walk_cons hstep]
      exact ih hrest

theorem Leads.unique (h : Leads tree strict here path place)
    (h' : Leads tree strict here path mid) : place = mid := by
  obtain ⟨steps, h⟩ := h
  obtain ⟨steps', h'⟩ := h'
  have hplace := walk_mono h steps'
  have hmid := walk_mono h' steps
  rw [Nat.add_comm, hplace] at hmid
  exact Except.ok.inj hmid

theorem leads_nil : Leads tree strict here [] place ↔ place = here := by
  constructor
  · rintro ⟨steps, h⟩
    cases steps with
    | zero => cases h
    | succ steps => exact (Except.ok.inj h).symm
  · rintro rfl
    exact ⟨1, rfl⟩

theorem leads_cons : Leads tree strict here (component :: path) place ↔
    ∃ next front, step tree strict here component = .ok (next, front) ∧
      Leads tree strict next (front ++ path) place := by
  constructor
  · rintro ⟨steps, h⟩
    cases steps with
    | zero => cases h
    | succ steps =>
      obtain ⟨next, front, hstep, hrest⟩ := step_of_walk h
      exact ⟨next, front, hstep, steps, hrest⟩
  · rintro ⟨next, front, hstep, steps, hrest⟩
    exact ⟨steps + 1, by rw [walk_cons hstep]; exact hrest⟩

/-- A path is walked part by part. -/
theorem leads_append : Leads tree strict here (path ++ rest) place ↔
    ∃ mid, Leads tree strict here path mid ∧ Leads tree strict mid rest place := by
  constructor
  · rintro ⟨steps, h⟩
    induction steps generalizing here path with
    | zero => cases h
    | succ steps ih =>
      cases path with
      | nil => exact ⟨here, leads_nil.mpr rfl, steps + 1, h⟩
      | cons component path =>
        rw [List.cons_append] at h
        obtain ⟨next, front, hstep, hwalk⟩ := step_of_walk h
        rw [← List.append_assoc] at hwalk
        obtain ⟨mid, hmid, hrest⟩ := ih hwalk
        exact ⟨mid, leads_cons.mpr ⟨next, front, hstep, hmid⟩, hrest⟩
  · rintro ⟨mid, ⟨steps, h⟩, hrest⟩
    induction steps generalizing here path with
    | zero => cases h
    | succ steps ih =>
      cases path with
      | nil =>
        cases h
        exact hrest
      | cons component path =>
        obtain ⟨next, front, hstep, hwalk⟩ := step_of_walk h
        have hwhole := ih hwalk
        rw [List.append_assoc] at hwhole
        exact leads_cons.mpr ⟨next, front, hstep, hwhole⟩

/-! ## Steps -/

theorem step_link (hplain : Plain component)
    (hlink : tree (here ++ [component]) = some (.symlink target)) :
    step tree strict here component = .ok (origin here target, components target) := by
  rw [step, if_neg (not_or.mpr ⟨hplain.1, hplain.2.1⟩), if_neg hplain.2.2, hlink]

/-- A step to a place that is no link ends there. -/
theorem step_plain (hplain : Plain component) (hlink : isLink tree (here ++ [component]) = false)
    (h : step tree strict here component = .ok (next, front)) :
    next = here ++ [component] ∧ front = [] := by
  rw [step, if_neg (not_or.mpr ⟨hplain.1, hplain.2.1⟩), if_neg hplain.2.2] at h
  unfold isLink at hlink
  split at h
  · rename_i hnode
    rw [hnode] at hlink
    cases hlink
  · cases h
    exact ⟨rfl, rfl⟩
  · split_ifs at h
    cases h
    exact ⟨rfl, rfl⟩

theorem exists_of_isLink (h : isLink tree place = true) :
    ∃ target, tree place = some (.symlink target) := by
  unfold isLink at h
  split at h
  · rename_i target hnode
    exact ⟨target, hnode⟩
  · cases h

/-- A step makes one new place at most, which is no link and exists if the walk is strict. -/
theorem step_places {P : List String → Prop} (hhere : ∀ other, other <+: here → P other)
    (hnew : isLink tree (here ++ [component]) = false →
      (strict = true → tree (here ++ [component]) ≠ none) → P (here ++ [component]))
    (h : step tree strict here component = .ok (next, front)) :
    ∀ other, other <+: next → P other := by
  have hback : ∀ place, place <+: here → ∀ other, other <+: place → P other := by
    intro place hplace other hother
    exact hhere other (hother.trans hplace)
  by_cases hblank : component = "" ∨ component = "."
  · rw [step, if_pos hblank] at h
    cases h
    exact hhere
  by_cases hup : component = ".."
  · rw [step, if_neg hblank, if_pos hup] at h
    cases h
    exact hback _ (List.dropLast_prefix here)
  have hplain : Plain component := ⟨(not_or.mp hblank).1, (not_or.mp hblank).2, hup⟩
  cases hlink : isLink tree (here ++ [component]) with
  | true =>
    obtain ⟨target, hnode⟩ := exists_of_isLink hlink
    rw [step_link hplain hnode] at h
    cases h
    unfold origin
    split_ifs
    · exact hback [] List.nil_prefix
    · exact hhere
  | false =>
    rw [(step_plain hplain hlink h).1]
    intro other hother
    rcases List.prefix_concat_iff.mp hother with rfl | hother
    · apply hnew hlink
      intro hstrict hnode
      rw [step, if_neg hblank, if_neg hup, hnode] at h
      simp [hstrict] at h
    · exact hhere other hother

/-- What holds of every place that is no link, and exists if the walk is strict, holds on the way to
where a path leads. -/
theorem Leads.forall_prefix {P : List String → Prop} (h : Leads tree strict here path place)
    (hnew : ∀ other, isLink tree other = false → (strict = true → tree other ≠ none) → P other)
    (hhere : ∀ other, other <+: here → P other) : ∀ other, other <+: place → P other := by
  obtain ⟨steps, h⟩ := h
  induction steps generalizing here path with
  | zero => cases h
  | succ steps ih =>
    cases path with
    | nil =>
      cases h
      exact hhere
    | cons component path =>
      obtain ⟨next, front, hstep, hrest⟩ := step_of_walk h
      exact ih (step_places hhere (hnew _) hstep) hrest

/-! ## The last link -/

/-- No place behind the first one is a link. -/
def Unlinked (tree : Tree) (here path : List String) : Prop :=
  ∀ front, front ≠ [] → front <+: path → isLink tree (here ++ front) = false

theorem unlinked_cons : Unlinked tree here (component :: path) ↔
    isLink tree (here ++ [component]) = false ∧ Unlinked tree (here ++ [component]) path := by
  constructor
  · intro h
    refine ⟨h [component] (List.cons_ne_nil _ _) ⟨path, rfl⟩, ?_⟩
    intro front hne hfront
    rw [List.append_assoc]
    exact h (component :: front) (List.cons_ne_nil _ _) (List.cons_prefix_cons.mpr ⟨rfl, hfront⟩)
  · rintro ⟨hfirst, hrest⟩ front hne hfront
    cases front with
    | nil => exact absurd rfl hne
    | cons first front =>
      obtain ⟨rfl, htail⟩ := List.cons_prefix_cons.mp hfront
      cases front with
      | nil => exact hfirst
      | cons second front =>
        have hbehind := hrest (second :: front) (List.cons_ne_nil _ _) htail
        rwa [List.append_assoc] at hbehind

/-- A path without links ends where it says. -/
theorem Leads.unlinked (h : Leads tree strict here path place) (hplain : ∀ c ∈ path, Plain c)
    (hunlinked : Unlinked tree here path) : place = here ++ path := by
  induction path generalizing here with
  | nil =>
    rw [leads_nil.mp h, List.append_nil]
  | cons component path ih =>
    rw [List.forall_mem_cons] at hplain
    rw [unlinked_cons] at hunlinked
    obtain ⟨next, front, hstep, hrest⟩ := leads_cons.mp h
    obtain ⟨rfl, rfl⟩ := step_plain hplain.1 hunlinked.1 hstep
    rw [List.nil_append] at hrest
    rw [ih hrest hplain.2 hunlinked.2, List.append_assoc]
    rfl

/-- The last link of a path leads to the place; behind the link stands the rest. -/
def LastLink (tree : Tree) (strict : Bool) (here path place rest : List String) : Prop :=
  ∃ before component link target, path = before ++ component :: rest ∧
    Leads tree strict here before link ∧ tree (link ++ [component]) = some (.symlink target) ∧
    Leads tree strict (origin link target) (components target) place ∧ Unlinked tree place rest

/-- Behind its last link a path goes on as it says. -/
theorem LastLink.ends (h : LastLink tree strict here path mid rest) (hplain : ∀ c ∈ path, Plain c)
    (hleads : Leads tree strict here path place) : place = mid ++ rest := by
  obtain ⟨before, component, link, target, rfl, hbefore, hnode, htarget, hunlinked⟩ := h
  rw [List.forall_mem_append, List.forall_mem_cons] at hplain
  obtain ⟨at', hat, hbehind⟩ := leads_append.mp hleads
  rw [hat.unique hbefore] at hbehind
  obtain ⟨next, front, hstep, hrest⟩ := leads_cons.mp hbehind
  rw [step_link hplain.2.1 hnode] at hstep
  cases hstep
  obtain ⟨mid', hmid, hrest⟩ := leads_append.mp hrest
  rw [hmid.unique htarget] at hrest
  exact hrest.unlinked hplain.2.2 hunlinked

/-- A path has no links, or a last one. -/
theorem Leads.last_link (h : Leads tree strict here path place) (hplain : ∀ c ∈ path, Plain c) :
    Unlinked tree here path ∨ ∃ mid rest, LastLink tree strict here path mid rest := by
  induction path generalizing here with
  | nil =>
    left
    intro front hne hfront
    exact absurd (List.prefix_nil.mp hfront) hne
  | cons component path ih =>
    rw [List.forall_mem_cons] at hplain
    obtain ⟨next, front, hstep, hrest⟩ := leads_cons.mp h
    obtain ⟨mid, hfront, hpath⟩ := leads_append.mp hrest
    have hdeeper : ∀ place rest, LastLink tree strict mid path place rest →
        LastLink tree strict here (component :: path) place rest := by
      rintro place rest ⟨before, other, link, target, rfl, hbefore, hlink, htarget, hunlinked⟩
      refine ⟨component :: before, other, link, target, rfl, ?_, hlink, htarget, hunlinked⟩
      exact leads_cons.mpr ⟨next, front, hstep, leads_append.mpr ⟨mid, hfront, hbefore⟩⟩
    rcases ih hpath hplain.2 with hunlinked | ⟨place', rest, hlast⟩
    · cases hlink : isLink tree (here ++ [component]) with
      | true =>
        obtain ⟨target, hnode⟩ := exists_of_isLink hlink
        rw [step_link hplain.1 hnode] at hstep
        cases hstep
        right
        exact ⟨mid, path, [], component, here, target, rfl, leads_nil.mpr rfl, hnode, hfront,
          hunlinked⟩
      | false =>
        obtain ⟨rfl, rfl⟩ := step_plain hplain.1 hlink hstep
        rw [leads_nil.mp hfront] at hunlinked
        left
        exact unlinked_cons.mpr ⟨hlink, hunlinked⟩
    · exact Or.inr ⟨place', rest, hdeeper place' rest hlast⟩

end

end PowerFramework.Lib.Realpath
