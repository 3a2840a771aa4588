import Mathlib.Data.List.Basic
/-!
# Exceptions

An exception is its class name and its message.  The lemmas take apart a computation that
has returned: a sequence of two, a check of every element, a map over a list.
-/

namespace PowerFramework.Lib.Failure

structure Exn where
  kind : String
  message : String
  deriving DecidableEq, Repr

def valueError (message : String) : Exn := ⟨"ValueError", message⟩

def runtimeError (message : String) : Exn := ⟨"RuntimeError", message⟩

/-- `if p: raise e` -/
def raiseIf (p : Prop) [Decidable p] (e : Exn) : Except Exn PUnit :=
  if p then .error e else .ok ⟨⟩

universe u

variable {ε α β : Type u}

theorem bind_eq_ok {x : Except ε α} {f : α → Except ε β} {b : β} :
    x >>= f = .ok b ↔ ∃ a, x = .ok a ∧ f a = .ok b := by
  cases x with
  | error e => simp [bind, Except.bind]
  | ok a => simp [bind, Except.bind]

theorem exists_bind_eq_ok {x : Except ε α} {f : α → Except ε β} :
    (∃ b, x >>= f = .ok b) ↔ ∃ a, x = .ok a ∧ ∃ b, f a = .ok b := by
  cases x with
  | error e => simp [bind, Except.bind]
  | ok a => simp [bind, Except.bind]

theorem bind_eq_error {x : Except ε α} {f : α → Except ε β} {e : ε} :
    x >>= f = .error e ↔ x = .error e ∨ ∃ a, x = .ok a ∧ f a = .error e := by
  cases x with
  | error e' => simp [bind, Except.bind]
  | ok a => simp [bind, Except.bind]

theorem map_eq_error {x : Except ε α} {f : α → β} {e : ε} : x.map f = .error e ↔ x = .error e := by
  cases x with
  | error e' => simp [Except.map]
  | ok a => simp [Except.map]

theorem map_eq_ok {x : Except ε α} {f : α → β} {b : β} :
    x.map f = .ok b ↔ ∃ a, x = .ok a ∧ f a = b := by
  cases x with
  | error e => simp [Except.map]
  | ok a => simp [Except.map]

theorem toOption_eq_some {x : Except ε α} {a : α} : x.toOption = some a ↔ x = .ok a := by
  cases x <;> simp [Except.toOption]

theorem exists_of_isOk {x : Except ε α} (h : x.isOk = true) : ∃ a, x = .ok a := by
  cases x with
  | error e => cases h
  | ok a => exact ⟨a, rfl⟩

@[simp] theorem raiseIf_eq_ok {p : Prop} [Decidable p] {e : Exn} {u : PUnit} :
    raiseIf p e = .ok u ↔ ¬ p := by
  by_cases hp : p <;> simp [raiseIf, hp]

theorem raiseIf_eq_error {p : Prop} [Decidable p] {e e' : Exn} :
    raiseIf p e = .error e' ↔ p ∧ e = e' := by
  by_cases hp : p <;> simp [raiseIf, hp]

theorem forM_eq_ok {f : α → Except ε PUnit.{u + 1}} {xs : List α} {v : PUnit.{u + 1}} :
    xs.forM f = .ok v ↔ ∀ x ∈ xs, f x = .ok ⟨⟩ := by
  induction xs with
  | nil => simp [pure, Except.pure]
  | cons x xs ih =>
      rw [List.forM_eq_forM, List.forM_cons, bind_eq_ok, ← List.forM_eq_forM, List.forall_mem_cons]
      constructor
      · rintro ⟨⟨⟩, hx, hxs⟩
        exact ⟨hx, ih.mp hxs⟩
      · rintro ⟨hx, hxs⟩
        exact ⟨⟨⟩, hx, ih.mpr hxs⟩

/-- A map whose calls return `g` exactly where `P` holds. -/
theorem mapM_eq_ok {P : α → Prop} {g : α → β} {f : α → Except ε β}
    (hf : ∀ x y, f x = .ok y ↔ P x ∧ y = g x) {xs : List α} {ys : List β} :
    xs.mapM f = .ok ys ↔ (∀ x ∈ xs, P x) ∧ ys = xs.map g := by
  induction xs generalizing ys with
  | nil =>
      simp only [List.mapM_nil, pure, Except.pure, Except.ok.injEq, List.not_mem_nil,
        false_implies, implies_true, true_and, List.map_nil]
      exact eq_comm
  | cons x xs ih =>
      rw [List.mapM_cons, bind_eq_ok, List.forall_mem_cons, List.map_cons]
      constructor
      · rintro ⟨y, hy, hrest⟩
        obtain ⟨zs, hzs, heq⟩ := bind_eq_ok.mp hrest
        cases heq
        obtain ⟨hx, rfl⟩ := (hf x y).mp hy
        obtain ⟨hxs, rfl⟩ := ih.mp hzs
        exact ⟨⟨hx, hxs⟩, rfl⟩
      · rintro ⟨⟨hx, hxs⟩, rfl⟩
        exact ⟨g x, (hf x (g x)).mpr ⟨hx, rfl⟩,
          bind_eq_ok.mpr ⟨xs.map g, ih.mpr ⟨hxs, rfl⟩, rfl⟩⟩

theorem mapM_congr {f g : α → Except ε β} {xs : List α} (h : ∀ x ∈ xs, f x = g x) :
    xs.mapM f = xs.mapM g := by
  induction xs with
  | nil => rfl
  | cons x xs ih =>
      rw [List.forall_mem_cons] at h
      rw [List.mapM_cons, List.mapM_cons, h.1, ih h.2]

theorem mem_of_mapM {f : α → Except ε β} {xs : List α} {ys : List β} (h : xs.mapM f = .ok ys)
    {y : β} (hy : y ∈ ys) : ∃ x ∈ xs, f x = .ok y := by
  induction xs generalizing ys with
  | nil =>
      cases h
      cases hy
  | cons x xs ih =>
      rw [List.mapM_cons] at h
      obtain ⟨y', hy', h⟩ := bind_eq_ok.mp h
      obtain ⟨ys', hys', h⟩ := bind_eq_ok.mp h
      cases h
      rcases List.mem_cons.mp hy with rfl | hy
      · exact ⟨x, by simp, hy'⟩
      · obtain ⟨x', hx', heq⟩ := ih hys' hy
        exact ⟨x', by simp [hx'], heq⟩

theorem exists_of_mapM {f : α → Except ε β} {xs : List α} {ys : List β} (h : xs.mapM f = .ok ys)
    {x : α} (hx : x ∈ xs) : ∃ y ∈ ys, f x = .ok y := by
  induction xs generalizing ys with
  | nil => cases hx
  | cons x' xs ih =>
      rw [List.mapM_cons] at h
      obtain ⟨y', hy', h⟩ := bind_eq_ok.mp h
      obtain ⟨ys', hys', h⟩ := bind_eq_ok.mp h
      cases h
      rcases List.mem_cons.mp hx with rfl | hx
      · exact ⟨y', by simp, hy'⟩
      · obtain ⟨y, hy, heq⟩ := ih hys' hx
        exact ⟨y, by simp [hy], heq⟩

/-- A map that fails fails at one of its elements. -/
theorem exists_of_mapM_error {f : α → Except ε β} {xs : List α} {e : ε}
    (h : xs.mapM f = .error e) : ∃ x ∈ xs, f x = .error e := by
  induction xs with
  | nil => cases h
  | cons x xs ih =>
      rw [List.mapM_cons] at h
      rcases bind_eq_error.mp h with hx | ⟨y, -, h⟩
      · exact ⟨x, List.mem_cons_self, hx⟩
      · rcases bind_eq_error.mp h with hxs | ⟨ys, -, h⟩
        · obtain ⟨x', hx', heq⟩ := ih hxs
          exact ⟨x', List.mem_cons_of_mem x hx', heq⟩
        · cases h

theorem exists_mapM {f : α → Except ε β} {xs : List α} (h : ∀ x ∈ xs, ∃ y, f x = .ok y) :
    ∃ ys, xs.mapM f = .ok ys := by
  cases hmap : xs.mapM f with
  | ok ys => exact ⟨ys, rfl⟩
  | error e =>
      obtain ⟨x, hx, hfailed⟩ := exists_of_mapM_error hmap
      obtain ⟨y, hy⟩ := h x hx
      rw [hy] at hfailed
      cases hfailed

/-- What a map keeps of every element it keeps of the list. -/
theorem map_of_mapM_mem {γ : Type u} {f : α → Except ε β} {g : β → γ} {k : α → γ} {xs : List α}
    {ys : List β} (hf : ∀ x ∈ xs, ∀ y, f x = .ok y → g y = k x) (h : xs.mapM f = .ok ys) :
    ys.map g = xs.map k := by
  induction xs generalizing ys with
  | nil =>
      cases h
      rfl
  | cons x xs ih =>
      rw [List.forall_mem_cons] at hf
      rw [List.mapM_cons] at h
      obtain ⟨y, hy, h⟩ := bind_eq_ok.mp h
      obtain ⟨rest, hrest, h⟩ := bind_eq_ok.mp h
      cases h
      rw [List.map_cons, List.map_cons, hf.1 y hy, ih hf.2 hrest]

theorem map_of_mapM {γ : Type u} {f : α → Except ε β} {g : β → γ} {k : α → γ}
    (hf : ∀ x y, f x = .ok y → g y = k x) {xs : List α} {ys : List β} (h : xs.mapM f = .ok ys) :
    ys.map g = xs.map k := map_of_mapM_mem (fun x _ => hf x) h

theorem length_of_mapM {f : α → Except ε β} {xs : List α} {ys : List β} (h : xs.mapM f = .ok ys) :
    ys.length = xs.length := by
  have hmap : ys.map (fun _ => PUnit.unit) = xs.map fun _ => PUnit.unit :=
    map_of_mapM (fun _ _ _ => rfl) h
  simpa using congrArg List.length hmap

theorem mapM_concat_eq_ok {f : α → Except ε β} {xs : List α} {x : α} {ys : List β} :
    (xs ++ [x]).mapM f = .ok ys ↔
      ∃ front y, xs.mapM f = .ok front ∧ f x = .ok y ∧ ys = front ++ [y] := by
  rw [List.mapM_append, bind_eq_ok]
  constructor
  · rintro ⟨front, hfront, h⟩
    obtain ⟨last, hlast, h⟩ := bind_eq_ok.mp h
    rw [List.mapM_cons] at hlast
    obtain ⟨y, hy, hlast⟩ := bind_eq_ok.mp hlast
    cases hlast
    cases h
    exact ⟨front, y, hfront, hy, rfl⟩
  · rintro ⟨front, y, hfront, hy, rfl⟩
    exact ⟨front, hfront, bind_eq_ok.mpr ⟨[y], by rw [List.mapM_cons, hy]; rfl, rfl⟩⟩

end PowerFramework.Lib.Failure
