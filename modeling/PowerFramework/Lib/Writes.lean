import Mathlib.Logic.Function.Basic
import PowerFramework.Lib.Failure
/-!
# Blocks that write

A block of statements over a store: what it wrote before it ended, and its result or the
exception it ended with.  What was written before an exception stays written.
-/

namespace PowerFramework.Lib.Writes

set_option linter.unusedSectionVars false

variable {κ ν ε : Type} {α β : Type} [DecidableEq κ]

/-- The store after the writes. -/
def perform (writes : List (κ × ν)) (store : κ → ν) : κ → ν :=
  writes.foldl (fun store write => Function.update store write.1 write.2) store

@[simp] theorem perform_nil (store : κ → ν) : perform [] store = store := rfl

@[simp] theorem perform_cons (write : κ × ν) (writes : List (κ × ν)) (store : κ → ν) :
    perform (write :: writes) store = perform writes (Function.update store write.1 write.2) := rfl

theorem perform_append (xs ys : List (κ × ν)) (store : κ → ν) :
    perform (xs ++ ys) store = perform ys (perform xs store) := by
  simp [perform, List.foldl_append]

/-- Writes of other keys leave a key as it was. -/
theorem perform_of_forall_ne {writes : List (κ × ν)} {key : κ}
    (h : ∀ write ∈ writes, write.1 ≠ key) (store : κ → ν) : perform writes store key = store key := by
  induction writes generalizing store with
  | nil => rfl
  | cons write writes ih =>
    rw [List.forall_mem_cons] at h
    rw [perform_cons, ih h.2, Function.update_of_ne (Ne.symm h.1)]

/-- A write of every key that was one of a list of writes, in any order, with one content each. -/
theorem perform_of_mem {writes : List (κ × ν)} {key : κ} {content : ν}
    (hmem : (key, content) ∈ writes) (h : ∀ write ∈ writes, write.1 = key → write.2 = content)
    (store : κ → ν) : perform writes store key = content := by
  induction writes generalizing store with
  | nil => cases hmem
  | cons write writes ih =>
    rw [List.forall_mem_cons] at h
    rw [perform_cons]
    by_cases hrest : (key, content) ∈ writes
    · exact ih hrest h.2 _
    · have hhead : write = (key, content) := by
        rcases List.mem_cons.mp hmem with hhead | htail
        · exact hhead.symm
        · exact absurd htail hrest
      rw [perform_of_forall_ne ?_, hhead, Function.update_self]
      intro other hother hkey
      have hcontent := h.2 other hother hkey
      exact hrest (by rw [← hkey, ← hcontent]; exact hother)

/-- A block of statements. -/
def Block (κ ν ε α : Type) := (κ → ν) → List (κ × ν) × Except ε α

namespace Block

def pure (a : α) : Block κ ν ε α := fun _ => ([], .ok a)

/-- One block behind another one, which it follows only if that returns. -/
def bind (x : Block κ ν ε α) (f : α → Block κ ν ε β) : Block κ ν ε β := fun store =>
  match x store with
  | (writes, .error e) => (writes, .error e)
  | (writes, .ok a) =>
      let rest := f a (perform writes store)
      (writes ++ rest.1, rest.2)

instance : Monad (Block κ ν ε) where
  pure := pure
  bind := bind

/-- An atomic write. -/
def write (key : κ) (content : ν) : Block κ ν ε Unit := fun _ => ([(key, content)], .ok ())

/-- A statement that only reads. -/
def read (f : (κ → ν) → Except ε α) : Block κ ν ε α := fun store => ([], f store)

/-- The store as it is. -/
def get : Block κ ν ε (κ → ν) := fun store => ([], .ok store)

/-- A statement that does not depend on the store. -/
def lift (result : Except ε α) : Block κ ν ε α := fun _ => ([], result)

/-- `try: x except e: handler(e)`, with what `x` wrote before its exception. -/
def tryCatch (x : Block κ ν ε α) (handler : ε → Block κ ν ε α) : Block κ ν ε α := fun store =>
  match x store with
  | (writes, .ok a) => (writes, .ok a)
  | (writes, .error e) =>
      let rest := handler e (perform writes store)
      (writes ++ rest.1, rest.2)

/-- A statement that only may fail. -/
def check (failure : Option ε) : Block κ ν ε Unit := fun _ =>
  ([], match failure with
    | some e => .error e
    | none => .ok ())

variable {x : Block κ ν ε α} {f : α → Block κ ν ε β} {store : κ → ν} {writes : List (κ × ν)} {b : β}

/-- A block that returns has gone through both of its parts. -/
theorem bind_ok : (x >>= f) store = (writes, .ok b) ↔
    ∃ front a back, x store = (front, .ok a) ∧ f a (perform front store) = (back, .ok b) ∧
      writes = front ++ back := by
  change bind x f store = _ ↔ _
  unfold bind
  cases hx : x store with
  | mk front result =>
    cases result with
    | error e => simp
    | ok a =>
      simp only [Prod.mk.injEq, Except.ok.injEq]
      constructor
      · rintro ⟨rfl, hb⟩
        exact ⟨front, a, _, ⟨rfl, rfl⟩, Prod.ext rfl hb, rfl⟩
      · rintro ⟨front', a', back, ⟨rfl, rfl⟩, hback, rfl⟩
        rw [hback]
        exact ⟨rfl, rfl⟩

theorem read_ok {g : (κ → ν) → Except ε α} {a : α} :
    (read g : Block κ ν ε α) store = (writes, .ok a) ↔ writes = [] ∧ g store = .ok a := by
  unfold read
  rw [Prod.mk.injEq, eq_comm]

theorem check_ok {failure : Option ε} {u : Unit} :
    (check failure : Block κ ν ε Unit) store = (writes, .ok u) ↔ writes = [] ∧ failure = none := by
  unfold check
  cases failure with
  | none => simp [eq_comm]
  | some e => simp

theorem write_ok {key : κ} {content : ν} {u : Unit} :
    (write key content : Block κ ν ε Unit) store = (writes, .ok u) ↔ writes = [(key, content)] := by
  unfold write
  simp [eq_comm]

/-! Running a block on a store. -/

variable {y : Block κ ν ε α} {e : ε} {a : α}

theorem bind_apply_ok (h : x store = (writes, .ok a)) :
    (x >>= f) store = (writes ++ (f a (perform writes store)).1, (f a (perform writes store)).2) := by
  change bind x f store = _
  rw [bind, h]

theorem bind_apply_error (h : x store = (writes, .error e)) :
    (x >>= f) store = (writes, .error e) := by
  change bind x f store = _
  rw [bind, h]

/-- Behind a block that has only read, the next one runs on the same store. -/
theorem bind_apply_read (h : x store = ([], .ok a)) : (x >>= f) store = f a store := by
  rw [bind_apply_ok h]
  rfl

theorem tryCatch_apply_ok {handler : ε → Block κ ν ε α} (h : x store = (writes, .ok a)) :
    tryCatch x handler store = (writes, .ok a) := by
  rw [tryCatch, h]

@[simp] theorem get_bind {g : (κ → ν) → Block κ ν ε β} : (get >>= g) store = g store store := rfl

@[simp] theorem lift_ok_bind : (lift (.ok a) >>= f) store = f a store := rfl

@[simp] theorem lift_error_bind : (lift (.error e) >>= f) store = ([], .error e) := rfl

@[simp] theorem pure_apply (b : β) :
    (Pure.pure b : Block κ ν ε β) store = ([], .ok b) := rfl

theorem read_bind_ok {g : (κ → ν) → Except ε α} (h : g store = .ok a) :
    (read g >>= f) store = f a store :=
  bind_apply_read (by rw [read, h])

theorem read_bind_error {g : (κ → ν) → Except ε α} (h : g store = .error e) :
    (read g >>= f) store = ([], .error e) :=
  bind_apply_error (by rw [read, h])

end Block

end PowerFramework.Lib.Writes
