import Mathlib.Data.List.Infix
/-!
# Kill points of a sequence of atomic operations

A routine that changes durable state is the list of atomic operations it performs, in
order.  A process killed inside the routine has performed a prefix of the list, so the
states it can leave behind are the states after the prefixes.  `Killed.append` splits a
kill over consecutive phases and `Killed.invariant` carries an invariant through one phase.
-/

namespace PowerFramework.Lib.Crash

variable {σ ω : Type*} (apply : ω → σ → σ)

/-- The state after performing `ops` in order. -/
def runOps (ops : List ω) (s : σ) : σ :=
  ops.foldl (fun t op => apply op t) s

/-- `t` is a state that a process killed somewhere in `ops` can leave behind. -/
def Killed (ops : List ω) (s t : σ) : Prop :=
  ∃ done, done <+: ops ∧ t = runOps apply done s

@[simp] theorem runOps_nil (s : σ) : runOps apply [] s = s := rfl

@[simp] theorem runOps_cons (op : ω) (ops : List ω) (s : σ) :
    runOps apply (op :: ops) s = runOps apply ops (apply op s) := rfl

theorem runOps_append (xs ys : List ω) (s : σ) :
    runOps apply (xs ++ ys) s = runOps apply ys (runOps apply xs s) := by
  simp [runOps, List.foldl_append]

/-- An invariant of every operation of `ops` survives the whole of `ops`. -/
theorem runOps_invariant {I : σ → Prop} {ops : List ω} {s : σ} (hs : I s)
    (hop : ∀ op ∈ ops, ∀ t, I t → I (apply op t)) : I (runOps apply ops s) := by
  induction ops generalizing s with
  | nil => exact hs
  | cons op ops ih =>
      rw [runOps_cons]
      apply ih (hop op (by simp) s hs)
      intro op' hmem
      exact hop op' (List.mem_cons_of_mem _ hmem)

/-- A prefix of two consecutive phases ends in the first, or in the second after all of the
first. -/
theorem prefix_append_cases {done xs ys : List ω} (h : done <+: xs ++ ys) :
    done <+: xs ∨ ∃ tail, tail <+: ys ∧ done = xs ++ tail := by
  induction xs generalizing done with
  | nil => exact Or.inr ⟨done, h, rfl⟩
  | cons op xs ih =>
      rcases List.prefix_cons_iff.mp h with rfl | ⟨rest, rfl, hrest⟩
      · exact Or.inl List.nil_prefix
      · rcases ih hrest with hin | ⟨tail, htail, rfl⟩
        · exact Or.inl (List.cons_prefix_cons.mpr ⟨rfl, hin⟩)
        · exact Or.inr ⟨tail, htail, rfl⟩

namespace Killed

theorem refl (ops : List ω) (s : σ) : Killed apply ops s s :=
  ⟨[], List.nil_prefix, rfl⟩

theorem full (ops : List ω) (s : σ) : Killed apply ops s (runOps apply ops s) :=
  ⟨ops, List.prefix_rfl, rfl⟩

variable {apply}

theorem nil_iff {s t : σ} : Killed apply [] s t ↔ t = s := by
  constructor
  · rintro ⟨done, hdone, rfl⟩
    rw [List.prefix_nil.mp hdone, runOps_nil]
  · rintro rfl
    exact refl apply [] _

theorem cons_iff {op : ω} {ops : List ω} {s t : σ} :
    Killed apply (op :: ops) s t ↔ t = s ∨ Killed apply ops (apply op s) t := by
  constructor
  · rintro ⟨done, hdone, rfl⟩
    rcases List.prefix_cons_iff.mp hdone with rfl | ⟨tail, rfl, htail⟩
    · exact Or.inl rfl
    · exact Or.inr ⟨tail, htail, rfl⟩
  · rintro (rfl | ⟨done, hdone, rfl⟩)
    · exact refl apply _ _
    · exact ⟨op :: done, List.cons_prefix_cons.mpr ⟨rfl, hdone⟩, rfl⟩

/-- A kill in two consecutive phases is a kill in the first, or in the second after the
first has completed. -/
theorem append {xs ys : List ω} {s t : σ} (h : Killed apply (xs ++ ys) s t) :
    Killed apply xs s t ∨ Killed apply ys (runOps apply xs s) t := by
  obtain ⟨done, hdone, rfl⟩ := h
  rcases prefix_append_cases hdone with hin | ⟨tail, htail, rfl⟩
  · exact Or.inl ⟨done, hin, rfl⟩
  · exact Or.inr ⟨tail, htail, runOps_append apply xs tail s⟩

theorem invariant {I : σ → Prop} {ops : List ω} {s t : σ} (hs : I s)
    (hop : ∀ op ∈ ops, ∀ u, I u → I (apply op u)) (h : Killed apply ops s t) : I t := by
  obtain ⟨done, hdone, rfl⟩ := h
  exact runOps_invariant apply hs fun op hmem => hop op (hdone.subset hmem)

end Killed

end PowerFramework.Lib.Crash
