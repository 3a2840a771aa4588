import Mathlib.Data.List.Basic
/-!
# Paths

A list of edges that leads from one node to another, each edge starting where the one before it
ends.
-/

namespace PowerFramework.Lib.Path

universe u v

variable {ν : Type u} {ε : Type v} {source target : ε → ν} {edge : ε → Prop}

/-- The edges lead from `a` to `b`, each of them admitted by `edge`. -/
def IsPath (source target : ε → ν) (edge : ε → Prop) : ν → List ε → ν → Prop
  | a, [], b => a = b
  | a, e :: es, b => source e = a ∧ edge e ∧ IsPath source target edge (target e) es b

/-- The node behind the last edge. -/
def pathEnd (target : ε → ν) (a : ν) (es : List ε) : ν := es.foldl (fun _ e => target e) a

theorem isPath_concat {a b : ν} {es : List ε} {e : ε} :
    IsPath source target edge a (es ++ [e]) b ↔
      IsPath source target edge a es (source e) ∧ edge e ∧ target e = b := by
  induction es generalizing a with
  | nil =>
      simp only [List.nil_append, IsPath]
      exact and_congr_left fun _ => eq_comm
  | cons d es ih => simp only [List.cons_append, IsPath, ih, and_assoc]

theorem pathEnd_concat {a : ν} {es : List ε} {e : ε} : pathEnd target a (es ++ [e]) = target e := by
  rw [pathEnd, List.foldl_append]
  rfl

/-- A path ends where its last edge does. -/
theorem IsPath.end_eq {a b : ν} {es : List ε} (h : IsPath source target edge a es b) :
    pathEnd target a es = b := by
  induction es generalizing a with
  | nil => exact h
  | cons e es ih => exact ih h.2.2

end PowerFramework.Lib.Path
