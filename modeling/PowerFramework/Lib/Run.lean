import Mathlib.Data.List.Induction
import Mathlib.Data.List.Nodup
import PowerFramework.Lib.Failure
/-!
# Runs

A step that may fail, run over a list of inputs: the run stops at the first failure.  What a step
preserves a run preserves, and two runs agree up to a normal form when each step respects it.
-/

namespace PowerFramework.Lib.Run

open Failure

universe u v

variable {ε σ : Type u} {α : Type v} {step : σ → α → Except ε σ} {s t : σ}

@[simp] theorem foldlM_nil_eq_ok : ([] : List α).foldlM step s = .ok t ↔ s = t := by
  simp [pure, Except.pure]

theorem foldlM_cons_eq_ok {x : α} {xs : List α} :
    (x :: xs).foldlM step s = .ok t ↔ ∃ mid, step s x = .ok mid ∧ xs.foldlM step mid = .ok t := by
  rw [List.foldlM_cons, bind_eq_ok]

theorem foldlM_append_eq_ok {xs ys : List α} :
    (xs ++ ys).foldlM step s = .ok t ↔
      ∃ mid, xs.foldlM step s = .ok mid ∧ ys.foldlM step mid = .ok t := by
  rw [List.foldlM_append, bind_eq_ok]

theorem foldlM_concat_eq_ok {xs : List α} {x : α} :
    (xs ++ [x]).foldlM step s = .ok t ↔ ∃ mid, xs.foldlM step s = .ok mid ∧ step mid x = .ok t := by
  simp only [foldlM_append_eq_ok, foldlM_cons_eq_ok, foldlM_nil_eq_ok, exists_eq_right]

/-- A run that fails fails at one of its inputs. -/
theorem exists_of_foldlM_error {xs : List α} {e : ε} (h : xs.foldlM step s = .error e) :
    ∃ mid, ∃ x ∈ xs, step mid x = .error e := by
  induction xs generalizing s with
  | nil => cases h
  | cons x xs ih =>
      rw [List.foldlM_cons] at h
      rcases bind_eq_error.mp h with hx | ⟨mid, -, h⟩
      · exact ⟨s, x, List.mem_cons_self, hx⟩
      · obtain ⟨mid, y, hy, heq⟩ := ih h
        exact ⟨mid, y, List.mem_cons_of_mem x hy, heq⟩

/-- A run taken apart at one of its inputs. -/
theorem foldlM_split {before after : List α} {x : α} :
    (before ++ x :: after).foldlM step s = .ok t ↔
      ∃ mid next, before.foldlM step s = .ok mid ∧ step mid x = .ok next ∧
        after.foldlM step next = .ok t := by
  rw [foldlM_append_eq_ok]
  constructor
  · rintro ⟨mid, hbefore, h⟩
    obtain ⟨next, hstep, hafter⟩ := foldlM_cons_eq_ok.mp h
    exact ⟨mid, next, hbefore, hstep, hafter⟩
  · rintro ⟨mid, next, hbefore, hstep, hafter⟩
    exact ⟨mid, hbefore, foldlM_cons_eq_ok.mpr ⟨next, hstep, hafter⟩⟩

/-- What holds of the inputs so far and of the state they led to, by what one more input does. -/
theorem foldlM_history {P : List α → σ → Prop} (hnil : P [] s)
    (hstep : ∀ before mid x next, before.foldlM step s = .ok mid → P before mid →
      step mid x = .ok next → P (before ++ [x]) next) {xs : List α}
    (h : xs.foldlM step s = .ok t) : P xs t := by
  induction xs using List.reverseRecOn generalizing t with
  | nil =>
      rw [foldlM_nil_eq_ok] at h
      exact h ▸ hnil
  | append_singleton before x ih =>
      obtain ⟨mid, hbefore, hx⟩ := foldlM_concat_eq_ok.mp h
      exact hstep before mid x t hbefore (ih hbefore) hx

/-- A history whose step may use where in the run it stands. -/
theorem foldlM_history_prefix {P : List α → σ → Prop} {xs : List α} (hnil : P [] s)
    (hstep : ∀ before mid x next, before ++ [x] <+: xs → before.foldlM step s = .ok mid →
      P before mid → step mid x = .ok next → P (before ++ [x]) next)
    (h : xs.foldlM step s = .ok t) : P xs t := by
  have hhistory : xs <+: xs → P xs t := by
    refine foldlM_history (P := fun before mid => before <+: xs → P before mid) (fun _ => hnil) ?_ h
    intro before mid x next hbefore ih hx hprefix
    exact hstep before mid x next hprefix hbefore
      (ih ((List.prefix_append before [x]).trans hprefix)) hx
  exact hhistory (List.prefix_refl xs)

/-- What one input changes and no other one touches. -/
theorem foldlM_field [DecidableEq α] {β : Type u} {π : σ → β} {f : β → β} {x : α}
    (hsame : ∀ mid y next, y ≠ x → step mid y = .ok next → π next = π mid)
    (hchange : ∀ mid next, step mid x = .ok next → π next = f (π mid)) {xs : List α}
    (hxs : xs.Nodup) (h : xs.foldlM step s = .ok t) :
    π t = if x ∈ xs then f (π s) else π s := by
  refine foldlM_history_prefix (P := fun before mid => π mid = if x ∈ before then f (π s) else π s)
    (by simp) ?_ h
  intro before mid y next hprefix _ ih hy
  have hnodup : (before ++ [y]).Nodup := hxs.sublist hprefix.sublist
  by_cases hyx : y = x
  · subst hyx
    have hnew : y ∉ before := by
      intro hmem
      exact (List.disjoint_of_nodup_append hnodup) hmem (by simp)
    rw [if_neg hnew] at ih
    rw [hchange mid next hy, ih]
    simp
  · rw [hsame mid y next hyx hy, ih]
    simp [Ne.symm hyx]

theorem foldlM_invariant {P : σ → Prop}
    (hstep : ∀ mid x next, P mid → step mid x = .ok next → P next) (hs : P s) {xs : List α}
    (h : xs.foldlM step s = .ok t) : P t :=
  foldlM_history (P := fun _ => P) hs (fun _ mid x next _ => hstep mid x next) h

/-- An invariant whose step may use that the input is one of the run. -/
theorem foldlM_invariant_mem {P : σ → Prop} {xs : List α}
    (hstep : ∀ mid, ∀ x ∈ xs, ∀ next, P mid → step mid x = .ok next → P next) (hs : P s)
    (h : xs.foldlM step s = .ok t) : P t := by
  induction xs generalizing s with
  | nil =>
      rw [foldlM_nil_eq_ok] at h
      exact h ▸ hs
  | cons x xs ih =>
      obtain ⟨mid, hx, h⟩ := foldlM_cons_eq_ok.mp h
      exact ih (fun mid y hy => hstep mid y (List.mem_cons_of_mem x hy))
        (hstep s x List.mem_cons_self mid hs hx) h

/-- `Q` holds of each input together with the state it is applied to. -/
def Throughout (step : σ → α → Except ε σ) (s : σ) (Q : σ → α → Prop) (xs : List α) : Prop :=
  ∀ before x after mid, xs = before ++ x :: after → before.foldlM step s = .ok mid → Q mid x

theorem throughout_nil {Q : σ → α → Prop} : Throughout step s Q [] := by
  intro before x after mid h
  simp at h

theorem throughout_of_forall {Q : σ → α → Prop} {xs : List α} (h : ∀ mid, ∀ x ∈ xs, Q mid x) :
    Throughout step s Q xs := by
  rintro before x after mid rfl -
  exact h mid x (by simp)

theorem throughout_singleton {Q : σ → α → Prop} {x : α} : Throughout step s Q [x] ↔ Q s x := by
  refine ⟨fun h => h [] x [] s rfl rfl, ?_⟩
  rintro h before y after mid heq hmid
  obtain ⟨rfl, rfl, rfl⟩ : before = [] ∧ y = x ∧ after = [] := by
    cases before with
    | nil => simpa [eq_comm] using heq
    | cons _ _ => simp at heq
  cases hmid
  exact h

theorem throughout_concat {Q : σ → α → Prop} {xs : List α} {x : α}
    (h : xs.foldlM step s = .ok t) :
    Throughout step s Q (xs ++ [x]) ↔ Throughout step s Q xs ∧ Q t x := by
  constructor
  · intro hall
    refine ⟨?_, hall xs x [] t rfl h⟩
    rintro before y after mid rfl hmid
    exact hall before y (after ++ [x]) mid (by simp) hmid
  · rintro ⟨hxs, hx⟩ before y after mid heq hmid
    rcases List.eq_nil_or_concat after with rfl | ⟨front, last, rfl⟩
    · obtain ⟨rfl, hsame⟩ := List.append_inj' heq rfl
      cases hsame
      rw [h] at hmid
      cases hmid
      exact hx
    · have hshape : xs ++ [x] = (before ++ y :: front) ++ [last] := by
        rw [heq]
        simp
      obtain ⟨hfront, -⟩ := List.append_inj' hshape rfl
      exact hxs before y front mid hfront hmid

/-- Two runs from states with one normal form end alike: both fail with one error, or both in
states with one normal form. -/
theorem foldlM_normal {P : σ → Prop} {normal : σ → σ}
    (hstep : ∀ mid x next, P mid → step mid x = .ok next → P next)
    (hnormal : ∀ mid x, P mid → (step mid x).map normal = (step (normal mid) x).map normal)
    (hs : P s) (ht : P t) (h : normal s = normal t) (xs : List α) :
    (xs.foldlM step s).map normal = (xs.foldlM step t).map normal := by
  induction xs generalizing s t with
  | nil => simp [pure, Except.pure, Except.map, h]
  | cons x xs ih =>
      have hagree : (step s x).map normal = (step t x).map normal := by
        rw [hnormal s x hs, h, hnormal t x ht]
      rw [List.foldlM_cons, List.foldlM_cons]
      cases hx : step s x with
      | error e =>
          cases hy : step t x with
          | error e' =>
              rw [hx, hy] at hagree
              exact hagree
          | ok t' =>
              rw [hx, hy] at hagree
              cases hagree
      | ok s' =>
          cases hy : step t x with
          | error e' =>
              rw [hx, hy] at hagree
              cases hagree
          | ok t' =>
              rw [hx, hy] at hagree
              exact ih (hstep s x s' hs hx) (hstep t x t' ht hy) (Except.ok.inj hagree)

end PowerFramework.Lib.Run
