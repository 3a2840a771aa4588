import PowerFramework.Temporal.Search
/-!
# Temporal statuses

A head is current, or conflicted when it competes.  A record that a head leads to is historical or
conflicted.  A record that valid records supersede but no head leads to is marked only when the
search for cycles comes back on it, which is sure for a cycle that meets no other one.
-/

namespace PowerFramework.Temporal

open Lib Lib.DepthFirst Relation

variable {records : Table TemporalRecord} {boundary : Date}

/-! ## The status of a record -/

section
variable (order : Enumeration records boundary) {path : String}

/-- The records that one head reaches and that are not conflicted. -/
def Enumeration.outdated : List String :=
  ((reachedBy records.keys order.successors order.heads).toList.filter fun entry =>
    entry.2.length = 1 ∧ entry.1 ∉ conflicted order).map (·.1)

end

/-! ## Cycles -/

section
variable (records boundary)

/-- The record lies on a cycle of superseding valid records. -/
def OnCycle (path : String) : Prop := DepthFirst.OnCycle (superseded records boundary) path

/-- The record lies on such a cycle, and on none that meets another: each record of it supersedes
one record of it. -/
def OnSimpleCycle (path : String) : Prop :=
  OnCycle records boundary path ∧ ∀ a b c, Together (superseded records boundary) path a →
    b ∈ superseded records boundary a → Together (superseded records boundary) path b →
      c ∈ superseded records boundary a → Together (superseded records boundary) path c → b = c

end

section
variable (order : Enumeration records boundary) {path : String}

theorem Enumeration.together {a b : String} :
    Together order.successors a b ↔ Together (superseded records boundary) a b := by
  unfold Together
  rw [order.relation]

theorem Enumeration.onCycle : DepthFirst.OnCycle order.successors path ↔
    OnCycle records boundary path := by
  unfold OnCycle DepthFirst.OnCycle
  rw [order.relation]

theorem OnCycle.isActive (h : OnCycle records boundary path) :
    isActive records boundary path = true := by
  obtain ⟨next, hnext, -⟩ := DepthFirst.OnCycle.exists_next h
  exact isActive_of_superseded hnext

theorem size_keys : records.keys.length ≤ records.size := by rw [Std.ExtTreeMap.length_keys]

/-- A record on a cycle that meets no other one is marked in every order. -/
theorem OnSimpleCycle.marked (h : OnSimpleCycle records boundary path) :
    path ∈ conflicted order := by
  obtain ⟨honcycle, hsingle⟩ := h
  have hactive := (order.mem_active path).mpr honcycle.isActive
  have hloop := mem_loop_of_single order.closed order.active_subset size_keys hactive
    (order.onCycle.mpr honcycle) (by
      intro a b c hab hb hbt hc hct
      rw [order.together] at hab hbt hct
      rw [order.mem_successors] at hb hc
      exact hsingle a b c hab hb hbt hc hct)
  exact (mem_conflicted order).mpr (Or.inr (Or.inr hloop))

/-! ## Superseded records -/

variable (records) in
/-- The target is superseded by the record, which may be valid or not. -/
def Supersedes (path target : String) : Prop :=
  ∃ record memory, records[path]? = some record ∧ record.memory = some memory ∧
    target ∈ memory.supersedes ∧ target ∈ records

variable (records boundary) in
/-- A valid record supersedes the record, over any records between them. -/
def Outdated (path : String) : Prop :=
  ∃ source, isActive records boundary source = true ∧ TransGen (Supersedes records) source path

variable (records boundary) in
/-- Every valid record that a valid record supersedes, over any records, has a head that leads to
it over valid ones, is a head that competes, or lies on a cycle as given. -/
def Covered (cycle : String → Prop) : Prop :=
  ∀ path, isActive records boundary path = true → Outdated records boundary path →
    (∃ head, IsHead records boundary head ∧ Leads records boundary head path) ∨
      (IsHead records boundary path ∧ Competes records boundary path) ∨ cycle path

end

/-! ## One map for all orders -/

section
variable {path : String}

end

/-! ## Two orders -/

section
variable (records boundary)

/-- The enumeration of each set in the order of the paths. -/
def Enumeration.sorted : Enumeration records boundary where
  active := records.keys.filter fun path => isActive records boundary path
  heads := records.keys.filter fun path =>
    isActive records boundary path && !isIncoming records boundary path
  successors path := sortedSet (superseded records boundary path)
  active_nodup := nodup_keys.filter _
  mem_active path := by
    rw [List.mem_filter, Std.ExtTreeMap.mem_keys]
    exact ⟨fun h => h.2, fun h => ⟨mem_of_isActive h, h⟩⟩
  heads_nodup := nodup_keys.filter _
  mem_heads path := by
    rw [List.mem_filter, Std.ExtTreeMap.mem_keys, Bool.and_eq_true, Bool.not_eq_true']
    exact ⟨fun h => h.2, fun h => ⟨mem_of_isActive h.1, h⟩⟩
  successors_nodup path := nodup_sortedSet _
  mem_successors path target := mem_sortedSet

end

end PowerFramework.Temporal
