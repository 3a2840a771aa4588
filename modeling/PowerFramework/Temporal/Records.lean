import Mathlib.Data.List.Perm.Basic
import PowerFramework.Lib.BreadthFirst
import PowerFramework.Lib.SortedSet
/-!
# Temporal records

The lifecycle metadata of notes and the statuses that validity and supersession give them at a
date.  Python enumerates a set in an order of its own; the order of every enumeration is a
parameter here.
-/

namespace PowerFramework.Temporal

/-- A date as its ordinal. -/
abbrev Date := Nat

/-- The fields of `MemoryMetadata` that the statuses depend on. -/
structure MemoryMetadata where
  validFrom : Option Date
  validUntil : Option Date
  supersedes : List String
  ordered : ∀ first ∈ validFrom, ∀ last ∈ validUntil, first ≤ last
  deriving DecidableEq

/-- `TemporalRecord`; its path is the key it is stored under. -/
structure TemporalRecord where
  memory : Option MemoryMetadata
  deriving DecidableEq

inductive TemporalStatus where
  | current | historical | conflicted
  deriving DecidableEq, Repr

abbrev Table (α : Type) := Std.ExtTreeMap String α

/-- `record.memory is None or (valid_from <= boundary and boundary <= valid_until)` -/
def TemporalRecord.valid (record : TemporalRecord) (boundary : Date) : Bool :=
  match record.memory with
  | none => true
  | some memory => memory.validFrom.all (· ≤ boundary) && memory.validUntil.all (boundary ≤ ·)

section
variable (records : Table TemporalRecord) (boundary : Date)

/-- `path in active` -/
def isActive (path : String) : Bool := (records[path]?).any (·.valid boundary)

/-- The members of `edges[path]`. -/
def superseded (path : String) : List String :=
  match records[path]? with
  | some record =>
      if record.valid boundary then
        ((record.memory.map MemoryMetadata.supersedes).getD []).filter (· ∈ records)
      else []
  | none => []

/-- `path in incoming` -/
def isIncoming (path : String) : Bool :=
  records.keys.any fun source => isActive records boundary source &&
    path ∈ superseded records boundary source

/-- The order in which one run enumerates the sets it builds. -/
structure Enumeration where
  active : List String
  heads : List String
  successors : String → List String
  active_nodup : active.Nodup
  mem_active : ∀ path, path ∈ active ↔ isActive records boundary path = true
  heads_nodup : heads.Nodup
  mem_heads : ∀ path, path ∈ heads ↔
    isActive records boundary path = true ∧ isIncoming records boundary path = false
  successors_nodup : ∀ path, (successors path).Nodup
  mem_successors : ∀ path target,
    target ∈ successors path ↔ target ∈ superseded records boundary path

end

/-! ## Competing heads -/

/-- `reached_by[target].add(head)` -/
def addReached (head : String) (reachedBy : Table (List String)) (target : String) :
    Table (List String) :=
  let heads := (reachedBy[target]?).getD []
  reachedBy.insert target (if head ∈ heads then heads else heads ++ [head])

/-- How often a queue over the successors of all paths is taken from at most. -/
def queueFuel (paths : List String) (successors : String → List String) (head : String) : Nat :=
  (successors head).length + (paths.map fun path => (successors path).length).sum

/-- `reached_by` -/
def reachedBy (paths : List String) (successors : String → List String) (heads : List String) :
    Table (List String) :=
  heads.foldl (fun reachedBy head =>
    (Lib.BreadthFirst.walk successors (queueFuel paths successors head) (successors head) []).foldl
      (addReached head) reachedBy) ∅

/-- The targets that several heads reach, and these heads. -/
def competing (reachedBy : Table (List String)) : List String :=
  reachedBy.toList.flatMap fun entry =>
    if entry.2.length > 1 then entry.1 :: entry.2 else []

/-! ## Cycles -/

/-- `visiting`, `visited` and `conflicted` during the search for cycles. -/
structure Search where
  visiting : List String
  visited : List String
  conflicted : List String

/-- `visit(path, trail)` -/
def visit (successors : String → List String) : Nat → String → List String → Search → Search
  | 0, _, _, search => search
  | fuel + 1, path, trail, search =>
      if path ∈ search.visiting then
        { search with conflicted := search.conflicted ++ trail.drop (trail.idxOf path) }
      else if path ∈ search.visited then search
      else
        let search := { search with visiting := path :: search.visiting }
        let search := (successors path).foldl
          (fun search target => visit successors fuel target (trail ++ [target]) search) search
        { search with
          visiting := search.visiting.filter (· ≠ path)
          visited := path :: search.visited }

/-! ## Statuses -/

section
variable {records : Table TemporalRecord} {boundary : Date}

/-- `conflicted` -/
def conflicted (order : Enumeration records boundary) : List String :=
  let reached := reachedBy records.keys order.successors order.heads
  (order.active.foldl
    (fun search path => visit order.successors (records.size + 1) path [path] search)
    ⟨[], [], competing reached⟩).conflicted

/-- `resolve_temporal_statuses(records, boundary)` -/
def resolveTemporalStatuses (order : Enumeration records boundary) : Table TemporalStatus :=
  let statuses : Table TemporalStatus :=
    records.map fun _ record => if record.valid boundary then .current else .historical
  let reached := reachedBy records.keys order.successors order.heads
  let statuses := reached.toList.foldl (fun statuses entry =>
    if entry.2.length = 1 ∧ entry.1 ∉ conflicted order then statuses.insert entry.1 .historical
    else statuses) statuses
  (conflicted order).foldl (fun statuses path => statuses.insert path .conflicted) statuses

end

end PowerFramework.Temporal
