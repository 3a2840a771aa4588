import PowerFramework.Lib.SqlLike
/-!
# Conditions of a query

The conditions of a WHERE clause with positional parameters, in three-valued logic, over rows
whose cells are texts or NULL.
-/

namespace PowerFramework.Lib.Sql

/-! ## Three-valued logic -/

/-- A truth value; `none` is NULL. -/
abbrev Truth := Option Bool

def Truth.not (a : Truth) : Truth := a.map (!·)

def Truth.and : Truth → Truth → Truth
  | some false, _ => some false
  | _, some false => some false
  | some true, some true => some true
  | _, _ => none

def Truth.or : Truth → Truth → Truth
  | some true, _ => some true
  | _, some true => some true
  | some false, some false => some false
  | _, _ => none

theorem Truth.and_eq_true {a b : Truth} :
    a.and b = some true ↔ a = some true ∧ b = some true := by
  rcases a with _ | _ | _ <;> rcases b with _ | _ | _ <;> simp [Truth.and]

theorem Truth.or_eq_true {a b : Truth} :
    a.or b = some true ↔ a = some true ∨ b = some true := by
  rcases a with _ | _ | _ <;> rcases b with _ | _ | _ <;> simp [Truth.or]

/-! ## Conditions -/

/-- What a column is compared with. -/
inductive Operand where
  | literal (text : String)
  | parameter
  deriving DecidableEq, Repr

inductive Condition (column : Type) where
  | equals (left : column) (right : Operand)
  | differs (left : column) (right : Operand)
  | like (left : column) (right : Operand)
  | unlike (left : column) (right : Operand)
  | isNull (left : column)
  /-- `left IN (?, …, ?)` -/
  | isIn (left : column) (count : Nat)
  /-- `left NOT IN (?, …, ?)` -/
  | notIn (left : column) (count : Nat)
  /-- `left IN (SELECT selected FROM notes WHERE …)` -/
  | isSelected (left selected : column) (condition : Condition column)
  | notSelected (left selected : column) (condition : Condition column)
  | and (left right : Condition column)
  | or (left right : Condition column)
  deriving DecidableEq, Repr

/-- The cells of a row. -/
abbrev Row (column : Type) := column → Option String

variable {column : Type}

def Operand.holes : Operand → Nat
  | .literal _ => 0
  | .parameter => 1

def Operand.text : Operand → List String → Option String
  | .literal text, _ => some text
  | .parameter, parameters => parameters.head?

/-- The number of parameters of a condition. -/
def Condition.holes : Condition column → Nat
  | .equals _ right | .differs _ right | .like _ right | .unlike _ right => right.holes
  | .isNull _ => 0
  | .isIn _ count | .notIn _ count => count
  | .isSelected _ _ condition | .notSelected _ _ condition => condition.holes
  | .and left right | .or left right => left.holes + right.holes

def compare (test : String → String → Bool) (left right : Option String) : Truth :=
  match left, right with
  | some left, some right => some (test left right)
  | _, _ => none

/-- `left IN (values)` -/
def member (left : Option String) (values : List (Option String)) : Truth :=
  match values, left with
  | [], _ => some false
  | _ :: _, none => none
  | values, some text =>
      if some text ∈ values then some true else if none ∈ values then none else some false

/-- The escape character of the patterns. -/
def backslash : Char := '\\'

def likeText (text pattern : String) : Bool := like backslash text.toList pattern.toList

/-- The truth value of a condition at a row, the rows of the table of subqueries and the
parameters of the condition. -/
def Condition.eval (table : List (Row column)) (row : Row column) :
    Condition column → List String → Truth
  | .equals left right, parameters => compare (· == ·) (row left) (right.text parameters)
  | .differs left right, parameters => compare (· != ·) (row left) (right.text parameters)
  | .like left right, parameters => compare likeText (row left) (right.text parameters)
  | .unlike left right, parameters => (compare likeText (row left) (right.text parameters)).not
  | .isNull left, _ => some (row left).isNone
  | .isIn left _, parameters => member (row left) (parameters.map some)
  | .notIn left _, parameters => (member (row left) (parameters.map some)).not
  | .isSelected left selected condition, parameters =>
      member (row left) ((table.filter fun other =>
        condition.eval table other parameters == some true).map (· selected))
  | .notSelected left selected condition, parameters =>
      (member (row left) ((table.filter fun other =>
        condition.eval table other parameters == some true).map (· selected))).not
  | .and left right, parameters =>
      (left.eval table row (parameters.take left.holes)).and
        (right.eval table row (parameters.drop left.holes))
  | .or left right, parameters =>
      (left.eval table row (parameters.take left.holes)).or
        (right.eval table row (parameters.drop left.holes))

/-! ## Clauses -/

/-- A condition with the parameters it takes. -/
structure Clause (column : Type) where
  condition : Condition column
  parameters : List String
  full : parameters.length = condition.holes

/-- The clause is true at the row. -/
def Clause.Holds (table : List (Row column)) (row : Row column) (clause : Clause column) : Prop :=
  clause.condition.eval table row clause.parameters = some true

instance (table : List (Row column)) (row : Row column) (clause : Clause column) :
    Decidable (clause.Holds table row) := inferInstanceAs (Decidable (_ = _))

def Clause.and (a b : Clause column) : Clause column where
  condition := a.condition.and b.condition
  parameters := a.parameters ++ b.parameters
  full := by rw [List.length_append, a.full, b.full, Condition.holes]

def Clause.or (a b : Clause column) : Clause column where
  condition := a.condition.or b.condition
  parameters := a.parameters ++ b.parameters
  full := by rw [List.length_append, a.full, b.full, Condition.holes]

/-- `" AND ".join(clauses)`; no clause gives no condition. -/
def conjunction : List (Clause column) → Option (Clause column)
  | [] => none
  | clause :: clauses => some (clauses.foldl Clause.and clause)

/-- `" OR ".join(parts)` -/
def disjunction : List (Clause column) → Option (Clause column)
  | [] => none
  | clause :: clauses => some (clauses.foldl Clause.or clause)

section
variable {table : List (Row column)} {row : Row column}

@[simp] theorem Clause.holds_and {a b : Clause column} :
    (a.and b).Holds table row ↔ a.Holds table row ∧ b.Holds table row := by
  rw [Clause.Holds, Clause.and, Condition.eval, ← a.full, List.take_left, List.drop_left,
    Truth.and_eq_true]
  rfl

@[simp] theorem Clause.holds_or {a b : Clause column} :
    (a.or b).Holds table row ↔ a.Holds table row ∨ b.Holds table row := by
  rw [Clause.Holds, Clause.or, Condition.eval, ← a.full, List.take_left, List.drop_left,
    Truth.or_eq_true]
  rfl

theorem holds_foldl_and {clause : Clause column} {clauses : List (Clause column)} :
    (clauses.foldl Clause.and clause).Holds table row ↔
      clause.Holds table row ∧ ∀ other ∈ clauses, other.Holds table row := by
  induction clauses generalizing clause with
  | nil => simp
  | cons other clauses ih =>
      rw [List.foldl_cons, ih, Clause.holds_and, List.forall_mem_cons, and_assoc]

theorem holds_foldl_or {clause : Clause column} {clauses : List (Clause column)} :
    (clauses.foldl Clause.or clause).Holds table row ↔
      clause.Holds table row ∨ ∃ other ∈ clauses, other.Holds table row := by
  induction clauses generalizing clause with
  | nil => simp
  | cons other clauses ih =>
      rw [List.foldl_cons, ih, Clause.holds_or, List.exists_mem_cons_iff, or_assoc]

/-- A conjunction admits the rows at which each of its clauses is true. -/
theorem holds_conjunction {clauses : List (Clause column)} :
    (∀ clause ∈ conjunction clauses, clause.Holds table row) ↔
      ∀ clause ∈ clauses, clause.Holds table row := by
  cases clauses with
  | nil => simp [conjunction]
  | cons clause clauses =>
      simp only [conjunction, Option.mem_def, Option.some.injEq, forall_eq', holds_foldl_and,
        List.forall_mem_cons]

theorem holds_disjunction {clauses : List (Clause column)} :
    (∃ clause ∈ disjunction clauses, clause.Holds table row) ↔
      ∃ clause ∈ clauses, clause.Holds table row := by
  cases clauses with
  | nil => simp [disjunction]
  | cons clause clauses =>
      simp only [disjunction, Option.mem_def, Option.some.injEq, exists_eq_left', holds_foldl_or,
        List.exists_mem_cons_iff]

end

/-! ## Single conditions -/

section
variable {left right : Option String} {test : String → String → Bool}

theorem compare_eq_true : compare test left right = some true ↔
    ∃ a b, left = some a ∧ right = some b ∧ test a b = true := by
  rcases left with _ | a <;> rcases right with _ | b <;> simp [compare]

theorem not_compare_eq_true : (compare test left right).not = some true ↔
    ∃ a b, left = some a ∧ right = some b ∧ test a b = false := by
  rcases left with _ | a <;> rcases right with _ | b <;> simp [compare, Truth.not]

theorem member_eq_true {values : List (Option String)} :
    member left values = some true ↔ ∃ text, left = some text ∧ some text ∈ values := by
  unfold member
  split
  · simp
  · simp
  · rename_i values text _
    split_ifs <;> simp_all

theorem not_member_eq_true {values : List (Option String)} (h : none ∉ values) :
    (member left values).not = some true ↔
      values = [] ∨ ∃ text, left = some text ∧ some text ∉ values := by
  unfold member
  split
  · simp [Truth.not]
  · simp [Truth.not]
  · rename_i hvalues text _
    split_ifs <;> simp_all [Truth.not]

end

end PowerFramework.Lib.Sql
