import PowerFramework.Ledger.Schema
import PowerFramework.Lib.PythonValue
import PowerFramework.Lib.SortedSet
/-!
# Records

An instance of a pydantic model as the values of its fields, listed in key order, each of which
passes its field's check.  `model_validate` accepts a dict when every field accepts what the dict
gives it, or has a default; what a record holds is accepted again.
-/

namespace PowerFramework.State

open Lib Lib.Failure Lib.Json Ledger

/-- A field of a model: the value it takes when none is given, and the values it accepts.  The
default passes the field's own check. -/
structure Field where
  name : String
  default : Option Value
  ok : Value → Bool
  default_ok : ∀ value, default = some value → ok value = true

/-- What the field accepts from a dict of arguments. -/
def Field.accepts (field : Field) (d : Dict) : Bool :=
  match d.lookup field.name with
  | some value => field.ok value
  | none => field.default.isSome

def Field.readFrom (field : Field) (d : Dict) : Except Exn Value :=
  match d.lookup field.name with
  | some value => if field.ok value then .ok value else .error (invalidField field.name)
  | none =>
      match field.default with
      | some value => .ok value
      | none => .error (missingField field.name)

/-- The values of the fields in a dict of arguments. -/
def readFields : List Field → Dict → Except Exn Dict
  | [], _ => .ok []
  | field :: fields, d => do
      let value ← field.readFrom d
      let rest ← readFields fields d
      return (field.name, value) :: rest

/-- The items are those of the fields, in their order, with values that the fields accept. -/
def fits : List Field → Dict → Bool
  | [], [] => true
  | field :: fields, item :: items => item.1 == field.name && field.ok item.2 && fits fields items
  | _, _ => false

structure Record (fields : List Field) where
  values : Dict
  fitting : fits fields values = true

@[ext] theorem Record.ext {fields : List Field} {a b : Record fields} (h : a.values = b.values) :
    a = b := by
  cases a
  cases b
  cases h
  rfl

theorem Field.readFrom_ok {field : Field} {d : Dict} {value : Value}
    (h : field.readFrom d = .ok value) : field.ok value = true := by
  unfold Field.readFrom at h
  split at h
  · split_ifs at h with hok
    cases h
    exact hok
  · split at h
    · rename_i default hdefault
      cases h
      exact field.default_ok _ hdefault
    · cases h

theorem fits_of_readFields {fields : List Field} {d values : Dict}
    (h : readFields fields d = .ok values) : fits fields values = true := by
  induction fields generalizing values with
  | nil =>
      cases h
      rfl
  | cons field fields ih =>
      obtain ⟨value, hvalue, h⟩ := bind_eq_ok.mp h
      obtain ⟨rest, hrest, h⟩ := bind_eq_ok.mp h
      cases h
      simp only [fits, Field.readFrom_ok hvalue, ih hrest, beq_self_eq_true, Bool.and_true]

/-- `Model.model_validate(d)` -/
def Record.modelValidate (fields : List Field) (d : Dict) : Except Exn (Record fields) := do
  noExtras d (fields.map Field.name)
  match h : readFields fields d with
  | .ok values => return ⟨values, fits_of_readFields h⟩
  | .error exn => .error exn

section
variable {fields : List Field}

/-- `record.field` -/
def Record.get (record : Record fields) (name : String) : Value := getItem record.values name

/-- `record.field` of a string field. -/
def Record.text (record : Record fields) (name : String) : String :=
  match record.get name with
  | .str s => s
  | _ => ""

/-- `record.model_dump()` -/
def Record.modelDump (record : Record fields) : Value := .dict record.values

theorem Record.modelValidate_ok {d : Dict} {record : Record fields} :
    Record.modelValidate fields d = .ok record ↔
      (∀ item ∈ d, item.1 ∈ fields.map Field.name) ∧ readFields fields d = .ok record.values := by
  unfold Record.modelValidate
  rw [bind_eq_ok]
  constructor
  · rintro ⟨u, hextras, h⟩
    refine ⟨noExtras_ok.mp hextras, ?_⟩
    split at h
    · rename_i values hread
      cases h
      exact hread
    · cases h
  · rintro ⟨hextras, hread⟩
    refine ⟨⟨⟩, noExtras_ok.mpr hextras, ?_⟩
    split
    · rename_i values hread'
      rw [hread] at hread'
      cases hread'
      rfl
    · rename_i exn hread'
      rw [hread] at hread'
      cases hread'

theorem Field.readFrom_isOk {field : Field} {d : Dict} :
    (∃ value, field.readFrom d = .ok value) ↔ field.accepts d = true := by
  unfold Field.readFrom Field.accepts
  cases d.lookup field.name with
  | some value => by_cases hok : field.ok value = true <;> simp [hok]
  | none => cases field.default <;> simp

theorem readFields_isOk {d : Dict} :
    (∃ values, readFields fields d = .ok values) ↔ ∀ field ∈ fields, field.accepts d = true := by
  induction fields with
  | nil => simp [readFields]
  | cons field fields ih =>
      rw [List.forall_mem_cons, ← ih, ← Field.readFrom_isOk]
      constructor
      · rintro ⟨values, h⟩
        obtain ⟨value, hvalue, h⟩ := bind_eq_ok.mp h
        obtain ⟨rest, hrest, -⟩ := bind_eq_ok.mp h
        exact ⟨⟨value, hvalue⟩, rest, hrest⟩
      · rintro ⟨⟨value, hvalue⟩, rest, hrest⟩
        exact ⟨_, bind_eq_ok.mpr ⟨value, hvalue, bind_eq_ok.mpr ⟨rest, hrest, rfl⟩⟩⟩

/-- A dict builds a record when it names no other field and every field accepts it. -/
theorem Record.modelValidate_isOk {d : Dict} :
    (∃ record, Record.modelValidate fields d = .ok record) ↔
      (∀ item ∈ d, item.1 ∈ fields.map Field.name) ∧ ∀ field ∈ fields, field.accepts d = true := by
  rw [← readFields_isOk]
  constructor
  · rintro ⟨record, h⟩
    obtain ⟨hextras, hread⟩ := Record.modelValidate_ok.mp h
    exact ⟨hextras, record.values, hread⟩
  · rintro ⟨hextras, values, hread⟩
    exact ⟨⟨values, fits_of_readFields hread⟩, Record.modelValidate_ok.mpr ⟨hextras, hread⟩⟩

theorem fits_cons {field : Field} {values : Dict} (h : fits (field :: fields) values = true) :
    ∃ value rest, values = (field.name, value) :: rest ∧ field.ok value = true ∧
      fits fields rest = true := by
  cases values with
  | nil => cases h
  | cons item rest =>
      obtain ⟨name, value⟩ := item
      simp only [fits, Bool.and_eq_true, beq_iff_eq] at h
      obtain ⟨⟨rfl, hok⟩, hrest⟩ := h
      exact ⟨value, rest, rfl, hok, hrest⟩

theorem fits_nil {values : Dict} (h : fits [] values = true) : values = [] := by
  cases values
  · rfl
  · cases h

theorem names_of_fits {values : Dict} (h : fits fields values = true) :
    values.map Prod.fst = fields.map Field.name := by
  induction fields generalizing values with
  | nil => rw [fits_nil h, List.map_nil, List.map_nil]
  | cons field fields ih =>
      obtain ⟨value, rest, rfl, -, hrest⟩ := fits_cons h
      rw [List.map_cons, List.map_cons, ih hrest]

/-- Every field of a record has a value that it accepts. -/
theorem lookup_of_fits {values : Dict} (h : fits fields values = true)
    (hnodup : (fields.map Field.name).Nodup) {field : Field} (hfield : field ∈ fields) :
    ∃ value, values.lookup field.name = some value ∧ field.ok value = true := by
  induction fields generalizing values with
  | nil => cases hfield
  | cons head fields ih =>
      obtain ⟨value, rest, rfl, hok, hrest⟩ := fits_cons h
      rw [List.map_cons, List.nodup_cons] at hnodup
      rw [lookup_cons]
      rcases List.mem_cons.mp hfield with rfl | hmem
      · exact ⟨value, if_pos rfl, hok⟩
      · have hne : field.name ≠ head.name := by
          intro heq
          exact hnodup.1 (heq ▸ List.mem_map_of_mem hmem)
        rw [if_neg hne]
        exact ih hrest hnodup.2 hmem

theorem Record.get_ok (record : Record fields) (hnodup : (fields.map Field.name).Nodup)
    {field : Field} (hfield : field ∈ fields) : field.ok (record.get field.name) = true := by
  obtain ⟨value, hvalue, hok⟩ := lookup_of_fits record.fitting hnodup hfield
  rwa [Record.get, getItem, hvalue]

/-- A field that the arguments give has the given value. -/
theorem readFields_lookup {d values : Dict} (h : readFields fields d = .ok values)
    (hnodup : (fields.map Field.name).Nodup) {field : Field} (hfield : field ∈ fields)
    {value : Value} (hvalue : d.lookup field.name = some value) :
    values.lookup field.name = some value := by
  induction fields generalizing values with
  | nil => cases hfield
  | cons head fields ih =>
      obtain ⟨first, hfirst, h⟩ := bind_eq_ok.mp h
      obtain ⟨rest, hrest, h⟩ := bind_eq_ok.mp h
      cases h
      rw [List.map_cons, List.nodup_cons] at hnodup
      rw [lookup_cons]
      rcases List.mem_cons.mp hfield with rfl | hmem
      · rw [if_pos rfl]
        unfold Field.readFrom at hfirst
        rw [hvalue] at hfirst
        simp only at hfirst
        split_ifs at hfirst
        exact congrArg some (Except.ok.inj hfirst).symm
      · have hne : field.name ≠ head.name := by
          intro heq
          exact hnodup.1 (heq ▸ List.mem_map_of_mem hmem)
        rw [if_neg hne]
        exact ih hrest hnodup.2 hmem

/-- A field that the arguments leave out has its default. -/
theorem readFields_lookup_default {d values : Dict} (h : readFields fields d = .ok values)
    (hnodup : (fields.map Field.name).Nodup) {field : Field} (hfield : field ∈ fields)
    (hnone : d.lookup field.name = none) : values.lookup field.name = field.default := by
  induction fields generalizing values with
  | nil => cases hfield
  | cons head fields ih =>
      obtain ⟨first, hfirst, h⟩ := bind_eq_ok.mp h
      obtain ⟨rest, hrest, h⟩ := bind_eq_ok.mp h
      cases h
      rw [List.map_cons, List.nodup_cons] at hnodup
      rw [lookup_cons]
      rcases List.mem_cons.mp hfield with rfl | hmem
      · rw [if_pos rfl]
        unfold Field.readFrom at hfirst
        rw [hnone] at hfirst
        cases hdefault : field.default with
        | none =>
            rw [hdefault] at hfirst
            cases hfirst
        | some value =>
            rw [hdefault] at hfirst
            exact congrArg some (Except.ok.inj hfirst).symm
      · have hne : field.name ≠ head.name := by
          intro heq
          exact hnodup.1 (heq ▸ List.mem_map_of_mem hmem)
        rw [if_neg hne]
        exact ih hrest hnodup.2 hmem

theorem Record.get_of_modelValidate {d : Dict} {record : Record fields}
    (h : Record.modelValidate fields d = .ok record) (hnodup : (fields.map Field.name).Nodup)
    {field : Field} (hfield : field ∈ fields) {value : Value}
    (hvalue : d.lookup field.name = some value) : record.get field.name = value := by
  rw [Record.get, getItem,
    readFields_lookup (Record.modelValidate_ok.mp h).2 hnodup hfield hvalue]
  rfl

end

end PowerFramework.State
