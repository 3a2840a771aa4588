import Mathlib.Data.List.Nodup
import PowerFramework.Ledger.Schema
import PowerFramework.Lib.PythonValue
/-!
# Models and their fields

A pydantic model is the list of its fields in key order, and an instance the dict of their
values, which is also its dump.  A field reads what it is given; what it has read it reads again
as it is.  An instance survives its JSON text exactly when every field reads the JSON form of its
value back (`validate_asJson`).
-/

namespace PowerFramework.Task

open Lib Lib.Failure Lib.Json Ledger

/-! ## What fields read -/

/-- A field: its default, and the value it takes when it is given one. -/
structure Field where
  name : String
  default : Option Value
  read : Value → Option Value
  read_read : ∀ value value', read value = some value' → read value' = some value'

def readStr (ok : String → Bool) : Value → Option Value
  | .str s => if ok s then some (.str s) else none
  | _ => none

def readOptStr (ok : String → Bool) : Value → Option Value
  | .null => some .null
  | value => readStr ok value

/-- `int` between the bounds. -/
def readInt [LaxInt] (ok : Int → Bool) (value : Value) : Option Value :=
  (LaxInt.ofValue value).bind fun n => if ok n then some (.int n) else none

/-- `list[str]` -/
def readStrList : Value → Option Value
  | .list items => (items.mapM strOf).map strList
  | .tuple items => (items.mapM strOf).map strList
  | _ => none

/-- `dict[str, str]` with values and a size that are accepted.  The dict is built anew. -/
def readStrDict (ok : String → Bool) (sizeOk : Nat → Bool) : Value → Option Value
  | .dict items =>
      let built := dictFrom items
      if built.all (fun item => (strOf item.2).any ok) && sizeOk built.length then
        some (.dict built)
      else none
  | _ => none

/-- `dict[str, Any]` -/
def readDict : Value → Option Value
  | .dict items => some (.dict (dictFrom items))
  | _ => none

def readOptDict : Value → Option Value
  | .null => some .null
  | value => readDict value

theorem readStr_ok {ok : String → Bool} {value value' : Value}
    (h : readStr ok value = some value') : ∃ s, value = .str s ∧ ok s = true ∧ value' = .str s := by
  cases value with
  | str s =>
      rw [readStr] at h
      split_ifs at h with hok
      cases h
      exact ⟨s, rfl, hok, rfl⟩
  | _ => cases h

theorem readOptStr_ok {ok : String → Bool} {value value' : Value}
    (h : readOptStr ok value = some value') :
    value' = value ∧ ∃ o : Option String, value = optValue o ∧ ∀ s, o = some s → ok s = true := by
  unfold readOptStr at h
  split at h
  · cases h
    exact ⟨rfl, none, rfl, by simp⟩
  · obtain ⟨s, rfl, hok, rfl⟩ := readStr_ok h
    refine ⟨rfl, some s, rfl, ?_⟩
    rintro t ⟨⟩
    exact hok

theorem readInt_ok [LaxInt] {ok : Int → Bool} {value value' : Value}
    (h : readInt ok value = some value') : ∃ n, ok n = true ∧ value' = .int n := by
  obtain ⟨n, -, h⟩ := Option.bind_eq_some_iff.mp h
  split_ifs at h with hok
  cases h
  exact ⟨n, hok, rfl⟩

theorem readInt_int [LaxInt] {ok : Int → Bool} {n : Int} (h : ok n = true) :
    readInt ok (.int n) = some (.int n) := by
  rw [readInt, LaxInt.ofValue_int, Option.bind_some, if_pos h]

theorem readStrList_strList (texts : List String) :
    readStrList (strList texts) = some (strList texts) := by
  rw [strList, readStrList, mapM_strOf, Option.map_some, strList]

theorem readStrList_ok {value value' : Value} (h : readStrList value = some value') :
    ∃ texts, value' = strList texts := by
  unfold readStrList at h
  split at h
  · obtain ⟨texts, -, rfl⟩ := Option.map_eq_some_iff.mp h
    exact ⟨texts, rfl⟩
  · obtain ⟨texts, -, rfl⟩ := Option.map_eq_some_iff.mp h
    exact ⟨texts, rfl⟩
  · cases h

theorem foldl_setItem_sorted {front back : Dict} (h : sortedKeys (front ++ back) = true) :
    back.foldl (fun d item => setItem item.1 item.2 d) front = front ++ back := by
  induction back generalizing front with
  | nil => rw [List.append_nil, List.foldl_nil]
  | cons item back ih =>
      have hlt : ∀ item' ∈ front, item'.1.toList < item.1.toList := fun item' hmem =>
        sortedKeys_append h item' hmem item (by simp)
      rw [List.foldl_cons, setItem_of_lt _ hlt, ih (by simpa using h), List.append_assoc]
      rfl

theorem dictFrom_sorted {d : Dict} (h : sortedKeys d = true) : dictFrom d = d :=
  @foldl_setItem_sorted [] d h

theorem readStrDict_ok {ok : String → Bool} {sizeOk : Nat → Bool} {value value' : Value}
    (h : readStrDict ok sizeOk value = some value') :
    ∃ items, value' = .dict items ∧ sortedKeys items = true ∧
      (∀ item ∈ items, (strOf item.2).any ok = true) ∧ sizeOk items.length = true := by
  unfold readStrDict at h
  split at h
  · rename_i items
    dsimp only at h
    split_ifs at h with hok
    cases h
    rw [Bool.and_eq_true, List.all_eq_true] at hok
    exact ⟨dictFrom items, rfl, sortedKeys_dictFrom items, hok⟩
  · cases h

theorem readStrDict_sorted {ok : String → Bool} {sizeOk : Nat → Bool} {items : Dict}
    (hsorted : sortedKeys items = true) (hok : ∀ item ∈ items, (strOf item.2).any ok = true)
    (hsize : sizeOk items.length = true) :
    readStrDict ok sizeOk (.dict items) = some (.dict items) := by
  rw [readStrDict, dictFrom_sorted hsorted]
  exact if_pos (by rw [Bool.and_eq_true, List.all_eq_true]; exact ⟨hok, hsize⟩)

theorem readDict_ok {value value' : Value} (h : readDict value = some value') :
    ∃ items, value' = .dict items ∧ sortedKeys items = true := by
  cases value with
  | dict items =>
      cases h
      exact ⟨dictFrom items, rfl, sortedKeys_dictFrom items⟩
  | _ => cases h

theorem readDict_sorted {items : Dict} (h : sortedKeys items = true) :
    readDict (.dict items) = some (.dict items) := by
  rw [readDict, dictFrom_sorted h]

theorem readOptDict_ok {value value' : Value} (h : readOptDict value = some value') :
    value' = .null ∨ ∃ items, value' = .dict items ∧ sortedKeys items = true := by
  unfold readOptDict at h
  split at h
  · cases h
    exact Or.inl rfl
  · exact Or.inr (readDict_ok h)

/-! The fields of the models, by their types. -/

def Field.str (name : String) (default : Option String) (ok : String → Bool) : Field where
  name := name
  default := default.map .str
  read := readStr ok
  read_read value value' h := by
    obtain ⟨s, rfl, hok, rfl⟩ := readStr_ok h
    rw [readStr, if_pos hok]

/-- `str | None`, `None` by default. -/
def Field.optStr (name : String) (ok : String → Bool) : Field where
  name := name
  default := some .null
  read := readOptStr ok
  read_read value value' h := by
    obtain ⟨rfl, -⟩ := readOptStr_ok h
    exact h

def Field.int [LaxInt] (name : String) (default : Option Int) (ok : Int → Bool) : Field where
  name := name
  default := default.map .int
  read := readInt ok
  read_read value value' h := by
    obtain ⟨n, hok, rfl⟩ := readInt_ok h
    exact readInt_int hok

def Field.strList (name : String) (default : Option (List String)) : Field where
  name := name
  default := default.map Ledger.strList
  read := readStrList
  read_read value value' h := by
    obtain ⟨texts, rfl⟩ := readStrList_ok h
    exact readStrList_strList texts

def Field.strDict (name : String) (default : Option Dict) (ok : String → Bool)
    (sizeOk : Nat → Bool) : Field where
  name := name
  default := default.map .dict
  read := readStrDict ok sizeOk
  read_read value value' h := by
    obtain ⟨items, rfl, hsorted, hok, hsize⟩ := readStrDict_ok h
    exact readStrDict_sorted hsorted hok hsize

def Field.dict (name : String) (default : Option Dict) : Field where
  name := name
  default := default.map .dict
  read := readDict
  read_read value value' h := by
    obtain ⟨items, rfl, hsorted⟩ := readDict_ok h
    exact readDict_sorted hsorted

/-- `dict[str, Any] | None`, `None` by default. -/
def Field.optDict (name : String) : Field where
  name := name
  default := some .null
  read := readOptDict
  read_read value value' h := by
    rcases readOptDict_ok h with rfl | ⟨items, rfl, hsorted⟩
    · rfl
    · exact readDict_sorted hsorted

/-! ## Instances -/

/-- The value a field takes from a dict of arguments. -/
def Field.take (field : Field) (d : Dict) : Except Exn Value :=
  match d.lookup field.name with
  | some value =>
      match field.read value with
      | some value => .ok value
      | none => .error (invalidField field.name)
  | none =>
      match field.default with
      | some value => .ok value
      | none => .error (missingField field.name)

def readFields : List Field → Dict → Except Exn Dict
  | [], _ => .ok []
  | field :: fields, d => do
      let value ← field.take d
      let rest ← readFields fields d
      return (field.name, value) :: rest

/-- `Model.model_validate(value)` -/
def validate (fields : List Field) : Value → Except Exn Dict
  | .dict d => do
      noExtras d (fields.map Field.name)
      readFields fields d
  | _ => .error (invalidField "instance")

theorem names_of_readFields {fields : List Field} {d values : Dict}
    (h : readFields fields d = .ok values) : values.map Prod.fst = fields.map Field.name := by
  induction fields generalizing values with
  | nil =>
      cases h
      rfl
  | cons field fields ih =>
      obtain ⟨value, -, h⟩ := bind_eq_ok.mp h
      obtain ⟨rest, hrest, h⟩ := bind_eq_ok.mp h
      cases h
      rw [List.map_cons, List.map_cons, ih hrest]

theorem validate_ok {fields : List Field} {value : Value} {values : Dict} :
    validate fields value = .ok values ↔ ∃ d, value = .dict d ∧
      (∀ item ∈ d, item.1 ∈ fields.map Field.name) ∧ readFields fields d = .ok values := by
  cases value with
  | dict d =>
      rw [validate, bind_eq_ok]
      constructor
      · rintro ⟨⟨⟩, hextras, h⟩
        exact ⟨d, rfl, noExtras_ok.mp hextras, h⟩
      · rintro ⟨d', heq, hextras, h⟩
        cases heq
        exact ⟨⟨⟩, noExtras_ok.mpr hextras, h⟩
  | _ => simp [validate]

theorem names_of_validate {fields : List Field} {value : Value} {values : Dict}
    (h : validate fields value = .ok values) : values.map Prod.fst = fields.map Field.name := by
  obtain ⟨d, -, -, h⟩ := validate_ok.mp h
  exact names_of_readFields h

/-- Each field of an instance that was read has taken its value from the arguments. -/
theorem lookup_of_readFields {fields : List Field} {d values : Dict}
    (h : readFields fields d = .ok values) (hnodup : (fields.map Field.name).Nodup)
    {field : Field} (hfield : field ∈ fields) :
    ∃ value, values.lookup field.name = some value ∧ field.take d = .ok value := by
  induction fields generalizing values with
  | nil => cases hfield
  | cons head fields ih =>
      obtain ⟨first, hfirst, h⟩ := bind_eq_ok.mp h
      obtain ⟨rest, hrest, h⟩ := bind_eq_ok.mp h
      cases h
      rw [List.map_cons, List.nodup_cons] at hnodup
      rw [lookup_cons]
      rcases List.mem_cons.mp hfield with rfl | hmem
      · exact ⟨first, if_pos rfl, hfirst⟩
      · have hne : field.name ≠ head.name := by
          intro heq
          exact hnodup.1 (heq ▸ List.mem_map_of_mem hmem)
        rw [if_neg hne]
        exact ih hrest hnodup.2 hmem

/-- Each field reads the argument that it is given. -/
theorem read_of_validate {fields : List Field} {d values : Dict}
    (h : validate fields (.dict d) = .ok values) (hnodup : (fields.map Field.name).Nodup)
    {field : Field} (hfield : field ∈ fields) {given : Value}
    (hgiven : d.lookup field.name = some given) :
    field.read given = some (getItem values field.name) := by
  obtain ⟨d', hd, -, hread⟩ := validate_ok.mp h
  cases hd
  obtain ⟨value, hvalue, htake⟩ := lookup_of_readFields hread hnodup hfield
  rw [Field.take, hgiven] at htake
  rw [getItem, hvalue, Option.getD_some]
  dsimp only at htake
  split at htake
  · rename_i hread
    cases htake
    exact hread
  · cases htake

/-- An instance holds the fields' names and values that they read as they are. -/
def Instance (fields : List Field) (values : Dict) : Prop :=
  values.map Prod.fst = fields.map Field.name ∧
    ∀ field ∈ fields, ∀ value, values.lookup field.name = some value →
      field.read value = some value

/-- The defaults of fields do not matter to instances. -/
theorem instance_congr {fields fields' : List Field} {values : Dict}
    (h : fields.map (fun field => (field.name, field.read)) =
      fields'.map fun field => (field.name, field.read)) :
    Instance fields values ↔ Instance fields' values := by
  have hnames : fields.map Field.name = fields'.map Field.name := by
    have hfst := congrArg (List.map Prod.fst) h
    rwa [List.map_map, List.map_map] at hfst
  have hreads : ∀ fields : List Field, (∀ field ∈ fields, ∀ value,
      values.lookup field.name = some value → field.read value = some value) ↔
      ∀ pair : String × (Value → Option Value),
        pair ∈ fields.map (fun field => (field.name, field.read)) →
        ∀ value, values.lookup pair.1 = some value → pair.2 value = some value := by
    intro fields
    simp only [List.mem_map, forall_exists_index, and_imp, forall_apply_eq_imp_iff₂]
  rw [Instance, Instance, hnames, hreads, hreads, h]

theorem Field.take_read {field : Field} {d : Dict} {value : Value}
    (hdefault : ∀ v, field.default = some v → field.read v = some v)
    (h : field.take d = .ok value) : field.read value = some value := by
  unfold Field.take at h
  split at h
  · split at h
    · rename_i given _ taken hread
      cases h
      exact field.read_read _ _ hread
    · cases h
  · split at h
    · rename_i value' hvalue
      cases h
      exact hdefault _ hvalue
    · cases h

/-- Reading arguments makes an instance, when the defaults pass their own fields. -/
theorem instance_of_validate {fields : List Field} {value : Value} {values : Dict}
    (h : validate fields value = .ok values) (hnodup : (fields.map Field.name).Nodup)
    (hdefaults : ∀ field ∈ fields, ∀ v, field.default = some v → field.read v = some v) :
    Instance fields values := by
  obtain ⟨d, -, -, h⟩ := validate_ok.mp h
  refine ⟨names_of_readFields h, fun field hfield value hvalue => ?_⟩
  obtain ⟨value', hvalue', htake⟩ := lookup_of_readFields h hnodup hfield
  rw [hvalue] at hvalue'
  cases hvalue'
  exact Field.take_read (hdefaults field hfield) htake

/-- The arguments with these names are read as the values that the fields read of them. -/
theorem readFields_of {fields : List Field} {d values : Dict}
    (hnames : values.map Prod.fst = fields.map Field.name)
    (hnodup : (fields.map Field.name).Nodup)
    (h : ∀ field ∈ fields, ∀ value, values.lookup field.name = some value →
      field.take d = .ok value) : readFields fields d = .ok values := by
  induction fields generalizing values with
  | nil => rw [readFields, List.map_eq_nil_iff.mp hnames]
  | cons field fields ih =>
      cases values with
      | nil => cases hnames
      | cons item values =>
          obtain ⟨name, value⟩ := item
          rw [List.map_cons, List.map_cons, List.cons.injEq] at hnames
          obtain ⟨rfl, hnames⟩ := hnames
          rw [List.map_cons, List.nodup_cons] at hnodup
          have hhead := h field List.mem_cons_self value (by rw [lookup_cons, if_pos rfl])
          have hrest : readFields fields d = .ok values := by
            apply ih hnames hnodup.2
            intro other hother v hv
            have hne : other.name ≠ field.name := by
              intro heq
              exact hnodup.1 (heq ▸ List.mem_map_of_mem hother)
            exact h other (List.mem_cons_of_mem _ hother) v (by rw [lookup_cons, if_neg hne, hv])
          rw [readFields, hhead, hrest]
          rfl

/-! ## JSON forms -/

/-- The JSON form of a dict in key order. -/
def jsonItems (d : Dict) : Dict := d.map fun item => (item.1, item.2.asJson)

theorem asJsonDict_eq (d : Dict) :
    asJsonDict d = (jsonItems d).map fun item => (some item.1, item.2) := by
  induction d with
  | nil => rfl
  | cons item d ih =>
      rw [asJsonDict, ih]
      rfl

theorem names_jsonItems (d : Dict) : (jsonItems d).map Prod.fst = d.map Prod.fst := by
  rw [jsonItems, List.map_map]
  rfl

theorem asJson_dict {d : Dict} (h : sortedKeys d = true) :
    (Value.dict d).asJson = .dict (jsonItems d) := by
  have hsorted : sortedKeys (jsonItems d) = true := by
    rwa [sortedKeys_eq, names_jsonItems, ← sortedKeys_eq]
  rw [Value.asJson, asJsonDict_eq, dictValue, dictOf_sorted hsorted]
  rfl

theorem lookup_jsonItems (d : Dict) (name : String) :
    (jsonItems d).lookup name = (d.lookup name).map Value.asJson := by
  induction d with
  | nil => rfl
  | cons item d ih =>
      rw [jsonItems, List.map_cons, lookup_cons, ← jsonItems, ih, lookup_cons]
      split_ifs <;> rfl

theorem asJson_optValue (o : Option String) : (optValue o).asJson = optValue o := by
  cases o <;> rfl

theorem asJsonList_map_str (texts : List String) :
    asJsonList (texts.map Value.str) = texts.map Value.str := by
  induction texts with
  | nil => rfl
  | cons s texts ih => rw [List.map_cons, asJsonList, ih, Value.asJson]

theorem asJson_strList (texts : List String) : (strList texts).asJson = strList texts := by
  rw [strList, Value.asJson, asJsonList_map_str]

/-- A dict of strings in key order is its own JSON form. -/
theorem asJson_strDict {items : Dict} (hsorted : sortedKeys items = true)
    (h : ∀ item ∈ items, ∃ s, item.2 = .str s) : (Value.dict items).asJson = .dict items := by
  have hsame : jsonItems items = items := by
    calc jsonItems items = items.map id := by
          apply List.map_congr_left
          intro item hitem
          obtain ⟨name, value⟩ := item
          obtain ⟨s, rfl⟩ := h _ hitem
          rfl
      _ = items := List.map_id items
  rw [asJson_dict hsorted, hsame]

/-- A field whose values are their own JSON forms. -/
def Field.Stable (field : Field) : Prop :=
  ∀ value value', field.read value = some value' → value'.asJson = value'

theorem stable_str (name : String) (default : Option String) (ok : String → Bool) :
    (Field.str name default ok).Stable := by
  intro value value' h
  obtain ⟨s, -, -, rfl⟩ := readStr_ok h
  rfl

theorem stable_optStr (name : String) (ok : String → Bool) : (Field.optStr name ok).Stable := by
  intro value value' h
  obtain ⟨rfl, o, rfl, -⟩ := readOptStr_ok h
  exact asJson_optValue o

theorem stable_int [LaxInt] (name : String) (default : Option Int) (ok : Int → Bool) :
    (Field.int name default ok).Stable := by
  intro value value' h
  obtain ⟨n, -, rfl⟩ := readInt_ok h
  rfl

theorem stable_strList (name : String) (default : Option (List String)) :
    (Field.strList name default).Stable := by
  intro value value' h
  obtain ⟨texts, rfl⟩ := readStrList_ok h
  exact asJson_strList texts

theorem stable_strDict (name : String) (default : Option Dict) (ok : String → Bool)
    (sizeOk : Nat → Bool) : (Field.strDict name default ok sizeOk).Stable := by
  intro value value' h
  obtain ⟨items, rfl, hsorted, hok, -⟩ := readStrDict_ok h
  apply asJson_strDict hsorted
  intro item hitem
  have hstr := hok item hitem
  cases hvalue : item.2 with
  | str s => exact ⟨s, rfl⟩
  | _ => simp [hvalue, strOf] at hstr

/-- A field of a dict takes the JSON form of its value for nothing but that value. -/
def Field.Faithful (field : Field) : Prop :=
  ∀ value, field.read value = some value → field.read value.asJson = some value →
    value.asJson = value

theorem Field.Stable.faithful {field : Field} (h : field.Stable) : field.Faithful :=
  fun value hread _ => h value value hread

theorem faithful_optDict (name : String) : (Field.optDict name).Faithful := by
  intro value hread hjson
  rcases readOptDict_ok hread with rfl | ⟨items, rfl, hsorted⟩
  · rfl
  · have hnames : sortedKeys (jsonItems items) = true := by
      rwa [sortedKeys_eq, names_jsonItems, ← sortedKeys_eq]
    rw [asJson_dict hsorted] at hjson ⊢
    exact Option.some.inj ((readDict_sorted hnames).symm.trans hjson)

theorem faithful_dict (name : String) (default : Option Dict) :
    (Field.dict name default).Faithful := by
  intro value hread hjson
  obtain ⟨items, rfl, hsorted⟩ := readDict_ok hread
  have hnames : sortedKeys (jsonItems items) = true := by
    rwa [sortedKeys_eq, names_jsonItems, ← sortedKeys_eq]
  rw [asJson_dict hsorted] at hjson ⊢
  exact Option.some.inj ((readDict_sorted hnames).symm.trans hjson)

/-- A field that reads a JSON value as one that is its own JSON form. -/
def Field.KeepsJson (field : Field) : Prop :=
  (∀ value, field.default = some value → value.asJson = value) ∧
    ∀ value value', field.read value = some value' → Plain value → value.asJson = value →
      value'.asJson = value'

theorem keepsJson_dict (name : String) {default : Option Dict}
    (hdefault : ∀ d, default = some d → (Value.dict d).asJson = .dict d) :
    (Field.dict name default).KeepsJson := by
  constructor
  · intro value hvalue
    obtain ⟨d, hd, rfl⟩ := Option.map_eq_some_iff.mp hvalue
    exact hdefault d hd
  · intro value value' hread hplain hjson
    change readDict value = some value' at hread
    cases value with
    | dict items =>
        rw [readDict_sorted (plain_dict.mp hplain).1] at hread
        cases hread
        exact hjson
    | _ => cases hread

theorem keepsJson_optDict (name : String) : (Field.optDict name).KeepsJson := by
  constructor
  · rintro value ⟨⟩
    rfl
  · intro value value' hread hplain hjson
    change readOptDict value = some value' at hread
    unfold readOptDict at hread
    split at hread
    · cases hread
      rfl
    · exact (keepsJson_dict name (by rintro d ⟨⟩) : (Field.dict name none).KeepsJson).2 value value'
        hread hplain hjson

/-- What a field has read of a JSON text is its own JSON form. -/
theorem asJson_of_read {fields : List Field} {text : List Char} {value : Value} {values : Dict}
    (hloads : loads text = some value) (hvalid : validate fields value = .ok values)
    (hnodup : (fields.map Field.name).Nodup) {field : Field} (hfield : field ∈ fields)
    (hkeeps : field.KeepsJson) :
    (getItem values field.name).asJson = getItem values field.name := by
  obtain ⟨d, rfl, -, hread⟩ := validate_ok.mp hvalid
  obtain ⟨taken, htaken, htake⟩ := lookup_of_readFields hread hnodup hfield
  rw [getItem, htaken, Option.getD_some]
  unfold Field.take at htake
  split at htake
  · rename_i given hgiven
    have hmem := mem_of_lookup hgiven
    split at htake
    · rename_i hread
      cases htake
      exact hkeeps.2 given _ hread ((plain_dict.mp (plain_of_loads hloads)).2 _ hmem)
        (asJson_item_of_loads hloads hmem)
    · cases htake
  · split at htake
    · rename_i hdefault
      cases htake
      exact hkeeps.1 _ hdefault
    · cases htake

theorem nodup_of_sorted {names : List String} (h : sortedNames names = true) : names.Nodup := by
  induction names with
  | nil => exact List.nodup_nil
  | cons name names ih =>
      simp only [sortedNames, Bool.and_eq_true, List.all_eq_true, decide_eq_true_eq] at h
      rw [List.nodup_cons]
      exact ⟨fun hmem => lt_irrefl _ (h.1 name hmem), ih h.2⟩

theorem exists_lookup {d : Dict} {name : String} (h : name ∈ d.map Prod.fst) :
    ∃ value, d.lookup name = some value := by
  induction d with
  | nil => cases h
  | cons item d ih =>
      obtain ⟨key, value⟩ := item
      rw [lookup_cons]
      by_cases heq : name = key
      · exact ⟨value, if_pos heq⟩
      · rw [if_neg heq]
        rw [List.map_cons, List.mem_cons] at h
        exact ih (h.resolve_left heq)

section
variable {fields : List Field} (hsorted : sortedNames (fields.map Field.name) = true)
include hsorted

/-- Values are read back from their JSON form when every field reads the form of its own. -/
theorem validate_asJson {values : Dict} (hnames : values.map Prod.fst = fields.map Field.name) :
    validate fields (Value.dict values).asJson = .ok values ↔
      ∀ field ∈ fields, ∀ value, values.lookup field.name = some value →
        field.read value.asJson = some value := by
  have hkeys : sortedKeys values = true := by rwa [sortedKeys_eq, hnames]
  have hnodup := nodup_of_sorted hsorted
  rw [asJson_dict hkeys, validate_ok]
  constructor
  · rintro ⟨d, heq, -, h⟩ field hfield value hvalue
    cases heq
    obtain ⟨value', hvalue', htake⟩ := lookup_of_readFields h hnodup hfield
    rw [hvalue] at hvalue'
    cases hvalue'
    rw [Field.take, lookup_jsonItems, hvalue] at htake
    simp only [Option.map_some] at htake
    split at htake
    · rename_i read hread
      cases htake
      exact hread
    · cases htake
  · intro h
    refine ⟨_, rfl, fun item hitem => ?_, readFields_of hnames hnodup fun field hfield value hvalue => ?_⟩
    · rw [← hnames, ← names_jsonItems]
      exact List.mem_map_of_mem hitem
    · rw [Field.take, lookup_jsonItems, hvalue, Option.map_some]
      simp only [h field hfield value hvalue]

/-- An instance is read back from its JSON form when no value has another JSON form. -/
theorem Instance.validate_asJson {values : Dict} (h : Instance fields values)
    (hfaithful : ∀ field ∈ fields, field.Faithful) :
    validate fields (Value.dict values).asJson = .ok values ↔
      ∀ field ∈ fields, ∀ value, values.lookup field.name = some value → value.asJson = value := by
  rw [Task.validate_asJson hsorted h.1]
  refine forall₄_congr fun field hfield value hvalue => ?_
  have hread := h.2 field hfield value hvalue
  constructor
  · exact hfaithful field hfield value hread
  · intro hjson
    rw [hjson, hread]

/-- An instance whose only unstable field is the one named is read back when that one's value
has no other JSON form. -/
theorem Instance.validate_asJson_at {values : Dict} (h : Instance fields values) {special : Field}
    (hspecial : special ∈ fields) (hfaithful : special.Faithful)
    (hstable : ∀ field ∈ fields, field.Stable ∨ field = special) :
    validate fields (Value.dict values).asJson = .ok values ↔
      ∀ value, values.lookup special.name = some value → value.asJson = value := by
  rw [h.validate_asJson hsorted]
  · constructor
    · exact fun hall value => hall special hspecial value
    · intro hvalue field hfield value hlookup
      rcases hstable field hfield with hstab | rfl
      · exact hstab value value (h.2 field hfield value hlookup)
      · exact hvalue value hlookup
  · intro field hfield
    rcases hstable field hfield with hstab | rfl
    · exact hstab.faithful
    · exact hfaithful

end

section
variable {fields : List Field} {values : Dict}

/-- Every field of an instance has a value. -/
theorem Instance.exists_lookup (h : Instance fields values) {field : Field}
    (hfield : field ∈ fields) : ∃ value, values.lookup field.name = some value := by
  apply Task.exists_lookup
  rw [h.1]
  exact List.mem_map_of_mem hfield

/-- A field reads the value that an instance holds for it. -/
theorem Instance.read_getItem (h : Instance fields values) {field : Field}
    (hfield : field ∈ fields) :
    field.read (getItem values field.name) = some (getItem values field.name) := by
  obtain ⟨value, hvalue⟩ := h.exists_lookup hfield
  rw [getItem, hvalue]
  exact h.2 field hfield value hvalue

/-- An instance holds what its fields read. -/
theorem instance_iff (hnames : values.map Prod.fst = fields.map Field.name) :
    Instance fields values ↔
      ∀ field ∈ fields, field.read (getItem values field.name) = some (getItem values field.name) := by
  have hlookup : ∀ field ∈ fields, ∃ value, values.lookup field.name = some value := by
    intro field hfield
    apply Task.exists_lookup
    rw [hnames]
    exact List.mem_map_of_mem hfield
  constructor
  · exact fun h field hfield => h.read_getItem hfield
  · intro h
    refine ⟨hnames, fun field hfield value hvalue => ?_⟩
    have hread := h field hfield
    rwa [getItem, hvalue, Option.getD_some] at hread

end

theorem getItem_setItem (key field : String) (value : Value) (d : Dict) :
    getItem (setItem key value d) field = if field = key then value else getItem d field := by
  rw [getItem, lookup_setItem, getItem]
  split_ifs <;> rfl

/-- An item that is there is replaced in its place. -/
theorem names_setItem {key : String} {value : Value} {d : Dict} (hsorted : sortedKeys d = true)
    (h : key ∈ d.map Prod.fst) : (setItem key value d).map Prod.fst = d.map Prod.fst := by
  induction d with
  | nil => cases h
  | cons item d ih =>
      obtain ⟨k, v⟩ := item
      rw [sortedKeys_eq, List.map_cons, sortedNames, Bool.and_eq_true, List.all_eq_true,
        ← sortedKeys_eq] at hsorted
      rw [setItem]
      by_cases heq : key = k
      · subst heq
        rw [if_neg (lt_irrefl _), if_pos rfl]
        rfl
      · have hmem : key ∈ d.map Prod.fst := by
          rw [List.map_cons, List.mem_cons] at h
          exact h.resolve_left heq
        have hlt : k.toList < key.toList := by simpa using hsorted.1 key hmem
        rw [if_neg (lt_asymm hlt), if_neg heq, List.map_cons, List.map_cons, ih hsorted.2 hmem]

section
variable {fields : List Field} (hsorted : sortedNames (fields.map Field.name) = true)
  {values : Dict}
include hsorted

/-- A field set to a value that it reads. -/
theorem Instance.setItem (h : Instance fields values) (field : Field) (value : Value)
    (hfield : field ∈ fields) (hread : field.read value = some value) :
    Instance fields (setItem field.name value values) := by
  have hkeys : sortedKeys values = true := by rwa [sortedKeys_eq, h.1]
  have hmem : field.name ∈ values.map Prod.fst := by
    rw [h.1]
    exact List.mem_map_of_mem hfield
  refine ⟨by rw [names_setItem hkeys hmem, h.1], fun other hother v hv => ?_⟩
  rw [lookup_setItem] at hv
  split_ifs at hv with heq
  · cases hv
    rwa [List.inj_on_of_nodup_map (nodup_of_sorted hsorted) hother hfield heq]
  · exact h.2 other hother v hv

end

end PowerFramework.Task
