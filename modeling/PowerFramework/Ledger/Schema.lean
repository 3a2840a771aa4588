import PowerFramework.Lib.JsonRoundTrip
/-!
# Reading validated fields

How the pydantic models read their fields from a dict: required and optional strings,
string lists, positive integers, and no field beyond the declared ones.  The text of a
validation error is cut down to the field it names.
-/

namespace PowerFramework.Ledger

open Lib Lib.Failure Lib.Json

/-- Pydantic's lax reading of an `int` field.  An `int` is read as itself; what a bool, a float
or a numeric string gives is left to the library. -/
class LaxInt where
  ofValue : Value → Option Int
  ofValue_int : ∀ n : Int, ofValue (.int n) = some n

/-- The strict reading, which the lax one extends. -/
abbrev LaxInt.intOnly : LaxInt where
  ofValue
    | .int n => some n
    | _ => none
  ofValue_int _ := rfl

def missingField (field : String) : Exn := ⟨"ValidationError", field ++ ": Field required"⟩

def invalidField (field : String) : Exn := ⟨"ValidationError", field ++ ": invalid value"⟩

/-- A string field that must satisfy `ok`. -/
def strField (d : Dict) (field : String) (ok : String → Bool) : Except Exn String :=
  match d.lookup field with
  | some (.str s) => if ok s then .ok s else .error (invalidField field)
  | some _ => .error (invalidField field)
  | none => .error (missingField field)

/-- A string field with a default, which is not checked. -/
def strFieldD (d : Dict) (field default : String) (ok : String → Bool) : Except Exn String :=
  match d.lookup field with
  | some (.str s) => if ok s then .ok s else .error (invalidField field)
  | some _ => .error (invalidField field)
  | none => .ok default

/-- `str | None`, `None` by default. -/
def optStrField (d : Dict) (field : String) (ok : String → Bool) : Except Exn (Option String) :=
  match d.lookup field with
  | some (.str s) => if ok s then .ok (some s) else .error (invalidField field)
  | some .null => .ok none
  | some _ => .error (invalidField field)
  | none => .ok none

def strOf : Value → Option String
  | .str s => some s
  | _ => none

/-- `list[str]`, empty by default. -/
def strListField (d : Dict) (field : String) : Except Exn (List String) :=
  let read (items : List Value) : Except Exn (List String) :=
    match items.mapM strOf with
    | some texts => .ok texts
    | none => .error (invalidField field)
  match d.lookup field with
  | some (.list items) => read items
  | some (.tuple items) => read items
  | some _ => .error (invalidField field)
  | none => .ok []

/-- `dict[str, Any]`, empty by default. -/
def dictField (d : Dict) (field : String) : Except Exn Dict :=
  match d.lookup field with
  | some (.dict items) => .ok items
  | some _ => .error (invalidField field)
  | none => .ok []

/-- `int` with `ge=1`. -/
def positiveField [LaxInt] (d : Dict) (field : String) (default : Option Nat) :
    Except Exn Nat :=
  match d.lookup field with
  | some value =>
      match LaxInt.ofValue value with
      | some n => if 1 ≤ n then .ok n.toNat else .error (invalidField field)
      | none => .error (invalidField field)
  | none =>
      match default with
      | some n => .ok n
      | none => .error (missingField field)

/-- `extra="forbid"` -/
def noExtras (d : Dict) (fields : List String) : Except Exn PUnit :=
  raiseIf (d.any (·.1 ∉ fields)) (invalidField "extra")

/-- `max_length` -/
def lengthAtMost (n : Nat) (s : String) : Bool := s.toList.length ≤ n

/-- `min_length=1, max_length` -/
def lengthBetween (n : Nat) (s : String) : Bool := 1 ≤ s.toList.length && s.toList.length ≤ n

def optValue : Option String → Value
  | none => .null
  | some s => .str s

def strList (texts : List String) : Value := .list (texts.map .str)

/-- The dict with these items. -/
def dictFrom (items : List (String × Value)) : Dict :=
  items.foldl (fun d item => setItem item.1 item.2 d) []

theorem mapM_strOf (texts : List String) : (texts.map Value.str).mapM strOf = some texts := by
  induction texts with
  | nil => rfl
  | cons s texts ih =>
      rw [List.map_cons, List.mapM_cons, ih]
      rfl

section
variable {d : Dict} {field : String}

theorem strField_of_lookup {s : String} {ok : String → Bool}
    (h : d.lookup field = some (.str s)) (hok : ok s = true) : strField d field ok = .ok s := by
  simp [strField, h, hok]

theorem strField_ok {s : String} {ok : String → Bool} (h : strField d field ok = .ok s) :
    ok s = true := by
  unfold strField at h
  split at h
  · split_ifs at h with hok
    cases h
    exact hok
  · cases h
  · cases h

theorem strFieldD_of_lookup {s default : String} {ok : String → Bool}
    (h : d.lookup field = some (.str s)) (hok : ok s = true) :
    strFieldD d field default ok = .ok s := by
  simp [strFieldD, h, hok]

theorem strFieldD_ok {s default : String} {ok : String → Bool} (hdefault : ok default = true)
    (h : strFieldD d field default ok = .ok s) : ok s = true := by
  unfold strFieldD at h
  split at h
  · split_ifs at h with hok
    cases h
    exact hok
  · cases h
  · cases h
    exact hdefault

theorem optStrField_of_lookup {o : Option String} {ok : String → Bool}
    (h : d.lookup field = some (optValue o)) (hok : ∀ s, o = some s → ok s = true) :
    optStrField d field ok = .ok o := by
  cases o with
  | none => simp [optStrField, h, optValue]
  | some s => simp [optStrField, h, optValue, hok s rfl]

theorem optStrField_ok {o : Option String} {ok : String → Bool}
    (h : optStrField d field ok = .ok o) : ∀ s, o = some s → ok s = true := by
  unfold optStrField at h
  split at h
  · split_ifs at h with hok
    cases h
    rintro s ⟨⟩
    exact hok
  · cases h
    rintro s ⟨⟩
  · cases h
  · cases h
    rintro s ⟨⟩

theorem strListField_of_lookup {l : List String} (h : d.lookup field = some (strList l)) :
    strListField d field = .ok l := by
  simp only [strListField, h, strList, mapM_strOf]

theorem dictField_of_lookup {v : Dict} (h : d.lookup field = some (.dict v)) :
    dictField d field = .ok v := by
  simp [dictField, h]

theorem dictField_ok {items : Dict} (h : dictField d field = .ok items) :
    d.lookup field = some (.dict items) ∨ items = [] := by
  unfold dictField at h
  split at h
  · rename_i heq
    cases h
    exact Or.inl heq
  · cases h
  · cases h
    exact Or.inr rfl

theorem positiveField_of_lookup [LaxInt] {n : Nat} {default : Option Nat}
    (h : d.lookup field = some (.int n)) (hn : 1 ≤ n) : positiveField d field default = .ok n := by
  have hle : (1 : Int) ≤ n := by omega
  simp [positiveField, h, LaxInt.ofValue_int, hle]

theorem positiveField_ok [LaxInt] {n : Nat} {default : Option Nat}
    (hdefault : ∀ m, default = some m → 1 ≤ m) (h : positiveField d field default = .ok n) :
    1 ≤ n := by
  unfold positiveField at h
  split at h
  · split at h
    · split_ifs at h with hle
      cases h
      omega
    · cases h
  · split at h
    · cases h
      exact hdefault n rfl
    · cases h

theorem strField_eq {s x : String} {ok : String → Bool} (h : strField d field ok = .ok s)
    (hx : d.lookup field = some (.str x)) : s = x := by
  simp only [strField, hx] at h
  split_ifs at h
  cases h
  rfl

theorem strFieldD_eq {s x default : String} {ok : String → Bool}
    (h : strFieldD d field default ok = .ok s) (hx : d.lookup field = some (.str x)) : s = x := by
  simp only [strFieldD, hx] at h
  split_ifs at h
  cases h
  rfl

theorem optStrField_eq {o x : Option String} {ok : String → Bool}
    (h : optStrField d field ok = .ok o) (hx : d.lookup field = some (optValue x)) : o = x := by
  cases x with
  | none =>
      simp only [optStrField, hx, optValue] at h
      cases h
      rfl
  | some x =>
      simp only [optStrField, hx, optValue] at h
      split_ifs at h
      cases h
      rfl

theorem strListField_eq {texts x : List String} (h : strListField d field = .ok texts)
    (hx : d.lookup field = some (strList x)) : texts = x := by
  rw [strListField_of_lookup hx] at h
  cases h
  rfl

theorem dictField_eq {items x : Dict} (h : dictField d field = .ok items)
    (hx : d.lookup field = some (.dict x)) : items = x := by
  rw [dictField_of_lookup hx] at h
  cases h
  rfl

theorem positiveField_eq [LaxInt] {n x : Nat} {default : Option Nat}
    (h : positiveField d field default = .ok n) (hx : d.lookup field = some (.int x)) : n = x := by
  simp only [positiveField, hx, LaxInt.ofValue_int] at h
  split_ifs at h
  cases h
  rfl

theorem noExtras_ok {fields : List String} {u : PUnit} :
    noExtras d fields = .ok u ↔ ∀ item ∈ d, item.1 ∈ fields := by
  simp [noExtras]

end

def sortedNames : List String → Bool
  | [] => true
  | name :: names => (names.all fun other => name.toList < other.toList) && sortedNames names

theorem sortedKeys_eq (d : Dict) : sortedKeys d = sortedNames (d.map Prod.fst) := by
  induction d with
  | nil => rfl
  | cons item d ih =>
      rw [sortedKeys, ih, List.map_cons, sortedNames, List.all_map]
      rfl

theorem sortedKeys_dictFrom (items : List (String × Value)) :
    sortedKeys (dictFrom items) = true := by
  have h : ∀ (items : List (String × Value)) (d : Dict), sortedKeys d = true →
      sortedKeys (items.foldl (fun d item => setItem item.1 item.2 d) d) = true := by
    intro items
    induction items with
    | nil => exact fun d hd => hd
    | cons item items ih => exact fun d hd => ih _ (sortedKeys_setItem hd)
  exact h items [] rfl

theorem mem_dictFrom {items : List (String × Value)} {item : String × Value}
    (h : item ∈ dictFrom items) : item ∈ items := by
  have hfold : ∀ (items : List (String × Value)) (d : Dict),
      item ∈ items.foldl (fun d item => setItem item.1 item.2 d) d → item ∈ items ∨ item ∈ d := by
    intro items
    induction items with
    | nil => exact fun d hd => Or.inr hd
    | cons entry items ih =>
        intro d hd
        rcases ih _ hd with hmem | hmem
        · exact Or.inl (List.mem_cons_of_mem _ hmem)
        · rcases mem_setItem hmem with heq | hmem
          · exact Or.inl (by simp [heq])
          · exact Or.inr hmem
  rcases hfold items [] h with hmem | hmem
  · exact hmem
  · cases hmem

theorem lookup_cons (key field : String) (value : Value) (d : Dict) :
    List.lookup field ((key, value) :: d) = if field = key then some value else d.lookup field := by
  rw [List.lookup_cons]
  by_cases h : field = key
  · simp [h]
  · rw [if_neg h, beq_eq_false_iff_ne.mpr h]

theorem lookup_of_mem {d : Dict} (hnodup : (d.map Prod.fst).Nodup) {field : String} {value : Value}
    (h : (field, value) ∈ d) : d.lookup field = some value := by
  induction d with
  | nil => cases h
  | cons item d ih =>
      obtain ⟨key, v⟩ := item
      rw [List.map_cons, List.nodup_cons] at hnodup
      rw [lookup_cons]
      rcases List.mem_cons.mp h with heq | hmem
      · cases heq
        rw [if_pos rfl]
      · have hne : field ≠ key := by
          rintro rfl
          exact hnodup.1 (List.mem_map.mpr ⟨_, hmem, rfl⟩)
        rw [if_neg hne, ih hnodup.2 hmem]

theorem mem_of_lookup {d : Dict} {field : String} {value : Value}
    (h : d.lookup field = some value) : (field, value) ∈ d := by
  induction d with
  | nil => cases h
  | cons item d ih =>
      obtain ⟨key, v⟩ := item
      rw [lookup_cons] at h
      split_ifs at h with heq
      · cases h
        rw [heq]
        exact List.mem_cons_self
      · exact List.mem_cons_of_mem _ (ih h)

theorem lookup_setItem (key field : String) (value : Value) (d : Dict) :
    (setItem key value d).lookup field = if field = key then some value else d.lookup field := by
  induction d with
  | nil => exact lookup_cons key field value []
  | cons entry d ih =>
      obtain ⟨k, v⟩ := entry
      rw [setItem, lookup_cons k]
      by_cases hlt : key.toList < k.toList
      · rw [if_pos hlt, lookup_cons, lookup_cons]
      · rw [if_neg hlt]
        by_cases heq : key = k
        · subst heq
          rw [if_pos rfl, lookup_cons]
          split_ifs <;> rfl
        · rw [if_neg heq, lookup_cons, ih]
          by_cases hkey : field = key
          · subst hkey
            rw [if_neg heq, if_pos rfl, if_pos rfl]
          · rw [if_neg hkey, if_neg hkey]

theorem lookup_foldl_of_notMem {field : String} {items : List (String × Value)}
    (h : field ∉ items.map Prod.fst) (d : Dict) :
    (items.foldl (fun d item => setItem item.1 item.2 d) d).lookup field = d.lookup field := by
  induction items generalizing d with
  | nil => rfl
  | cons item items ih =>
      rw [List.map_cons, List.mem_cons, not_or] at h
      rw [List.foldl_cons, ih h.2, lookup_setItem, if_neg h.1]

/-- Items with distinct keys stand before those of the dict they are put into. -/
theorem lookup_foldl_setItem {items : List (String × Value)} (hnodup : (items.map Prod.fst).Nodup)
    (field : String) (d : Dict) :
    (items.foldl (fun d item => setItem item.1 item.2 d) d).lookup field =
      (items.lookup field).or (d.lookup field) := by
  induction items generalizing d with
  | nil => rfl
  | cons item items ih =>
      obtain ⟨key, value⟩ := item
      rw [List.map_cons, List.nodup_cons] at hnodup
      rw [List.foldl_cons, lookup_cons]
      by_cases heq : field = key
      · subst heq
        rw [lookup_foldl_of_notMem hnodup.1, lookup_setItem, if_pos rfl, if_pos rfl, Option.some_or]
      · rw [ih hnodup.2, lookup_setItem, if_neg heq, if_neg heq]

/-- A dict built from items with distinct keys has each of them. -/
theorem lookup_dictFrom {items : List (String × Value)} (hnodup : (items.map Prod.fst).Nodup)
    {field : String} {value : Value} (h : (field, value) ∈ items) :
    (dictFrom items).lookup field = some value := by
  have hfold : ∀ d : Dict,
      (items.foldl (fun d item => setItem item.1 item.2 d) d).lookup field = some value := by
    induction items with
    | nil => cases h
    | cons item items ih =>
        rw [List.map_cons, List.nodup_cons] at hnodup
        intro d
        rw [List.foldl_cons]
        rcases List.mem_cons.mp h with rfl | hmem
        · rw [lookup_foldl_of_notMem hnodup.1, lookup_setItem, if_pos rfl]
        · exact ih hnodup.2 hmem _
  exact hfold []

end PowerFramework.Ledger
