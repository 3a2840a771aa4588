import PowerFramework.Task.JournalFile
/-!
# Strings without line boundaries

No character that a task holds can break the line of an event when none of those it was made of
can: fields keep or drop the strings they are given.
-/

namespace PowerFramework.Task

open Lib Lib.Failure Lib.Json Ledger

def UnbrokenText (s : String) : Prop := ∀ c ∈ s.toList, breaksLine c = false

/-- No string inside the value breaks a line. -/
def Unbroken (value : Value) : Prop := ∀ c ∈ value.chars, breaksLine c = false

theorem unbroken_str {s : String} : Unbroken (.str s) ↔ UnbrokenText s := Iff.rfl

theorem unbroken_dict {items : Dict} :
    Unbroken (.dict items) ↔ ∀ item ∈ items, UnbrokenText item.1 ∧ Unbroken item.2 := by
  induction items with
  | nil => simp [Unbroken, Value.chars, charsDict]
  | cons item items ih =>
      obtain ⟨key, value⟩ := item
      rw [List.forall_mem_cons, ← ih]
      simp only [Unbroken, UnbrokenText, Value.chars, charsDict, List.forall_mem_append, and_assoc]

theorem unbroken_list {items : List Value} :
    Unbroken (.list items) ↔ ∀ item ∈ items, Unbroken item := by
  induction items with
  | nil => simp [Unbroken, Value.chars, charsList]
  | cons value items ih =>
      rw [List.forall_mem_cons, ← ih]
      simp only [Unbroken, Value.chars, charsList, List.forall_mem_append]

theorem unbroken_tuple {items : List Value} : Unbroken (.tuple items) ↔ Unbroken (.list items) :=
  Iff.rfl

theorem unbroken_optValue {o : Option String} :
    Unbroken (optValue o) ↔ ∀ s, o = some s → UnbrokenText s := by
  cases o with
  | none => simp [Unbroken, optValue, Value.chars]
  | some s => simp [optValue, unbroken_str]

theorem unbroken_strList {texts : List String} :
    Unbroken (strList texts) ↔ ∀ s ∈ texts, UnbrokenText s := by
  rw [strList, unbroken_list]
  simp [unbroken_str]

theorem unbroken_setItem {key : String} {value : Value} {d : Dict} (hd : Unbroken (.dict d))
    (hkey : UnbrokenText key) (hvalue : Unbroken value) :
    Unbroken (.dict (setItem key value d)) := by
  rw [unbroken_dict] at hd ⊢
  intro item hitem
  rcases mem_setItem hitem with rfl | hmem
  · exact ⟨hkey, hvalue⟩
  · exact hd item hmem

theorem unbroken_foldl {items d : Dict} (hd : Unbroken (.dict d)) (hitems : Unbroken (.dict items)) :
    Unbroken (.dict (items.foldl (fun d item => setItem item.1 item.2 d) d)) := by
  induction items generalizing d with
  | nil => exact hd
  | cons item items ih =>
      rw [unbroken_dict, List.forall_mem_cons, ← unbroken_dict] at hitems
      exact ih (unbroken_setItem hd hitems.1.1 hitems.1.2) hitems.2

theorem unbroken_dictFrom {items : Dict} (h : Unbroken (.dict items)) :
    Unbroken (.dict (dictFrom items)) :=
  unbroken_foldl (by simp [Unbroken, Value.chars, charsDict]) h

theorem unbroken_getItem {d : Dict} (h : Unbroken (.dict d)) (name : String) :
    Unbroken (getItem d name) := by
  cases hvalue : d.lookup name with
  | none =>
      rw [getItem, hvalue]
      simp [Unbroken, Value.chars]
  | some value =>
      rw [getItem, hvalue]
      exact (unbroken_dict.mp h _ (mem_of_lookup hvalue)).2

/-- A field that adds no character that breaks lines. -/
structure Field.Unbreaking (field : Field) : Prop where
  label : UnbrokenText field.name
  initial : ∀ value, field.default = some value → Unbroken value
  keeps : ∀ value value', field.read value = some value' → Unbroken value → Unbroken value'

theorem unbroken_null : Unbroken .null := by simp [Unbroken, Value.chars]

theorem unbroken_int (n : Int) : Unbroken (.int n) := by simp [Unbroken, Value.chars]

theorem unbreaking_str {name : String} {default : Option String} {ok : String → Bool}
    (hname : UnbrokenText name) (hdefault : ∀ s, default = some s → UnbrokenText s) :
    (Field.str name default ok).Unbreaking := by
  refine ⟨hname, fun value hvalue => ?_, fun value value' hread hvalue => ?_⟩
  · obtain ⟨s, hs, rfl⟩ := Option.map_eq_some_iff.mp hvalue
    exact hdefault s hs
  · obtain ⟨s, rfl, -, rfl⟩ := readStr_ok hread
    exact hvalue

theorem unbreaking_optStr {name : String} {ok : String → Bool} (hname : UnbrokenText name) :
    (Field.optStr name ok).Unbreaking := by
  refine ⟨hname, ?_, fun value value' hread hvalue => ?_⟩
  · rintro value ⟨⟩
    exact unbroken_null
  · obtain ⟨rfl, -⟩ := readOptStr_ok hread
    exact hvalue

theorem unbreaking_int [LaxInt] {name : String} {default : Option Int} {ok : Int → Bool}
    (hname : UnbrokenText name) : (Field.int name default ok).Unbreaking := by
  refine ⟨hname, fun value hvalue => ?_, fun value value' hread _ => ?_⟩
  · obtain ⟨n, -, rfl⟩ := Option.map_eq_some_iff.mp hvalue
    exact unbroken_int n
  · obtain ⟨n, -, rfl⟩ := readInt_ok hread
    exact unbroken_int n

theorem unbreaking_strList {name : String} {default : Option (List String)}
    (hname : UnbrokenText name)
    (hdefault : ∀ texts, default = some texts → ∀ s ∈ texts, UnbrokenText s) :
    (Field.strList name default).Unbreaking := by
  refine ⟨hname, fun value hvalue => ?_, fun value value' hread hvalue => ?_⟩
  · obtain ⟨texts, htexts, rfl⟩ := Option.map_eq_some_iff.mp hvalue
    exact unbroken_strList.mpr (hdefault texts htexts)
  · have hitems : ∀ {items : List Value} {texts : List String}, items.mapM strOf = some texts →
        items = texts.map Value.str := by
      intro items texts hmap
      induction items generalizing texts with
      | nil =>
          cases hmap
          rfl
      | cons item items ih =>
          rw [List.mapM_cons] at hmap
          obtain ⟨s, hs, hmap⟩ := Option.bind_eq_some_iff.mp hmap
          obtain ⟨rest, hrest, hmap⟩ := Option.bind_eq_some_iff.mp hmap
          cases hmap
          cases item with
          | str s' =>
              cases hs
              rw [List.map_cons, ih hrest]
          | _ => cases hs
    change readStrList value = some value' at hread
    unfold readStrList at hread
    split at hread
    · obtain ⟨texts, htexts, rfl⟩ := Option.map_eq_some_iff.mp hread
      rw [strList, ← hitems htexts]
      exact hvalue
    · obtain ⟨texts, htexts, rfl⟩ := Option.map_eq_some_iff.mp hread
      rw [strList, ← hitems htexts]
      exact unbroken_tuple.mp hvalue
    · cases hread

theorem unbreaking_readDict {value value' : Value} (hread : readDict value = some value')
    (hvalue : Unbroken value) : Unbroken value' := by
  cases value with
  | dict items =>
      cases hread
      exact unbroken_dictFrom hvalue
  | _ => cases hread

theorem unbreaking_dict {name : String} {default : Option Dict} (hname : UnbrokenText name)
    (hdefault : ∀ d, default = some d → Unbroken (.dict d)) :
    (Field.dict name default).Unbreaking := by
  refine ⟨hname, fun value hvalue => ?_, fun _ _ hread hvalue => unbreaking_readDict hread hvalue⟩
  obtain ⟨d, hd, rfl⟩ := Option.map_eq_some_iff.mp hvalue
  exact hdefault d hd

theorem unbreaking_strDict {name : String} {ok : String → Bool} {sizeOk : Nat → Bool}
    {default : Option Dict} (hname : UnbrokenText name)
    (hdefault : ∀ d, default = some d → Unbroken (.dict d)) :
    (Field.strDict name default ok sizeOk).Unbreaking := by
  refine ⟨hname, fun value hvalue => ?_, fun value value' hread hvalue => ?_⟩
  · obtain ⟨d, hd, rfl⟩ := Option.map_eq_some_iff.mp hvalue
    exact hdefault d hd
  · change readStrDict ok sizeOk value = some value' at hread
    unfold readStrDict at hread
    split at hread
    · dsimp only at hread
      split_ifs at hread
      cases hread
      exact unbroken_dictFrom hvalue
    · cases hread

theorem unbreaking_optDict {name : String} (hname : UnbrokenText name) :
    (Field.optDict name).Unbreaking := by
  refine ⟨hname, ?_, fun value value' hread hvalue => ?_⟩
  · rintro value ⟨⟩
    exact unbroken_null
  · change readOptDict value = some value' at hread
    unfold readOptDict at hread
    split at hread
    · cases hread
      exact unbroken_null
    · exact unbreaking_readDict hread hvalue

/-- What is validated holds no more characters than the arguments. -/
theorem unbroken_of_validate {fields : List Field} (hfields : ∀ field ∈ fields, field.Unbreaking)
    {value : Value} {values : Dict} (h : validate fields value = .ok values)
    (hvalue : Unbroken value) : Unbroken (.dict values) := by
  obtain ⟨d, rfl, -, hread⟩ := validate_ok.mp h
  clear h
  induction fields generalizing values with
  | nil =>
      cases hread
      simp [Unbroken, Value.chars, charsDict]
  | cons field fields ih =>
      rw [List.forall_mem_cons] at hfields
      obtain ⟨taken, htake, hread⟩ := bind_eq_ok.mp hread
      obtain ⟨rest, hrest, hread⟩ := bind_eq_ok.mp hread
      cases hread
      have hbehind := ih hfields.2 hrest
      rw [unbroken_dict] at hbehind
      rw [unbroken_dict, List.forall_mem_cons]
      refine ⟨⟨hfields.1.label, ?_⟩, hbehind⟩
      change Unbroken taken
      unfold Field.take at htake
      split at htake
      · rename_i given hgiven
        split at htake
        · rename_i read hread
          cases htake
          exact hfields.1.keeps given _ hread (unbroken_dict.mp hvalue _ (mem_of_lookup hgiven)).2
        · cases htake
      · split at htake
        · rename_i default hdefault
          cases htake
          exact hfields.1.initial _ hdefault
        · cases htake

theorem unbreaking_taskFields [LaxInt] {now : String} (hnow : UnbrokenText now) :
    ∀ field ∈ taskFields now, field.Unbreaking := by
  simp only [taskFields, List.forall_mem_cons, List.not_mem_nil, false_implies, implies_true,
    and_true]
  repeat' apply And.intro
  all_goals first
    | exact unbreaking_optStr (by unfold UnbrokenText; decide)
    | exact unbreaking_int (by unfold UnbrokenText; decide)
    | exact unbreaking_optDict (by unfold UnbrokenText; decide)
    | exact unbreaking_strList (by unfold UnbrokenText; decide) (by rintro s ⟨⟩; simp)
    | exact unbreaking_strDict (by unfold UnbrokenText; decide)
        (by rintro d ⟨⟩; simp [Unbroken, Value.chars, charsDict])
    | exact unbreaking_str (by unfold UnbrokenText; decide) (by
        intro s hs
        cases hs
        all_goals first | exact hnow | (unfold UnbrokenText; decide))

end PowerFramework.Task
