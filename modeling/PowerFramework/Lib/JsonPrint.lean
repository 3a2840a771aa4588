import PowerFramework.Lib.Json
/-!
# JSON texts with blanks

`json.dumps` with its default separators or an indentation.  The order in which a dict was built
is not kept in a `Value`, so items stand in key order in every layout; without `sort_keys` the
text of the source has the same members in another order.
-/

namespace PowerFramework.Lib.Json

open Failure JsonNumber JsonText

/-- The blanks of a text, by the depth of the container they stand in. -/
structure Layout where
  opening : Nat → List Char
  comma : Nat → List Char
  closing : Nat → List Char
  colon : List Char
  allowNan : Bool
  sortKeys : Bool
  blank_opening : ∀ depth, (opening depth).all isSpace = true
  blank_comma : ∀ depth, (comma depth).all isSpace = true
  blank_closing : ∀ depth, (closing depth).all isSpace = true
  blank_colon : colon.all isSpace = true

/-- `separators=(",", ":")`, `sort_keys=True`, `allow_nan=False` -/
def Layout.compact : Layout where
  opening _ := []
  comma _ := []
  closing _ := []
  colon := []
  allowNan := false
  sortKeys := true
  blank_opening _ := rfl
  blank_comma _ := rfl
  blank_closing _ := rfl
  blank_colon := rfl

/-- The default separators. -/
def Layout.spaced (sortKeys : Bool) : Layout where
  opening _ := []
  comma _ := [' ']
  closing _ := []
  colon := [' ']
  allowNan := true
  sortKeys := sortKeys
  blank_opening _ := rfl
  blank_comma _ := rfl
  blank_closing _ := rfl
  blank_colon := rfl

def indentation (width depth : Nat) : List Char := '\n' :: List.replicate (width * depth) ' '

theorem blank_indentation (width depth : Nat) : (indentation width depth).all isSpace = true := by
  rw [List.all_eq_true, indentation, List.forall_mem_cons]
  refine ⟨by decide, fun c hc => ?_⟩
  rw [List.eq_of_mem_replicate hc]
  decide

/-- `indent=width` -/
def Layout.indented (width : Nat) (sortKeys : Bool) : Layout where
  opening depth := indentation width (depth + 1)
  comma depth := indentation width (depth + 1)
  closing depth := indentation width depth
  colon := [' ']
  allowNan := true
  sortKeys := sortKeys
  blank_opening depth := blank_indentation width (depth + 1)
  blank_comma depth := blank_indentation width (depth + 1)
  blank_closing depth := blank_indentation width depth
  blank_colon := rfl

/-- The literals of the floats that are no numbers. -/
def specialText (x : Double) : List Char :=
  if x.fraction ≠ 0 then "NaN".toList
  else if x.negative then "-Infinity".toList else "Infinity".toList

def Layout.writeFloat (l : Layout) (x : Double) : Except Exn (List Char) :=
  if x.isFinite then .ok (floatText x)
  else do
    raiseIf (l.allowNan = false) (valueError "Out of range float values are not JSON compliant")
    return specialText x

/-- The string that a key is written as, where it has one. -/
def Layout.keyText (l : Layout) : Key → Except Exn (List Char)
  | .none => .ok "null".toList
  | .bool b => .ok (if b then "true" else "false").toList
  | .int n => dumpsInt n
  | .float x => l.writeFloat x

def Layout.join (l : Layout) (depth : Nat) : List (List Char) → List Char
  | [] => []
  | [text] => text
  | text :: texts => text ++ ',' :: (l.comma depth ++ l.join depth texts)

def Layout.bracket (l : Layout) (depth : Nat) (first last : Char) (texts : List (List Char)) :
    List Char :=
  if texts = [] then [first, last]
  else first :: (l.opening depth ++ (l.join depth texts ++ (l.closing depth ++ [last])))

def Layout.member (l : Layout) (key : String) (text : List Char) : List Char :=
  dumpsStr key ++ ':' :: (l.colon ++ text)

mutual

/-- `json.dumps(value, ensure_ascii=False)` in a layout. -/
def Layout.write (l : Layout) (depth : Nat) : Value → Except Exn (List Char)
  | .null => .ok "null".toList
  | .bool b => .ok (if b then "true" else "false").toList
  | .int n => dumpsInt n
  | .float x => l.writeFloat x
  | .str s => .ok (dumpsStr s)
  | .list items => (l.writeList (depth + 1) items).map (l.bracket depth '[' ']')
  | .tuple items => (l.writeList (depth + 1) items).map (l.bracket depth '[' ']')
  | .dict items => (l.writeDict (depth + 1) items).map (l.bracket depth '{' '}')
  | .keyed key value rest => do
      raiseIf (l.sortKeys = true ∧ rest ≠ [] ∧ (key = .none ∨ rest.any (·.1 = .none)))
        ⟨"TypeError", "'<' not supported between instances of 'NoneType'"⟩
      let first ← l.keyText key
      let text ← l.write (depth + 1) value
      let texts ← l.writeKeyed (depth + 1) rest
      return l.bracket depth '{' '}' (l.member (String.ofList first) text :: texts)
  | .other => .error ⟨"TypeError", "Object is not JSON serializable"⟩

def Layout.writeList (l : Layout) (depth : Nat) : List Value → Except Exn (List (List Char))
  | [] => .ok []
  | value :: values => do
      let text ← l.write depth value
      let texts ← l.writeList depth values
      return text :: texts

def Layout.writeDict (l : Layout) (depth : Nat) : Dict → Except Exn (List (List Char))
  | [] => .ok []
  | (key, value) :: items => do
      let text ← l.write depth value
      let texts ← l.writeDict depth items
      return l.member key text :: texts

def Layout.writeKeyed (l : Layout) (depth : Nat) :
    List (Key × Value) → Except Exn (List (List Char))
  | [] => .ok []
  | (key, value) :: items => do
      let first ← l.keyText key
      let text ← l.write depth value
      let texts ← l.writeKeyed depth items
      return l.member (String.ofList first) text :: texts

end

/-! ## What cannot be written -/

/-- The exceptions of `json.dumps`. -/
def WriteError (e : Exn) : Prop := e.kind = "TypeError" ∨ e.kind = "ValueError"

theorem dumpsInt_error {n : Int} {e : Exn} (h : dumpsInt n = .error e) : WriteError e := by
  rcases bind_eq_error.mp h with h | ⟨u, -, h⟩
  · obtain ⟨-, rfl⟩ := raiseIf_eq_error.mp h
    exact Or.inr rfl
  · cases h

theorem Layout.writeFloat_error {l : Layout} {x : Double} {e : Exn}
    (h : l.writeFloat x = .error e) : WriteError e := by
  rw [Layout.writeFloat] at h
  split_ifs at h
  rcases bind_eq_error.mp h with h | ⟨u, -, h⟩
  · obtain ⟨-, rfl⟩ := raiseIf_eq_error.mp h
    exact Or.inr rfl
  · cases h

theorem Layout.keyText_error {l : Layout} {key : Key} {e : Exn} (h : l.keyText key = .error e) :
    WriteError e := by
  cases key with
  | none => cases h
  | bool b => cases h
  | int n => exact dumpsInt_error h
  | float x => exact Layout.writeFloat_error h

mutual

theorem write_error (l : Layout) : ∀ (value : Value) {depth : Nat} {e : Exn},
    l.write depth value = .error e → WriteError e
  | .null, depth, e, h => by cases h
  | .bool b, depth, e, h => by cases h
  | .int n, depth, e, h => dumpsInt_error h
  | .float x, depth, e, h => Layout.writeFloat_error h
  | .str s, depth, e, h => by cases h
  | .list items, depth, e, h => writeList_error l items (map_eq_error.mp h)
  | .tuple items, depth, e, h => writeList_error l items (map_eq_error.mp h)
  | .dict items, depth, e, h => writeDict_error l items (map_eq_error.mp h)
  | .keyed key value rest, depth, e, h => by
      rw [Layout.write] at h
      rcases bind_eq_error.mp h with h | ⟨u, -, h⟩
      · obtain ⟨-, rfl⟩ := raiseIf_eq_error.mp h
        exact Or.inl rfl
      rcases bind_eq_error.mp h with h | ⟨first, -, h⟩
      · exact Layout.keyText_error h
      rcases bind_eq_error.mp h with h | ⟨text, -, h⟩
      · exact write_error l value h
      rcases bind_eq_error.mp h with h | ⟨texts, -, h⟩
      · exact writeKeyed_error l rest h
      · cases h
  | .other, depth, e, h => by
      cases h
      exact Or.inl rfl

theorem writeList_error (l : Layout) : ∀ (values : List Value) {depth : Nat} {e : Exn},
    l.writeList depth values = .error e → WriteError e
  | [], depth, e, h => by cases h
  | value :: values, depth, e, h => by
      rcases bind_eq_error.mp h with h | ⟨text, -, h⟩
      · exact write_error l value h
      rcases bind_eq_error.mp h with h | ⟨texts, -, h⟩
      · exact writeList_error l values h
      · cases h

theorem writeDict_error (l : Layout) : ∀ (items : Dict) {depth : Nat} {e : Exn},
    l.writeDict depth items = .error e → WriteError e
  | [], depth, e, h => by cases h
  | (key, value) :: items, depth, e, h => by
      rcases bind_eq_error.mp h with h | ⟨text, -, h⟩
      · exact write_error l value h
      rcases bind_eq_error.mp h with h | ⟨texts, -, h⟩
      · exact writeDict_error l items h
      · cases h

theorem writeKeyed_error (l : Layout) : ∀ (items : List (Key × Value)) {depth : Nat} {e : Exn},
    l.writeKeyed depth items = .error e → WriteError e
  | [], depth, e, h => by cases h
  | (key, value) :: items, depth, e, h => by
      rcases bind_eq_error.mp h with h | ⟨first, -, h⟩
      · exact Layout.keyText_error h
      rcases bind_eq_error.mp h with h | ⟨text, -, h⟩
      · exact write_error l value h
      rcases bind_eq_error.mp h with h | ⟨texts, -, h⟩
      · exact writeKeyed_error l items h
      · cases h

end

/-! ## What a text is read as -/

/-- The NaN that `json.loads` makes. -/
def Double.read (x : Double) : Double :=
  if x.isFinite = false ∧ x.fraction ≠ 0 then .nan else x

/-- The string a key is read back as. -/
def Key.text : Key → String
  | .none => "null"
  | .bool b => if b then "true" else "false"
  | .int n => String.ofList (intText n)
  | .float x => String.ofList (if x.isFinite then floatText x else specialText x)

mutual

/-- The value that JSON makes of a value: lists for tuples, and strings for keys. -/
def Value.asJson : Value → Value
  | .null => .null
  | .bool b => .bool b
  | .int n => .int n
  | .float x => .float (Double.read x)
  | .str s => .str s
  | .list items => .list (asJsonList items)
  | .tuple items => .list (asJsonList items)
  | .dict items => dictValue (asJsonDict items)
  | .keyed key value rest => dictValue ((some key.text, value.asJson) :: asJsonKeyed rest)
  | .other => .other

def asJsonList : List Value → List Value
  | [] => []
  | value :: values => value.asJson :: asJsonList values

def asJsonDict : Dict → List (Option String × Value)
  | [] => []
  | (key, value) :: items => (some key, value.asJson) :: asJsonDict items

def asJsonKeyed : List (Key × Value) → List (Option String × Value)
  | [] => []
  | (key, value) :: items => (some key.text, value.asJson) :: asJsonKeyed items

end

mutual

/-- The characters of the strings in a value, keys included. -/
def Value.chars : Value → List Char
  | .str s => s.toList
  | .list items => charsList items
  | .tuple items => charsList items
  | .dict items => charsDict items
  | .keyed _ value rest => value.chars ++ charsKeyed rest
  | _ => []

def charsList : List Value → List Char
  | [] => []
  | value :: values => value.chars ++ charsList values

def charsDict : Dict → List Char
  | [] => []
  | (key, value) :: items => key.toList ++ (value.chars ++ charsDict items)

def charsKeyed : List (Key × Value) → List Char
  | [] => []
  | (_, value) :: items => value.chars ++ charsKeyed items

end

end PowerFramework.Lib.Json
