import PowerFramework.Lib.JsonPrint
import PowerFramework.Lib.Utf8
/-!
# Which values have a text

A value without foreign objects, and with integers that are not too long, has a JSON text in every
layout that admits all floats (`exists_write`).  `Layout.weight` bounds the number of its
characters.
-/

namespace PowerFramework.Lib.Json

open Failure JsonNumber JsonText

/-- Whether the value itself is taken by `json.dumps`, whatever is inside it. -/
def takes : Value → Bool
  | .int n => (Nat.toDigits 10 n.natAbs).length ≤ maxStrDigits
  | .float x => x.isFinite
  | .keyed .. => false
  | .other => false
  | _ => true

def Value.writable : Value → Bool := Value.everywhere takes

mutual

/-- A bound on the characters of the text of a value. -/
def Layout.weight (l : Layout) (depth : Nat) : Value → Nat
  | .null => 4
  | .bool _ => 5
  | .int n => (intText n).length
  | .float x => (floatText x).length
  | .str s => 6 * s.toList.length + 2
  | .list items => l.weightList (depth + 1) items + (l.opening depth).length + (l.closing depth).length + 2
  | .tuple items => l.weightList (depth + 1) items + (l.opening depth).length + (l.closing depth).length + 2
  | .dict items => l.weightDict (depth + 1) items + (l.opening depth).length + (l.closing depth).length + 2
  | .keyed .. => 0
  | .other => 0

def Layout.weightList (l : Layout) (depth : Nat) : List Value → Nat
  | [] => 0
  | value :: values =>
      l.weight depth value + (l.comma (depth - 1)).length + 1 + l.weightList depth values

def Layout.weightDict (l : Layout) (depth : Nat) : Dict → Nat
  | [] => 0
  | (key, value) :: items =>
      6 * key.toList.length + 3 + l.colon.length + l.weight depth value +
        (l.comma (depth - 1)).length + 1 + l.weightDict depth items

end

theorem length_escapeChar_le (c : Char) : (escapeChar c).length ≤ 6 := by
  unfold escapeChar
  split_ifs <;> simp

theorem length_dumpsStr_le (s : String) : (dumpsStr s).length ≤ 6 * s.toList.length + 2 := by
  have hflat : ∀ chars : List Char, (chars.flatMap escapeChar).length ≤ 6 * chars.length := by
    intro chars
    induction chars with
    | nil => simp
    | cons c chars ih =>
        rw [List.flatMap_cons, List.length_append, List.length_cons]
        have := length_escapeChar_le c
        omega
  have := hflat s.toList
  rw [dumpsStr, List.length_append, List.length_cons, List.length_singleton]
  omega

theorem dumpsInt_of_le {n : Int} (h : (Nat.toDigits 10 n.natAbs).length ≤ maxStrDigits) :
    dumpsInt n = .ok (intText n) := by
  have : ¬ maxStrDigits < (Nat.toDigits 10 n.natAbs).length := by omega
  simp [dumpsInt, raiseIf, this, bind, Except.bind, pure, Except.pure]

/-- The characters of joined texts. -/
theorem length_join_le (l : Layout) (depth : Nat) (texts : List (List Char)) :
    (l.join depth texts).length ≤
      (texts.map fun text => text.length + (l.comma depth).length + 1).sum := by
  induction texts with
  | nil => simp [Layout.join]
  | cons text texts ih =>
      cases texts with
      | nil =>
          rw [Layout.join, List.map_singleton, List.sum_singleton]
          omega
      | cons next texts =>
          rw [Layout.join, List.map_cons, List.sum_cons, List.length_append, List.length_cons,
            List.length_append]
          · omega
          · simp

theorem length_bracket_le (l : Layout) (depth : Nat) (first last : Char)
    (texts : List (List Char)) : (l.bracket depth first last texts).length ≤
      (texts.map fun text => text.length + (l.comma depth).length + 1).sum +
        (l.opening depth).length + (l.closing depth).length + 2 := by
  have hjoin := length_join_le l depth texts
  rw [Layout.bracket]
  split_ifs with hnil
  · simp
  · simp only [List.length_cons, List.length_append, List.length_nil]
    omega

mutual

theorem exists_write (l : Layout) : ∀ (value : Value) (depth : Nat), value.writable = true →
    ∃ text, l.write depth value = .ok text ∧ text.length ≤ l.weight depth value
  | .null, depth, h => ⟨_, rfl, le_refl 4⟩
  | .bool b, depth, h => ⟨_, rfl, by
      rw [Layout.weight]
      cases b <;> decide⟩
  | .int n, depth, h => by
      have hle : (Nat.toDigits 10 n.natAbs).length ≤ maxStrDigits := by
        simpa [Value.writable, Value.everywhere, takes] using h
      exact ⟨_, dumpsInt_of_le hle, le_refl _⟩
  | .float x, depth, h => by
      have hfinite : x.isFinite = true := by simpa [Value.writable, Value.everywhere, takes] using h
      exact ⟨floatText x, by rw [Layout.write, Layout.writeFloat, if_pos hfinite], le_refl _⟩
  | .str s, depth, h => ⟨_, rfl, length_dumpsStr_le s⟩
  | .list items, depth, h => by
      simp only [Value.writable, Value.everywhere, takes, Bool.true_and] at h
      obtain ⟨texts, htexts, hlength⟩ := exists_writeList l items (depth + 1) h
      refine ⟨l.bracket depth '[' ']' texts, by rw [Layout.write, htexts]; rfl, ?_⟩
      have := length_bracket_le l depth '[' ']' texts
      rw [Layout.weight]
      simp only [Nat.add_sub_cancel] at hlength
      omega
  | .tuple items, depth, h => by
      simp only [Value.writable, Value.everywhere, takes, Bool.true_and] at h
      obtain ⟨texts, htexts, hlength⟩ := exists_writeList l items (depth + 1) h
      refine ⟨l.bracket depth '[' ']' texts, by rw [Layout.write, htexts]; rfl, ?_⟩
      have := length_bracket_le l depth '[' ']' texts
      rw [Layout.weight]
      simp only [Nat.add_sub_cancel] at hlength
      omega
  | .dict items, depth, h => by
      simp only [Value.writable, Value.everywhere, takes, Bool.true_and] at h
      obtain ⟨texts, htexts, hlength⟩ := exists_writeDict l items (depth + 1) h
      refine ⟨l.bracket depth '\x7b' '\x7d' texts, by rw [Layout.write, htexts]; rfl, ?_⟩
      have := length_bracket_le l depth '\x7b' '\x7d' texts
      rw [Layout.weight]
      simp only [Nat.add_sub_cancel] at hlength
      omega
  | .keyed .., depth, h => by simp [Value.writable, Value.everywhere, takes] at h
  | .other, depth, h => by simp [Value.writable, Value.everywhere, takes] at h

theorem exists_writeList (l : Layout) : ∀ (values : List Value) (depth : Nat),
    everywhereList takes values = true →
    ∃ texts, l.writeList depth values = .ok texts ∧
      (texts.map fun text => text.length + (l.comma (depth - 1)).length + 1).sum ≤
        l.weightList depth values
  | [], depth, h => ⟨[], rfl, le_refl _⟩
  | value :: values, depth, h => by
      rw [everywhereList, Bool.and_eq_true] at h
      obtain ⟨text, htext, hlength⟩ := exists_write l value depth h.1
      obtain ⟨texts, htexts, hlengths⟩ := exists_writeList l values depth h.2
      refine ⟨text :: texts, by rw [Layout.writeList, htext, htexts]; rfl, ?_⟩
      rw [List.map_cons, List.sum_cons, Layout.weightList]
      omega

theorem exists_writeDict (l : Layout) : ∀ (items : Dict) (depth : Nat),
    everywhereDict takes items = true →
    ∃ texts, l.writeDict depth items = .ok texts ∧
      (texts.map fun text => text.length + (l.comma (depth - 1)).length + 1).sum ≤
        l.weightDict depth items
  | [], depth, h => ⟨[], rfl, le_refl _⟩
  | (key, value) :: items, depth, h => by
      rw [everywhereDict, Bool.and_eq_true] at h
      obtain ⟨text, htext, hlength⟩ := exists_write l value depth h.1
      obtain ⟨texts, htexts, hlengths⟩ := exists_writeDict l items depth h.2
      refine ⟨l.member key text :: texts, by rw [Layout.writeDict, htext, htexts]; rfl, ?_⟩
      have hkey := length_dumpsStr_le key
      rw [List.map_cons, List.sum_cons, Layout.weightDict, Layout.member, List.length_append,
        List.length_cons, List.length_append]
      omega

end

end PowerFramework.Lib.Json
