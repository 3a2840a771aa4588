import Mathlib.Data.List.AList
import PowerFramework.Lib.Lines
import PowerFramework.Ledger.Commands
/-!
# The ledger's directory

A project directory maps file names to contents, listed in the order `iterdir` lists them.
The event files are the numbered partitions in index order and then the active file; replay
reads their lines in this order.
-/

namespace PowerFramework.Ledger

open Lib Lib.Failure Lib.Json Lib.Lines

abbrev ProjectDir := AList fun _ : String => List UInt8

def activeEventsFile : String := "events.jsonl"

/-- `events_[0-9]{6}\.jsonl` -/
def rotationBody (name : List Char) : Bool :=
  let stem := "events_".toList
  let suffix := ".jsonl".toList
  stem.isPrefixOf name && ((name.drop 7).take 6).length == 6 &&
    ((name.drop 7).take 6).all Text.isDigit && name.drop 13 == suffix

/-- `ROTATION_FILE_PATTERN.match(name)`; Python's `$` also matches before a final newline. -/
def isRotation (name : String) : Bool :=
  rotationBody name.toList ||
    (name.toList.getLast? == some '\n' && rotationBody name.toList.dropLast)

/-- `int(name[7:13])` -/
def partitionIndex (name : String) : Nat :=
  Nat.ofDigitChars 10 ((name.toList.drop 7).take 6) 0

/-- `f"events_{index:06d}.jsonl"` -/
def rotationName (index : Nat) : String :=
  let digits := Nat.toDigits 10 index
  String.ofList ("events_".toList ++ List.replicate (6 - digits.length) '0' ++ digits ++
    ".jsonl".toList)

def rotatedFiles (dir : ProjectDir) : List String :=
  (dir.keys.filter isRotation).mergeSort fun a b => partitionIndex a ≤ partitionIndex b

/-- `list_event_files` -/
def listEventFiles (dir : ProjectDir) : List String :=
  rotatedFiles dir ++ if activeEventsFile ∈ dir then [activeEventsFile] else []

/-- The characters `str.strip()` removes. -/
def isPySpace (c : Char) : Bool :=
  let n := c.toNat
  (9 ≤ n && n ≤ 13) || (28 ≤ n && n ≤ 32) || n == 0x85 || n == 0xA0 || n == 0x1680 ||
    (0x2000 ≤ n && n ≤ 0x200A) || n == 0x2028 || n == 0x2029 || n == 0x202F || n == 0x205F ||
    n == 0x3000

def strip (text : List Char) : List Char := (text.dropWhile isPySpace).rdropWhile isPySpace

def unicodeDecodeError : Exn := ⟨"UnicodeDecodeError", "invalid start byte"⟩

def jsonDecodeError : Exn := ⟨"JSONDecodeError", "invalid JSON"⟩

/-- The lines of a file in text mode, numbered from one, stripped, without the blank ones. -/
def numberedRecords (content : List UInt8) : Except Exn (List (Nat × List Char)) :=
  match Utf8.decode content with
  | none => .error unicodeDecodeError
  | some text =>
      .ok ((((universalLines '\n' '\r' text).map strip).zipIdx 1).filterMap fun line =>
        if line.1 = [] then none else some (line.2, line.1))

/-- The records of a file: its stripped lines that are not blank. -/
def recordsOf (text : List Char) : List (List Char) :=
  ((universalLines '\n' '\r' text).map strip).filter (· ≠ [])

variable [LaxInt]

def parseRecord (raw : List Char) : Except Exn ProjectEvent :=
  match loads raw with
  | none => .error jsonDecodeError
  | some data => ProjectEvent.modelValidate data

def replayFile (content : List UInt8) : Except Exn (List ProjectEvent) := do
  let records ← numberedRecords content
  records.mapM fun record => parseRecord record.2

def readFile (dir : ProjectDir) (name : String) : List UInt8 := (dir.lookup name).getD []

/-- `list(replay(from_sequence))` -/
def replay (dir : ProjectDir) (fromSequence : Nat) : Except Exn (List ProjectEvent) := do
  let events ← (listEventFiles dir).mapM fun name => replayFile (readFile dir name)
  return events.flatten.filter fun event => fromSequence ≤ event.sequence

omit [LaxInt] in
theorem filterMap_zipIdx (lines : List (List Char)) (start : Nat) :
    ((lines.zipIdx start).filterMap fun line =>
      if line.1 = [] then none else some (line.2, line.1)).map Prod.snd =
      lines.filter (· ≠ []) := by
  induction lines generalizing start with
  | nil => rfl
  | cons line lines ih =>
      rw [List.zipIdx_cons, List.filterMap_cons, List.filter_cons]
      by_cases hline : line = []
      · simp only [hline, if_true, ne_eq, not_true_eq_false, decide_false, Bool.false_eq_true,
          if_false]
        exact ih (start + 1)
      · simp only [hline, if_false, ne_eq, not_false_eq_true, decide_true, if_true,
          List.map_cons, ih (start + 1)]

omit [LaxInt] in
theorem numberedRecords_ok {content : List UInt8} {records : List (Nat × List Char)}
    (h : numberedRecords content = .ok records) :
    ∃ text, content = Utf8.encode text ∧ records.map Prod.snd = recordsOf text := by
  unfold numberedRecords at h
  cases hdecode : Utf8.decode content with
  | none => simp [hdecode] at h
  | some text =>
      simp only [hdecode, Except.ok.injEq] at h
      refine ⟨text, Utf8.decode_eq_some.mp hdecode, ?_⟩
      rw [← h, recordsOf, filterMap_zipIdx]

omit [LaxInt] in
theorem numberedRecords_encode (text : List Char) :
    ∃ records, numberedRecords (Utf8.encode text) = .ok records ∧
      records.map Prod.snd = recordsOf text := by
  rw [numberedRecords, Utf8.decode_encode]
  exact ⟨_, rfl, filterMap_zipIdx _ 1⟩

theorem mapM_parseRecord (records : List (Nat × List Char)) :
    (records.mapM fun record => parseRecord record.2) =
      (records.map Prod.snd).mapM parseRecord := by
  rw [List.mapM_map]
  rfl

theorem replayFile_encode (text : List Char) :
    replayFile (Utf8.encode text) = (recordsOf text).mapM parseRecord := by
  obtain ⟨records, hrecords, hmap⟩ := numberedRecords_encode text
  rw [replayFile, hrecords]
  change (records.mapM fun record => parseRecord record.2) = _
  rw [mapM_parseRecord, hmap]

theorem replayFile_ok {content : List UInt8} {events : List ProjectEvent}
    (h : replayFile content = .ok events) :
    ∃ text, content = Utf8.encode text ∧ (recordsOf text).mapM parseRecord = .ok events := by
  obtain ⟨records, hrecords, hparse⟩ := bind_eq_ok.mp h
  obtain ⟨text, rfl, hmap⟩ := numberedRecords_ok hrecords
  refine ⟨text, rfl, ?_⟩
  rw [← hmap, ← mapM_parseRecord]
  exact hparse

omit [LaxInt] in
theorem recordsOf_append {a : List Char} (ha : Terminated '\n' a) (b : List Char) :
    recordsOf (a ++ b) = recordsOf a ++ recordsOf b := by
  rw [recordsOf, universalLines_append (by decide) ha, List.map_append, List.filter_append]
  rfl

end PowerFramework.Ledger
