import PowerFramework.Lib.JsonExtension
import PowerFramework.Lib.Splitlines
import PowerFramework.Task.Models
/-!
# The event journal

The text of a journal and how it is read: a record on each line that is not blank, chained by
the payload digests.  Reading a text behind whole lines goes on where they end
(`readRecords_append`), and a record that was written is read back when no character of it
breaks its line and its payload has no other JSON form (`readRecord_written`).
-/

namespace PowerFramework.Task

open Lib Lib.Failure Lib.Json Lib.Splitlines Ledger

def journalIntegrityError (message : String) : Exn := ⟨"TaskJournalIntegrityError", message⟩

/-! ## Line boundaries in JSON texts -/

/-- The line boundaries that a JSON string may hold as they are. -/
def breaksLine (c : Char) : Bool := c.toNat == 0x85 || c.toNat == 0x2028 || c.toNat == 0x2029

theorem breaksLine_of_isBoundary {c : Char} (h : isBoundary c = true) (hc : 32 ≤ c.toNat) :
    breaksLine c = true := by
  simp only [isBoundary, Bool.or_eq_true, Bool.and_eq_true, decide_eq_true_eq, beq_iff_eq] at h
  simp only [breaksLine, Bool.or_eq_true, beq_iff_eq]
  omega

theorem isBoundary_of_breaksLine {c : Char} (h : breaksLine c = true) : isBoundary c = true := by
  simp only [breaksLine, Bool.or_eq_true, beq_iff_eq] at h
  simp only [isBoundary, Bool.or_eq_true, Bool.and_eq_true, decide_eq_true_eq, beq_iff_eq]
  omega

/-- A line boundary behind a value is neither blank nor part of it. -/
theorem breaks_of_breaksLine {c : Char} (h : breaksLine c = true) (rest : List Char) :
    Breaks (c :: rest) := by
  have hne : ∀ d : Char, d.toNat < 128 → c ≠ d := by
    rintro d hd rfl
    simp only [breaksLine, Bool.or_eq_true, beq_iff_eq] at h
    omega
  refine ⟨c, rest, rfl, ?_, ?_, hne _ (by decide), hne _ (by decide)⟩
  · have hdigit : c.isDigit = false := by
      simp only [breaksLine, Bool.or_eq_true, beq_iff_eq] at h
      simp only [Char.isDigit, Bool.and_eq_false_iff, decide_eq_false_iff_not]
      right
      intro hle
      have : c.toNat ≤ 57 := hle
      omega
    simp [JsonNumber.endsNumber, hdigit, hne]
  · simp [isSpace, hne]

theorem breaks_brace (rest : List Char) : Breaks ('{' :: rest) :=
  ⟨'{', rest, rfl, by decide, by decide, by decide, by decide⟩

theorem isWhitespace_of_isSpace {c : Char} (h : isSpace c = true) : isWhitespace c = true := by
  simp only [isSpace, Bool.or_eq_true, beq_iff_eq] at h
  rcases h with ((rfl | rfl) | rfl) | rfl <;> decide

/-- A character that breaks lines is in the text of an event if it is in a string of it. -/
theorem mem_event_text {event : TaskEvent} {text : List Char}
    (h : (Layout.spaced false).write 0 (.dict event) = .ok text) {c : Char}
    (hc : breaksLine c = true) : c ∈ text ↔ c ∈ (Value.dict event).chars := by
  have hascii : 128 ≤ c.toNat := by
    simp only [breaksLine, Bool.or_eq_true, beq_iff_eq] at hc
    omega
  refine mem_write_iff h hascii fun hblank => ?_
  rw [blank_spaced hblank] at hascii
  exact absurd hascii (by decide)

/-- The text of an event starts with a brace and has no boundary but those of its strings. -/
theorem event_text {event : TaskEvent} {text : List Char}
    (h : (Layout.spaced false).write 0 (.dict event) = .ok text) :
    (∃ rest, text = '{' :: rest) ∧
      ∀ c ∈ text, isBoundary c = true → c ∈ (Value.dict event).chars ∧ breaksLine c = true := by
  constructor
  · rw [Layout.write] at h
    obtain ⟨texts, -, rfl⟩ := map_eq_ok.mp h
    rw [Layout.bracket]
    split_ifs
    · exact ⟨_, rfl⟩
    · exact ⟨_, rfl⟩
  · intro c hc hboundary
    have hbreak := breaksLine_of_isBoundary hboundary
      (oneLine_write (fun _ => blank_spaced) h c hc)
    exact ⟨(mem_event_text h hbreak).mp hc, hbreak⟩

/-- A blank that is no JSON blank starts no value. -/
theorem loads_of_whitespace {blank : List Char} (hblank : isBlank blank = true)
    (hspace : blank.all isSpace = false) (rest : List Char) : loads (blank ++ rest) = none := by
  have hskip : ∃ c more, skip (blank ++ rest) = c :: more ∧ isWhitespace c = true ∧
      isSpace c = false := by
    induction blank with
    | nil => cases hspace
    | cons c blank ih =>
        rw [isBlank, List.all_cons, Bool.and_eq_true] at hblank
        by_cases hc : isSpace c = true
        · rw [List.all_cons, hc, Bool.true_and] at hspace
          obtain ⟨d, more, hd⟩ := ih hblank.2 hspace
          refine ⟨d, more, ?_, hd.2⟩
          rw [List.cons_append, skip, List.dropWhile_cons_of_pos hc]
          exact hd.1
        · have hc : isSpace c = false := by simpa using hc
          exact ⟨c, blank ++ rest, skip_cons hc _, hblank.1, hc⟩
  obtain ⟨c, more, hskip, hc, -⟩ := hskip
  have hne : ∀ d : Char, isWhitespace d = false → c ≠ d := by
    rintro d hd rfl
    rw [hc] at hd
    cases hd
  have hnumber : JsonNumber.scanNumber (c :: more) = none := by
    cases hscan : JsonNumber.scanNumber (c :: more) with
    | none => rfl
    | some scanned =>
        obtain ⟨d, ds, heq, hd⟩ := scanNumber_head hscan
        obtain ⟨rfl, -⟩ := List.cons.inj heq
        rcases hd with rfl | hdigit
        · exact absurd rfl (hne '-' (by decide))
        · simp only [Char.isDigit, Bool.and_eq_true, decide_eq_true_eq] at hdigit
          have hlow : 48 ≤ c.toNat := hdigit.1
          have hhigh : c.toNat ≤ 57 := hdigit.2
          simp only [isWhitespace, Bool.or_eq_true, Bool.and_eq_true, decide_eq_true_eq,
            beq_iff_eq] at hc
          omega
  have hminus : literal "-Infinity" (.float (.infinity true)) (c :: more) = none := by
    rw [literal, if_neg]
    intro hprefix
    obtain ⟨rest', heq⟩ := List.isPrefixOf_iff_prefix.mp hprefix
    exact hne '-' (by decide) (List.cons.inj heq).1.symm
  have hscan : ∀ fuel, scanValue fuel (c :: more) = none := by
    intro fuel
    cases fuel with
    | zero => rfl
    | succ fuel =>
        rw [scanValue, if_neg (hne _ (by decide)), if_neg (hne _ (by decide)),
          if_neg (hne _ (by decide)), if_neg (hne _ (by decide)), if_neg (hne _ (by decide)),
          if_neg (hne _ (by decide)), if_neg (hne _ (by decide)), if_neg (hne _ (by decide)),
          scanNumberValue, hnumber, hminus]
        rfl
  rw [loads, hskip]
  simp only [hscan, Option.bind_eq_bind, Option.bind_none]

/-! ## Reading -/

variable [LaxInt] (now taskId : String)

/-- The record on a line of the journal file. -/
def parseRecord (number : Nat) (line : List Char) : Except Exn TaskEvent :=
  match (loads line).map (validate (eventFields now)) with
  | some (.ok event) => .ok event
  | _ => .error (journalIntegrityError ("Malformed task event journal " ++ taskId ++
      ".jsonl at line " ++ toString number))

/-- The checks on one record: `sequence` and `previous` are what its predecessors lead to. -/
def checkRecord (sequence : Int) (previous : String) (event : TaskEvent) : Except Exn Unit := do
  raiseIf (event.taskId ≠ taskId)
    (journalIntegrityError "Task event task ID does not match its journal")
  raiseIf (event.sequence ≠ sequence)
    (journalIntegrityError "Task event journal sequence is not monotonic")
  raiseIf (event.prevEventDigest ≠ previous)
    (journalIntegrityError "Task event journal hash chain is invalid")
  let digest ← canonicalPayloadDigest event.payload
  raiseIf (event.payloadDigest ≠ digest)
    (journalIntegrityError "Task event payload digest is invalid")

/-- The loop of `get_task_events` over the numbered lines. -/
def readRecords : Nat → Int → String → List (List Char) → Except Exn (List TaskEvent)
  | _, _, _, [] => .ok []
  | number, sequence, previous, line :: lines =>
      if isBlank line then readRecords (number + 1) sequence previous lines
      else do
        let event ← parseRecord now taskId number line
        checkRecord taskId sequence previous event
        let events ← readRecords (number + 1) (sequence + 1) event.payloadDigest lines
        return event :: events

/-- The events of a journal text. -/
def readJournal (text : List Char) : Except Exn (List TaskEvent) :=
  readRecords now taskId 1 1 "" (splitlines text)

/-- `json.dumps(event.model_dump(), ensure_ascii=False) + "\n"` -/
def eventLine (event : TaskEvent) : Except Exn (List Char) :=
  ((Layout.spaced false).write 0 (.dict event)).map (· ++ ['\n'])

/-- The digest that the record behind these events must name. -/
def lastDigest (previous : String) (events : List TaskEvent) : String :=
  (events.getLast?.map TaskEvent.payloadDigest).getD previous

/-- The event is the next one behind those that lead to `sequence` and `previous`. -/
structure Chained (sequence : Int) (previous : String) (event : TaskEvent) : Prop where
  taskId : event.taskId = taskId
  sequence : event.sequence = sequence
  previous : event.prevEventDigest = previous
  digest : canonicalPayloadDigest event.payload = .ok event.payloadDigest

variable {now taskId}

omit [LaxInt] in
theorem checkRecord_ok {sequence : Int} {previous : String} {event : TaskEvent} :
    checkRecord taskId sequence previous event = .ok ⟨⟩ ↔
      Chained taskId sequence previous event := by
  simp only [checkRecord, bind_eq_ok, raiseIf_eq_ok, not_not]
  constructor
  · rintro ⟨-, htask, -, hsequence, -, hprevious, digest, hdigest, rfl⟩
    exact ⟨htask, hsequence, hprevious, hdigest⟩
  · rintro ⟨htask, hsequence, hprevious, hdigest⟩
    exact ⟨⟨⟩, htask, ⟨⟩, hsequence, ⟨⟩, hprevious, _, hdigest, rfl⟩

theorem parseRecord_ok {number : Nat} {line : List Char} {event : TaskEvent} :
    parseRecord now taskId number line = .ok event ↔
      ∃ value, loads line = some value ∧ validate (eventFields now) value = .ok event := by
  unfold parseRecord
  cases hloads : loads line with
  | none => simp
  | some value =>
      cases hvalid : validate (eventFields now) value with
      | error e => simp [hvalid]
      | ok event' => simp [hvalid]

omit [LaxInt] in
theorem lastDigest_cons (previous : String) (event : TaskEvent) (events : List TaskEvent) :
    lastDigest previous (event :: events) = lastDigest event.payloadDigest events := by
  rw [lastDigest, lastDigest]
  cases events with
  | nil => rfl
  | cons next events =>
      rw [List.getLast?_cons_cons]
      cases hlast : (next :: events).getLast? with
      | none => simp at hlast
      | some last => rfl

section
variable {number : Nat} {sequence : Int} {previous : String} {lines : List (List Char)}
  {events : List TaskEvent}

theorem readRecords_blank {line : List Char} (hline : isBlank line = true) :
    readRecords now taskId number sequence previous (line :: lines) =
      readRecords now taskId (number + 1) sequence previous lines := by
  rw [readRecords, if_pos hline]

theorem readRecords_cons {line : List Char} (hline : isBlank line = false) :
    readRecords now taskId number sequence previous (line :: lines) = .ok events ↔
      ∃ event rest, parseRecord now taskId number line = .ok event ∧
        Chained taskId sequence previous event ∧
        readRecords now taskId (number + 1) (sequence + 1) event.payloadDigest lines = .ok rest ∧
        events = event :: rest := by
  rw [readRecords, if_neg (by simp [hline])]
  constructor
  · intro h
    obtain ⟨event, hparse, h⟩ := bind_eq_ok.mp h
    obtain ⟨⟨⟩, hcheck, h⟩ := bind_eq_ok.mp h
    obtain ⟨rest, hrest, h⟩ := bind_eq_ok.mp h
    cases h
    exact ⟨event, rest, hparse, checkRecord_ok.mp hcheck, hrest, rfl⟩
  · rintro ⟨event, rest, hparse, hchained, hrest, rfl⟩
    rw [hparse]
    simp only [bind, Except.bind, checkRecord_ok.mpr hchained, hrest]
    rfl

/-- The numbers of the lines stand in error texts only. -/
theorem readRecords_number (number' : Nat)
    (h : readRecords now taskId number sequence previous lines = .ok events) :
    readRecords now taskId number' sequence previous lines = .ok events := by
  induction lines generalizing number number' sequence previous events with
  | nil => exact h
  | cons line lines ih =>
      by_cases hline : isBlank line = true
      · rw [readRecords_blank hline] at h ⊢
        exact ih _ h
      · have hline : isBlank line = false := by simpa using hline
        obtain ⟨event, rest, hparse, hchained, hrest, rfl⟩ := (readRecords_cons hline).mp h
        rw [readRecords_cons hline]
        exact ⟨event, rest, parseRecord_ok.mpr (parseRecord_ok.mp hparse), hchained,
          ih _ hrest, rfl⟩

/-- What is read behind lines that were read. -/
theorem readRecords_behind {more : List (List Char)}
    (h : readRecords now taskId number sequence previous lines = .ok events) :
    readRecords now taskId number sequence previous (lines ++ more) =
      (readRecords now taskId (number + lines.length) (sequence + events.length)
        (lastDigest previous events) more).map (events ++ ·) := by
  induction lines generalizing number sequence previous events with
  | nil =>
      cases h
      rw [List.nil_append, List.length_nil, List.length_nil, Int.natCast_zero, Int.add_zero,
        Nat.add_zero, lastDigest, List.getLast?_nil]
      cases hmore : readRecords now taskId number sequence previous more <;> simp [Except.map, hmore]
  | cons line lines ih =>
      have hnumber : number + (line :: lines).length = number + 1 + lines.length := by
        rw [List.length_cons]
        omega
      rw [List.cons_append, hnumber]
      by_cases hline : isBlank line = true
      · rw [readRecords_blank hline] at h ⊢
        exact ih h
      · have hline : isBlank line = false := by simpa using hline
        obtain ⟨event, rest, hparse, hchained, hrest, rfl⟩ := (readRecords_cons hline).mp h
        have hsequence : sequence + ((event :: rest).length : Nat) =
            sequence + 1 + (rest.length : Nat) := by
          rw [List.length_cons]
          omega
        rw [readRecords, if_neg (by simp [hline]), hparse, lastDigest_cons, hsequence]
        simp only [bind, Except.bind, checkRecord_ok.mpr hchained, ih hrest]
        cases readRecords now taskId (number + 1 + lines.length)
          (sequence + 1 + (rest.length : Nat)) (lastDigest event.payloadDigest rest) more <;> rfl

/-- Reading goes on behind whole lines where they end. -/
theorem readRecords_append {more : List (List Char)} :
    readRecords now taskId number sequence previous (lines ++ more) = .ok events ↔
      ∃ front back, readRecords now taskId number sequence previous lines = .ok front ∧
        readRecords now taskId (number + lines.length) (sequence + front.length)
          (lastDigest previous front) more = .ok back ∧ events = front ++ back := by
  induction lines generalizing number sequence previous events with
  | nil => simp [readRecords, lastDigest]
  | cons line lines ih =>
      rw [List.cons_append]
      have hnumber : number + (line :: lines).length = number + 1 + lines.length := by
        rw [List.length_cons]
        omega
      by_cases hline : isBlank line = true
      · rw [readRecords_blank hline, readRecords_blank hline, ih, hnumber]
      · have hline : isBlank line = false := by simpa using hline
        rw [readRecords_cons hline, hnumber]
        constructor
        · rintro ⟨event, rest, hparse, hchained, hrest, rfl⟩
          obtain ⟨front, back, hfront, hback, rfl⟩ := ih.mp hrest
          refine ⟨event :: front, back,
            (readRecords_cons hline).mpr ⟨event, front, hparse, hchained, hfront, rfl⟩, ?_, rfl⟩
          rw [lastDigest_cons, List.length_cons]
          convert hback using 2
          omega
        · rintro ⟨front, back, hfront, hback, rfl⟩
          obtain ⟨event, rest, hparse, hchained, hrest, rfl⟩ := (readRecords_cons hline).mp hfront
          refine ⟨event, rest ++ back, hparse, hchained, ih.mpr ⟨rest, back, hrest, ?_, rfl⟩, rfl⟩
          rw [lastDigest_cons, List.length_cons] at hback
          convert hback using 2
          omega

end

/-! ## Writing behind a journal -/

/-- What the journal and the next event must be like for the event to be read back: nothing but
JSON blanks behind the last line boundary, no string that breaks the line, and a payload that
has no other JSON form. -/
structure Appendable (text : List Char) (event : TaskEvent) : Prop where
  whole : (openPart text).all isSpace = true
  unbroken : ∀ c ∈ (Value.dict event).chars, breaksLine c = false
  payload : (Value.dict event.payload).asJson = .dict event.payload

/-! ## Writing behind a journal -/

section
variable {text t : List Char} {events : List TaskEvent} {event : TaskEvent}
  (ht : (Layout.spaced false).write 0 (.dict event) = .ok t)
include ht

omit [LaxInt] in
/-- The first line behind the whole lines of a journal: what was left open, and the text of the
event up to its first boundary. -/
theorem first_line (text : List Char) : ∃ piece lines,
    splitlines (text ++ (t ++ ['\n'])) =
      splitlines (endedPart text) ++ (openPart text ++ piece) :: lines ∧
    (∃ rest, piece = '{' :: rest) ∧
    ((piece = t ∧ lines = [] ∧ ∀ c ∈ t, isBoundary c = false) ∨
      ∃ b rest, t = piece ++ b :: rest ∧ breaksLine b = true) := by
  obtain ⟨⟨rest, hbrace⟩, hboundary⟩ := event_text ht
  have hopen : ∀ c ∈ openPart text, isBoundary c = false := fun c hc =>
    isBoundary_of_mem_openPart hc
  have hhead : (openPart text ++ (t ++ ['\n'])).head? ≠ some '\n' := by
    cases hcase : openPart text with
    | nil => simp [hbrace]
    | cons c cs =>
        rw [List.cons_append, List.head?_cons]
        rintro ⟨⟩
        exact absurd (hopen '\n' (by simp [hcase])) (by decide)
  have hsplit : splitlines (text ++ (t ++ ['\n'])) =
      splitlines (endedPart text) ++ splitlines (openPart text ++ (t ++ ['\n'])) := by
    rw [← splitlines_append (ended_endedPart text) fun _ => hhead, ← List.append_assoc (endedPart text),
      endedPart_append_openPart]
  rw [hsplit]
  by_cases hwhole : ∀ c ∈ t, isBoundary c = false
  · refine ⟨t, [], ?_, ⟨rest, hbrace⟩, Or.inl ⟨rfl, rfl, hwhole⟩⟩
    rw [← List.append_assoc, splitlines_line]
    intro c hc
    rcases List.mem_append.mp hc with hc | hc
    · exact hopen c hc
    · exact hwhole c hc
  · let piece := t.takeWhile fun c => !isBoundary c
    have hpiece : ∀ c ∈ piece, isBoundary c = false := fun c hc => by
      simpa using List.mem_takeWhile_imp hc
    have hne : t.dropWhile (fun c => !isBoundary c) ≠ [] := by
      intro hnil
      apply hwhole
      intro c hc
      simpa using List.dropWhile_eq_nil_iff.mp hnil c hc
    obtain ⟨b, behind, hdrop⟩ := List.exists_cons_of_ne_nil hne
    have hb : isBoundary b = true := by
      have hhead := List.head_dropWhile_not (fun c => !isBoundary c) hne
      simpa [hdrop] using hhead
    have heq : t = piece ++ b :: behind := by
      rw [← hdrop]
      exact List.takeWhile_append_dropWhile.symm
    obtain ⟨lines, hlines⟩ := splitlines_first (fun c hc => by
      rcases List.mem_append.mp hc with hc | hc
      · exact hopen c hc
      · exact hpiece c hc : ∀ c ∈ openPart text ++ piece, isBoundary c = false) hb
      (behind ++ ['\n'])
    refine ⟨piece, lines, ?_, ⟨rest.takeWhile fun c => !isBoundary c, ?_⟩,
      Or.inr ⟨b, behind, heq, (hboundary b (by simp [heq]) hb).2⟩⟩
    · rw [← hlines, heq]
      simp
    · change t.takeWhile (fun c => !isBoundary c) = _
      rw [hbrace, List.takeWhile_cons_of_pos (by decide)]

omit ht [LaxInt] in
/-- The lines of a journal: the whole ones, and what was left open. -/
theorem splitlines_parts (text : List Char) :
    splitlines text = splitlines (endedPart text) ++ splitlines (openPart text) := by
  have hhead : (openPart text).head? ≠ some '\n' := by
    intro hhead
    have hmem : '\n' ∈ openPart text := List.mem_of_mem_head? hhead
    exact absurd (isBoundary_of_mem_openPart hmem) (by decide)
  calc splitlines text = splitlines (endedPart text ++ openPart text) := by
        rw [endedPart_append_openPart]
    _ = _ := splitlines_append (ended_endedPart text) fun _ => hhead

/-- A line that is written where the journal left none open is read if no string breaks it. -/
theorem whole_of_readable (hread : readJournal now taskId text = .ok events)
    {after : List TaskEvent} (h : readJournal now taskId (text ++ (t ++ ['\n'])) = .ok after) :
    (openPart text).all isSpace = true ∧ ∀ c ∈ (Value.dict event).chars, breaksLine c = false := by
  obtain ⟨piece, lines, hlines, ⟨rest, hbrace⟩, hcase⟩ := first_line ht text
  have hloads : (loads (openPart text ++ piece)).isSome = true := by
    rw [readJournal, hlines, readRecords_append] at h
    obtain ⟨front, back, -, hback, -⟩ := h
    have hblank : isBlank (openPart text ++ piece) = false := by
      rw [isBlank, List.all_append, hbrace, List.all_cons, show isWhitespace '{' = false by decide,
        Bool.false_and, Bool.and_false]
    obtain ⟨event', -, hparse, -⟩ := (readRecords_cons hblank).mp hback
    obtain ⟨value, hvalue, -⟩ := parseRecord_ok.mp hparse
    rw [hvalue]
    rfl
  have hspace : (openPart text).all isSpace = true := by
    by_contra hspace
    have hspace : (openPart text).all isSpace = false := by simpa using hspace
    have hnone : loads (openPart text ++ piece) = none := by
      by_cases hblank : isBlank (openPart text) = true
      · exact loads_of_whitespace hblank hspace piece
      · have hblank : isBlank (openPart text) = false := by simpa using hblank
        have hne : openPart text ≠ [] := by
          intro hnil
          rw [hnil] at hspace
          cases hspace
        rw [readJournal, splitlines_parts, splitlines_eq_singleton hne
          (fun c hc => isBoundary_of_mem_openPart hc), readRecords_append] at hread
        obtain ⟨front, back, -, hback, -⟩ := hread
        obtain ⟨event', -, hparse, -⟩ := (readRecords_cons hblank).mp hback
        obtain ⟨value, hvalue, -⟩ := parseRecord_ok.mp hparse
        rw [hbrace]
        exact loads_append (breaks_brace rest) (by rw [hvalue]; rfl)
    rw [hnone] at hloads
    cases hloads
  refine ⟨hspace, fun c hc => ?_⟩
  rcases hcase with ⟨rfl, -, hwhole⟩ | ⟨b, behind, heq, hb⟩
  · by_contra hbreak
    have hbreak : breaksLine c = true := by simpa using hbreak
    have hboundary := isBoundary_of_breaksLine hbreak
    rw [hwhole c ((mem_event_text ht hbreak).mpr hc)] at hboundary
    cases hboundary
  · -- the whole text is a value, so its first piece is none
    have hwhole := (scans_write _ _ ht).loads hspace (List.all_nil : ([] : List Char).all isSpace = true)
    have hcut := loads_append (breaks_of_breaksLine hb behind) hloads
    rw [List.append_nil, heq, ← List.append_assoc, hcut] at hwhole
    cases hwhole

/-- The journal with such a line: its events, and the one that the line is read as. -/
theorem readJournal_line (hread : readJournal now taskId text = .ok events)
    (hspace : (openPart text).all isSpace = true)
    (hunbroken : ∀ c ∈ (Value.dict event).chars, breaksLine c = false) {after : List TaskEvent} :
    readJournal now taskId (text ++ (t ++ ['\n'])) = .ok after ↔
      ∃ event', validate (eventFields now) (Value.dict event).asJson = .ok event' ∧
        Chained taskId (1 + events.length) (lastDigest "" events) event' ∧
        after = events ++ [event'] := by
  have hblank : isBlank (openPart text) = true := by
    rw [isBlank, List.all_eq_true]
    exact fun c hc => isWhitespace_of_isSpace (List.all_eq_true.mp hspace c hc)
  have hwhole : readRecords now taskId 1 1 "" (splitlines (endedPart text)) = .ok events := by
    rw [readJournal, splitlines_parts, readRecords_append] at hread
    obtain ⟨front, back, hfront, hback, rfl⟩ := hread
    have hnil : back = [] := by
      by_cases hne : openPart text = []
      · rw [hne] at hback
        cases hback
        rfl
      · rw [splitlines_eq_singleton hne (fun c hc => isBoundary_of_mem_openPart hc),
          readRecords_blank hblank] at hback
        cases hback
        rfl
    rw [hnil, List.append_nil]
    exact hfront
  obtain ⟨piece, lines, hlines, ⟨rest, hbrace⟩, hcase⟩ := first_line ht text
  obtain ⟨rfl, rfl⟩ : piece = t ∧ lines = [] := by
    rcases hcase with ⟨hpiece, hnil, -⟩ | ⟨b, behind, heq, hb⟩
    · exact ⟨hpiece, hnil⟩
    · have hmem := (mem_event_text ht hb).mp (by simp [heq])
      rw [hunbroken b hmem] at hb
      cases hb
  have hloads : loads (openPart text ++ piece) = some (Value.dict event).asJson := by
    have hall := (scans_write _ _ ht).loads hspace (List.all_nil : ([] : List Char).all isSpace = true)
    rwa [List.append_nil] at hall
  have hnonblank : isBlank (openPart text ++ piece) = false := by
    rw [isBlank, List.all_append, hbrace, List.all_cons, show isWhitespace '{' = false by decide,
      Bool.false_and, Bool.and_false]
  rw [readJournal, hlines, readRecords_append]
  constructor
  · rintro ⟨front, back, hfront, hback, rfl⟩
    rw [hwhole] at hfront
    cases hfront
    obtain ⟨event', rest', hparse, hchained, hrest, rfl⟩ := (readRecords_cons hnonblank).mp hback
    cases hrest
    obtain ⟨value, hvalue, hvalid⟩ := parseRecord_ok.mp hparse
    rw [hloads] at hvalue
    cases hvalue
    exact ⟨event', hvalid, hchained, rfl⟩
  · rintro ⟨event', hvalid, hchained, rfl⟩
    exact ⟨events, [event'], hwhole, (readRecords_cons hnonblank).mpr
      ⟨event', [], parseRecord_ok.mpr ⟨_, hloads, hvalid⟩, hchained, rfl, rfl⟩, rfl⟩

/-- **Writing behind a journal.**  An event that follows those of a readable journal is read back
behind them exactly when it can be appended to its text. -/
theorem readJournal_append (hread : readJournal now taskId text = .ok events)
    (hevent : Instance (eventFields now) event)
    (hchained : Chained taskId (1 + events.length) (lastDigest "" events) event) :
    readJournal now taskId (text ++ (t ++ ['\n'])) = .ok (events ++ [event]) ↔
      Appendable text event := by
  constructor
  · intro h
    obtain ⟨hspace, hunbroken⟩ := whole_of_readable ht hread h
    obtain ⟨event', hvalid, -, heq⟩ := (readJournal_line ht hread hspace hunbroken).mp h
    obtain rfl : event = event' := by simpa using heq
    exact ⟨hspace, hunbroken, (event_readBack hevent).mp hvalid⟩
  · rintro ⟨hspace, hunbroken, hpayload⟩
    exact (readJournal_line ht hread hspace hunbroken).mpr
      ⟨event, (event_readBack hevent).mpr hpayload, hchained, rfl⟩

end

end PowerFramework.Task
