import PowerFramework.Lib.JsonSize
import PowerFramework.Task.ReadBack
import PowerFramework.Task.Tampering
/-!
# The journal of a task on disk

A saved event is read back behind those of the journal exactly when it can be appended to its
text (`getTaskEvents_saved`), and a journal with a record replaced is refused exactly when the
change is noticed or breaks its line (`getTaskEvents_tampered`).
-/

namespace PowerFramework.Task

open Lib Lib.Failure Lib.Json Lib.Splitlines Ledger TaskStore

section
variable [LaxInt] {now taskId : String} {files files' : Files} {events : List TaskEvent}

/-- What a save leaves is read as its event behind those of its task exactly when the event can
be appended to their text. -/
theorem getTaskEvents_of_saved {now' : String} {task : PowerTask} {event : TaskEvent}
    {receipt : Option TaskCompletionReceipt} (hsaved : Saved now files files' task event receipt)
    (hread : getTaskEvents now' files task.taskId 0 false = .ok events)
    (hevent : Instance (eventFields now') event)
    (hchained : Chained task.taskId (1 + events.length) (lastDigest "" events) event) :
    getTaskEvents now' files' task.taskId 0 false = .ok (events ++ [event]) ↔
      Appendable (journalOf files task.taskId) event := by
  obtain ⟨line, hline, hjournal, hsize⟩ := hsaved.journal
  obtain ⟨t, ht, rfl⟩ := map_eq_ok.mp hline
  obtain ⟨htoken, -, hread, -⟩ := getTaskEvents_ok.mp hread
  have hjournalOf : journalOf files' task.taskId = journalOf files task.taskId ++ (t ++ ['\n']) := by
    rw [journalOf, hjournal, Option.bind_some, Utf8.decode_encode, Option.getD_some]
  rw [getTaskEvents_ok, hjournalOf, readJournal_append ht hread hevent hchained]
  constructor
  · rintro ⟨-, -, happendable, -⟩
    exact happendable
  · intro happendable
    refine ⟨htoken, fun data hdata => ?_, happendable, fun _ _ => by simp⟩
    rw [hjournal] at hdata
    cases hdata
    exact ⟨hsize, rfl⟩

/-- **Round trip of the journal.**  The event of a save that succeeds is read back behind the
events of its task exactly when it can be appended to their text. -/
theorem getTaskEvents_saved {now' : String} {task : PowerTask} {event : TaskEvent}
    {receipt : Option TaskCompletionReceipt}
    (hread : getTaskEvents now' files task.taskId 0 false = .ok events)
    (hevent : Instance (eventFields now') event)
    (hchained : Chained task.taskId (1 + events.length) (lastDigest "" events) event)
    (h : saveTask now files task (some event) receipt = .ok files') :
    getTaskEvents now' files' task.taskId 0 false = .ok (events ++ [event]) ↔
      Appendable (journalOf files task.taskId) event :=
  getTaskEvents_of_saved (saveTask_saved h) hread hevent hchained

end

/-! ### A first event -/

section
attribute [local instance] LaxInt.intOnly

def sampleTime : String := "2026-01-01T00:00:00+00:00"

def sampleTask : PowerTask := [
  ("artifact_refs", .list []), ("assignee", .null), ("attempt", .int 0),
  ("authority", .str "read-only"), ("completion_policy", .str "standard"),
  ("created_at", .str sampleTime), ("dead_letter_reason", .null), ("dependencies", .list []),
  ("due_at", .null), ("error_ref", .null), ("execution_state", .str "none"),
  ("external_refs", .dict []), ("heartbeat_at", .null), ("kind", .str "human"),
  ("lease_expires_at", .null), ("lease_owner", .null), ("max_attempts", .int 3),
  ("next_action", .str "inspect"), ("objective", .str ""), ("open_gates", .list []),
  ("owner", .str "local"), ("priority", .str "normal"), ("receipt_ids", .list []),
  ("required_input", .null), ("retry_at", .null), ("revision", .int 1), ("scope", .list []),
  ("source_revision", .str ""), ("state", .str "backlog"), ("task_id", .str "t"),
  ("tenant_id", .str "local"), ("title", .str "T"), ("updated_at", .str sampleTime),
  ("vault_id", .str "default")]

/-- The `n`th event of the task, with this note in its payload. -/
def sampleEvent (n : Int) (actor note digest previous : String) : TaskEvent := [
  ("actor", .str actor), ("created_at", .str sampleTime),
  ("event_id", .str ("evt_" ++ "t" ++ "_" ++ toString n ++ "_" ++ toString (0 : Int))),
  ("event_type", .str "task_created"), ("payload", .dict [("note", .str note)]),
  ("payload_digest", .str digest), ("prev_event_digest", .str previous), ("sequence", .int n),
  ("task_id", .str "t")]

theorem text_sampleTask : ∃ text, taskText sampleTask = .ok text ∧
    (Utf8.encode text).length ≤ maxTaskStateBytes := by
  obtain ⟨text, htext, hlength⟩ := exists_write (Layout.indented 2 false) (.dict sampleTask) 0 rfl
  have hweight : (Layout.indented 2 false).weight 0 (.dict sampleTask) ≤ 100000 := by decide
  have hencode := Utf8.length_encode_le text
  refine ⟨text, htext, ?_⟩
  rw [maxTaskStateBytes]
  omega

theorem line_sampleEvent {n : Int} (hn : n = 1 ∨ n = 2) {actor note digest previous : String}
    (hactor : actor.toList.length = 5) (hnote : note.toList.length = 1)
    (hdigest : digest.toList.length = 64)
    (hprevious : previous.toList.length = 0 ∨ previous.toList.length = 64) :
    ∃ line, eventLine (sampleEvent n actor note digest previous) = .ok line ∧
      (Utf8.encode line).length ≤ 100000 := by
  have hwritable : (Value.dict (sampleEvent n actor note digest previous)).writable = true := by
    rcases hn with rfl | rfl <;> rfl
  obtain ⟨text, htext, hlength⟩ := exists_write (Layout.spaced false) _ 0 hwritable
  have hweight : (Layout.spaced false).weight 0
      (.dict (sampleEvent n actor note digest previous)) ≤ 20000 := by
    simp only [sampleEvent, Layout.weight, Layout.weightDict, hactor, hnote, hdigest]
    rcases hn with rfl | rfl <;> rcases hprevious with hprevious | hprevious <;>
      rw [hprevious] <;> decide
  have hencode := Utf8.length_encode_le (text ++ ['\n'])
  refine ⟨text ++ ['\n'], map_eq_ok.mpr ⟨text, htext, rfl⟩, ?_⟩
  rw [List.length_append, List.length_singleton] at hencode
  omega

theorem breaksLine_hexdigest {message : List UInt8} {c : Char}
    (hc : c ∈ (Sha256.hexdigest message).toList) : breaksLine c = false := by
  have hdigit := Sha256.isHexDigit_of_mem_hexdigest hc
  simp only [Sha256.isHexDigit, Bool.or_eq_true, Bool.and_eq_true, decide_eq_true_eq] at hdigit
  simp only [breaksLine, Bool.or_eq_false_iff, beq_eq_false_iff_ne]
  omega

/-- The digest of a payload with a note. -/
theorem digest_note (note : String) :
    ∃ digest, canonicalPayloadDigest [("note", .str note)] = .ok digest ∧
      digest.toList.length = 64 ∧ ∀ c ∈ digest.toList, breaksLine c = false := by
  obtain ⟨text, htext, -⟩ :=
    exists_write (Layout.spaced true) (.dict [("note", .str note)]) 0 rfl
  exact ⟨_, map_eq_ok.mpr ⟨text, htext, rfl⟩, Sha256.length_hexdigest _,
    fun c hc => breaksLine_hexdigest hc⟩

theorem unbroken_sampleEvent {n : Int} (hn : n = 1 ∨ n = 2) {actor note digest previous : String}
    (hactor : ∀ c ∈ actor.toList, breaksLine c = false)
    (hnote : ∀ c ∈ note.toList, breaksLine c = false)
    (hdigest : ∀ c ∈ digest.toList, breaksLine c = false)
    (hprevious : ∀ c ∈ previous.toList, breaksLine c = false) :
    ∀ c ∈ (Value.dict (sampleEvent n actor note digest previous)).chars, breaksLine c = false := by
  simp only [sampleEvent, Value.chars, charsDict, List.forall_mem_append]
  rcases hn with rfl | rfl
  all_goals
    repeat' apply And.intro
    all_goals first | assumption | decide

theorem chained_sampleEvent {n : Int} {actor note digest previous : String}
    (hdigest : canonicalPayloadDigest [("note", .str note)] = .ok digest) :
    Chained "t" n previous (sampleEvent n actor note digest previous) where
  taskId := rfl
  sequence := rfl
  previous := rfl
  digest := hdigest

theorem instance_sampleEvent {n : Int} (hn : n = 1 ∨ n = 2) (actor note digest previous : String) :
    Instance (eventFields "") (sampleEvent n actor note digest previous) := by
  have hvalid : validate (eventFields "") (.dict (sampleEvent n actor note digest previous)) =
      .ok (sampleEvent n actor note digest previous) := by
    rcases hn with rfl | rfl <;> rfl
  exact event_instance hvalid

/-- A first event of the task is saved. -/
theorem saved_sampleEvent {note digest previous : String} (hnote : note.toList.length = 1)
    (hdigest : digest.toList.length = 64)
    (hprevious : previous.toList.length = 0 ∨ previous.toList.length = 64) :
    ∃ files', saveTask "" (fun _ => none) sampleTask
      (some (sampleEvent 1 "alice" note digest previous)) none = .ok files' := by
  have hactor : "alice".toList.length = 5 := by decide
  obtain ⟨line, hline, hlength⟩ :=
    line_sampleEvent (Or.inl rfl) hactor hnote hdigest hprevious
  apply saveTask_of
  exact
    { token := by decide
      taskId := rfl
      unchecked := by
        change (1 : Int) % 5 ≠ 0
        decide
      checkpoint := rfl
      paths := by
        have htouched : touchedBySave sampleTask
            (some (sampleEvent 1 "alice" note digest previous)) none =
            [(tasksDir ++ ["t.json"], "snapshot"), (tasksDir ++ ["events", "t.jsonl"], "event")] :=
          rfl
        have htype : TaskEvent.eventType (sampleEvent 1 "alice" note digest previous) =
            "task_created" := rfl
        rw [htouched, htype]
        intro artifact hmem
        rcases List.mem_cons.mp hmem with rfl | hmem
        · exact ⟨tasksDir ++ ["t.json"], by decide⟩
        · rw [List.mem_singleton.mp hmem]
          exact ⟨tasksDir ++ ["events", "t.jsonl"], by decide⟩
      sizes := by simp
      stored := by simp
      journal := ⟨[], rfl, by simp⟩
      snapshot := text_sampleTask
      line := ⟨line, hline, by
        change (Utf8.encode ([] ++ line)).length ≤ maxTaskStateBytes
        rw [List.nil_append, maxTaskStateBytes]
        omega⟩
      certificate := by simp }

/-- The event of a note without line boundaries is read back. -/
theorem getTaskEvents_saved_note : ∃ event files',
    saveTask "" (fun _ => none) sampleTask (some event) none = .ok files' ∧
      getTaskEvents "" files' "t" 0 false = .ok [event] := by
  obtain ⟨digest, hdigest, hlength, hhex⟩ := digest_note "n"
  obtain ⟨files', hsaved⟩ := saved_sampleEvent (by decide : "n".toList.length = 1) hlength
    (by decide : "".toList.length = 0 ∨ "".toList.length = 64)
  have happendable : Appendable (journalOf (fun _ => none) "t")
      (sampleEvent 1 "alice" "n" digest "") :=
    { whole := rfl
      unbroken := unbroken_sampleEvent (Or.inl rfl) (by decide) (by decide) hhex (by decide)
      payload := rfl }
  have hread : getTaskEvents "" (fun _ => none) (PowerTask.taskId sampleTask) 0 false = .ok [] := rfl
  have hchained : Chained (PowerTask.taskId sampleTask) (1 + ([] : List TaskEvent).length)
      (lastDigest "" []) (sampleEvent 1 "alice" "n" digest "") := chained_sampleEvent hdigest
  exact ⟨_, files', hsaved, (getTaskEvents_saved hread (instance_sampleEvent (Or.inl rfl) ..)
    hchained hsaved).mpr happendable⟩

/-- A note with the line separator U+2028 makes the journal unreadable. -/
theorem getTaskEvents_separator : ∃ event files', Instance (eventFields "") event ∧
    Chained "t" 1 "" event ∧ getTaskEvents "" (fun _ => none) "t" 0 false = .ok [] ∧
    saveTask "" (fun _ => none) sampleTask (some event) none = .ok files' ∧
    ∀ events, getTaskEvents "" files' "t" 0 false ≠ .ok events := by
  obtain ⟨digest, hdigest, hlength, -⟩ := digest_note "\u2028"
  obtain ⟨files', hsaved⟩ := saved_sampleEvent (by decide : "\u2028".toList.length = 1) hlength
    (by decide : "".toList.length = 0 ∨ "".toList.length = 64)
  refine ⟨_, files', instance_sampleEvent (Or.inl rfl) .., chained_sampleEvent hdigest, rfl, hsaved,
    fun events hread => ?_⟩
  obtain ⟨line, hline, hjournal, -⟩ := (saveTask_saved hsaved).journal
  obtain ⟨t, ht, rfl⟩ := map_eq_ok.mp hline
  obtain ⟨-, -, hread, -⟩ := getTaskEvents_ok.mp hread
  have hjournalOf : journalOf files' "t" = [] ++ (t ++ ['\n']) := by
    change files' (eventsPath "t") = some (Utf8.encode ([] ++ (t ++ ['\n']))) at hjournal
    rw [journalOf, hjournal, Option.bind_some, Utf8.decode_encode, Option.getD_some]
  rw [hjournalOf] at hread
  have hempty : readJournal "" "t" [] = .ok [] := rfl
  have hunbroken := (whole_of_readable ht hempty hread).2 '\u2028' (by
    simp [sampleEvent, Value.chars, charsDict])
  exact absurd hunbroken (by decide)

end

/-! ## Records replaced -/

section
variable [LaxInt] {now taskId : String} {files files' : Files} {events : List TaskEvent}

omit [LaxInt] in
/-- The text of an event up to the first character that breaks its line. -/
theorem broken_piece {event : TaskEvent} {t : List Char}
    (ht : (Layout.spaced false).write 0 (.dict event) = .ok t) {c : Char} (hc : c ∈ t)
    (hboundary : isBoundary c = true) :
    ∃ piece b rest, t = piece ++ b :: rest ∧ (∀ d ∈ piece, isBoundary d = false) ∧
      isBlank piece = false ∧ isBoundary b = true ∧ loads piece = none := by
  obtain ⟨⟨behind, hbrace⟩, hchars⟩ := event_text ht
  let piece := t.takeWhile fun c => !isBoundary c
  have hne : t.dropWhile (fun c => !isBoundary c) ≠ [] := by
    intro hnil
    have := List.dropWhile_eq_nil_iff.mp hnil c hc
    rw [hboundary] at this
    cases this
  obtain ⟨b, rest, hdrop⟩ := List.exists_cons_of_ne_nil hne
  have hb : isBoundary b = true := by
    have hhead := List.head_dropWhile_not (fun c => !isBoundary c) hne
    simpa [hdrop] using hhead
  have heq : t = piece ++ b :: rest := by
    rw [← hdrop]
    exact List.takeWhile_append_dropWhile.symm
  have hpiece : piece = '{' :: behind.takeWhile fun c => !isBoundary c := by
    change t.takeWhile (fun c => !isBoundary c) = _
    rw [hbrace, List.takeWhile_cons_of_pos (by decide)]
  refine ⟨piece, b, rest, heq, fun d hd => ?_, ?_, hb, ?_⟩
  · simpa using List.mem_takeWhile_imp hd
  · rw [hpiece, isBlank, List.all_cons, show isWhitespace '{' = false by decide, Bool.false_and]
  · cases hloads : loads piece with
    | none => rfl
    | some value =>
        -- the whole text is a value, so its first piece is none
        have hwhole := (scans_write _ _ ht).loads (List.all_nil : ([] : List Char).all isSpace = true)
          (List.all_nil : ([] : List Char).all isSpace = true)
        have hbreak := (hchars b (by simp [heq]) hb).2
        have hcut := loads_append (breaks_of_breaksLine hbreak rest) (by rw [hloads]; rfl)
        rw [List.append_nil, List.nil_append, heq, hcut] at hwhole
        cases hwhole

/-- A journal is refused when a record of it is cut by a line boundary. -/
theorem refused_of_broken {event : TaskEvent} {t before after : List Char} {front : List TaskEvent}
    (ht : (Layout.spaced false).write 0 (.dict event) = .ok t) (hbefore : Ended before)
    (hread : readRecords now taskId 1 1 "" (splitlines before) = .ok front) {c : Char}
    (hc : c ∈ t) (hboundary : isBoundary c = true) :
    Refused (readJournal now taskId (before ++ (t ++ '\n' :: after))) := by
  obtain ⟨piece, b, rest, heq, hpiece, hblank, hb, hloads⟩ := broken_piece ht hc hboundary
  obtain ⟨lines, hlines⟩ := splitlines_first hpiece hb (rest ++ '\n' :: after)
  have hhead : (t ++ '\n' :: after).head? ≠ some '\n' := by
    obtain ⟨⟨behind, hbrace⟩, -⟩ := event_text ht
    simp [hbrace]
  have hsplit : splitlines (before ++ (t ++ '\n' :: after)) =
      splitlines before ++ piece :: lines := by
    rw [splitlines_append hbefore fun _ => hhead, ← hlines, heq]
    simp
  obtain ⟨message, hparse⟩ : ∃ message,
      parseRecord now taskId (1 + (splitlines before).length) piece =
        .error (journalIntegrityError message) := by
    rw [parseRecord, hloads]
    exact ⟨_, rfl⟩
  refine ⟨message, ?_⟩
  rw [readJournal, hsplit, readRecords_behind hread, map_eq_error, readRecords,
    if_neg (by simp [hblank]), hparse]
  rfl

/-- What a tampered journal raises is what reading its text raises. -/
theorem refused_getTaskEvents {text : List Char} (htoken : isTaskId taskId = true)
    (hblank : isBlank text = false)
    (hne : ∀ events, readJournal now taskId text = .ok events → events ≠ []) :
    Refused (getTaskEvents now (atomicWrite (eventsPath taskId) text files) taskId 0 false) ↔
      (Utf8.encode text).length ≤ maxTaskStateBytes ∧ Refused (readJournal now taskId text) := by
  have hpath : eventsFile taskId = .ok (eventsPath taskId) :=
    bind_eq_ok.mpr ⟨⟨⟩, raiseIf_eq_ok.mpr (by simp [htoken]), rfl⟩
  have hbody : getTaskEvents now (atomicWrite (eventsPath taskId) text files) taskId 0 false =
      (do
        let text' ← secureText (Utf8.encode text)
        raiseIf (Splitlines.isBlank text' &&
            ((atomicWrite (eventsPath taskId) text files (taskPath taskId)).isSome && !false))
          (journalIntegrityError "Task event journal is empty")
        let events ← readJournal now taskId text'
        raiseIf (events.isEmpty &&
            ((atomicWrite (eventsPath taskId) text files (taskPath taskId)).isSome && !false))
          (journalIntegrityError "Task event journal is empty")
        return events.filter (0 < TaskEvent.sequence ·)) := by
    rw [getTaskEvents, hpath]
    simp only [bind, Except.bind, atomicWrite_self]
  rw [hbody]
  by_cases hsize : (Utf8.encode text).length ≤ maxTaskStateBytes
  · have htext : secureText (Utf8.encode text) = .ok text := secureText_ok.mpr ⟨hsize, rfl⟩
    rw [htext]
    simp only [hsize, true_and]
    cases hread : readJournal now taskId text with
    | error e => simp [Refused, bind, Except.bind, raiseIf, hblank, hread]
    | ok events =>
        have hsome := hne events hread
        simp [Refused, bind, Except.bind, raiseIf, hblank, hread, hsome, pure, Except.pure]
  · have htext : secureText (Utf8.encode text) =
        .error (valueError "task state file is not a bounded regular file") := by
      rw [secureText, raiseIf, if_pos (Nat.not_le.mp hsize)]
      rfl
    rw [htext]
    simp [Refused, bind, Except.bind, hsize, valueError, journalIntegrityError]

/-- **Tampering with the journal.**  A journal in which the text of another record stands in the
place of one that has a successor is refused exactly when the change is noticed or the new text
breaks its line, as long as the file is not too large to be read. -/
theorem getTaskEvents_tampered {before after line t : List Char} {event event' : TaskEvent}
    (hread : getTaskEvents now files taskId 0 false = .ok events)
    (hjournal : journalOf files taskId = before ++ (line ++ '\n' :: after))
    (hbefore : Ended before) (hline : ∀ c ∈ line, isBoundary c = false)
    (hparse : parseRecord now taskId ((splitlines before).length + 1) line = .ok event)
    (hafter : ∃ line ∈ splitlines after, isBlank line = false)
    (hevent' : Instance (eventFields now) event')
    (hplain : (Value.dict event'.payload).asJson = .dict event'.payload)
    (ht : (Layout.spaced false).write 0 (.dict event') = .ok t)
    (hdiffer : DigestsDiffer event.payload event'.payload) :
    Refused (getTaskEvents now
        (atomicWrite (eventsPath taskId) (before ++ (t ++ '\n' :: after)) files) taskId 0 false) ↔
      (Utf8.encode (before ++ (t ++ '\n' :: after))).length ≤ maxTaskStateBytes ∧
        (Noticed event event' ∨ ∃ c ∈ (Value.dict event').chars, breaksLine c = true) := by
  obtain ⟨htoken, -, hread, -⟩ := getTaskEvents_ok.mp hread
  rw [hjournal] at hread
  obtain ⟨⟨rest, hbrace⟩, hboundary⟩ := event_text ht
  have hblank : isBlank (before ++ (t ++ '\n' :: after)) = false := by
    rw [isBlank, hbrace, List.all_append, List.cons_append, List.all_cons,
      show isWhitespace '{' = false by decide, Bool.false_and, Bool.and_false]
  have hloads : loads t = some (Value.dict event').asJson := loads_write ht
  have hparse' : parseRecord now taskId ((splitlines before).length + 1) t = .ok event' :=
    parseRecord_ok.mpr ⟨_, hloads, (event_readBack hevent').mpr hplain⟩
  have hnonblank := nonblank_of_parseRecord hparse'
  have hfront : ∃ front, readRecords now taskId 1 1 "" (splitlines before) = .ok front := by
    have hhead : (line ++ '\n' :: after).head? ≠ some '\n' := by
      cases line with
      | nil => cases nonblank_of_parseRecord hparse
      | cons c line =>
          rw [List.cons_append, List.head?_cons]
          rintro ⟨⟩
          exact absurd (hline '\n' (by simp)) (by decide)
    rw [readJournal, splitlines_append hbefore fun _ => hhead, readRecords_append] at hread
    obtain ⟨front, back, hfront, -⟩ := hread
    exact ⟨front, hfront⟩
  obtain ⟨front, hfront⟩ := hfront
  by_cases hbroken : ∃ c ∈ (Value.dict event').chars, breaksLine c = true
  · obtain ⟨c, hc, hbreak⟩ := hbroken
    have hrefused : Refused (readJournal now taskId (before ++ (t ++ '\n' :: after))) :=
      refused_of_broken ht hbefore hfront ((mem_event_text ht hbreak).mpr hc)
        (isBoundary_of_breaksLine hbreak)
    rw [refused_getTaskEvents htoken hblank]
    · exact and_congr_right fun _ => iff_of_true hrefused (Or.inr ⟨c, hc, hbreak⟩)
    · intro events hok
      obtain ⟨message, herror⟩ := hrefused
      rw [herror] at hok
      cases hok
  · have hwhole : ∀ c ∈ t, isBoundary c = false := by
      intro c hc
      by_contra hne
      obtain ⟨hmem, hbreak⟩ := hboundary c hc (by simpa using hne)
      exact hbroken ⟨c, hmem, hbreak⟩
    rw [refused_getTaskEvents htoken hblank,
      readJournal_tampered hread hbefore hline hwhole hparse hparse' hafter hdiffer]
    · exact and_congr_right fun _ => ⟨Or.inl, fun h => h.resolve_right hbroken⟩
    · rintro events hok rfl
      have hhead : (t ++ '\n' :: after).head? ≠ some '\n' := by simp [hbrace]
      rw [readJournal, splitlines_append hbefore fun _ => hhead, splitlines_line_append hwhole,
        readRecords_append] at hok
      obtain ⟨front, back, -, hback, heq⟩ := hok
      obtain ⟨event₀, back', -, -, -, rfl⟩ := (readRecords_cons hnonblank).mp hback
      simp at heq

end

/-! ### A changed actor -/

section
attribute [local instance] LaxInt.intOnly

/-- The text of a first event by either of two actors. -/
theorem text_sampleEvent {actor digest : String} (hactor : actor.toList.length = 5)
    (hwhole : ∀ c ∈ actor.toList, breaksLine c = false) (hlength : digest.toList.length = 64)
    (hhex : ∀ c ∈ digest.toList, breaksLine c = false) :
    ∃ t, (Layout.spaced false).write 0 (.dict (sampleEvent 1 actor "n" digest "")) = .ok t ∧
      (∀ c ∈ t, isBoundary c = false) ∧ (Utf8.encode (t ++ ['\n'])).length ≤ 100000 ∧
      parseRecord "" "t" 1 t = .ok (sampleEvent 1 actor "n" digest "") := by
  have hnote : "n".toList.length = 1 := by decide
  have hempty : "".toList.length = 0 ∨ "".toList.length = 64 := by decide
  obtain ⟨line, hline, hsize⟩ := line_sampleEvent (Or.inl rfl) hactor hnote hlength hempty
  obtain ⟨t, ht, rfl⟩ := map_eq_ok.mp hline
  have hunbroken := @unbroken_sampleEvent 1 (Or.inl rfl) actor "n" digest ""
    hwhole (by decide) hhex (by decide)
  refine ⟨t, ht, fun c hc => ?_, hsize, parseRecord_ok.mpr ⟨_, loads_write ht,
    (event_readBack (instance_sampleEvent (Or.inl rfl) ..)).mpr rfl⟩⟩
  by_contra hne
  obtain ⟨hmem, hbreak⟩ := (event_text ht).2 c hc (by simpa using hne)
  rw [hunbroken c hmem] at hbreak
  cases hbreak

/-- A second event behind the first one. -/
theorem journal_sampleEvent {digest : String} {t : List Char}
    (hdigest : canonicalPayloadDigest [("note", .str "n")] = .ok digest)
    (hlength : digest.toList.length = 64) (hhex : ∀ c ∈ digest.toList, breaksLine c = false)
    (ht : (Layout.spaced false).write 0 (.dict (sampleEvent 1 "alice" "n" digest "")) = .ok t) :
    ∃ rest, readJournal "" "t" (t ++ '\n' :: rest) = .ok [sampleEvent 1 "alice" "n" digest "",
        sampleEvent 2 "alice" "n" digest digest] ∧
      (∃ line ∈ splitlines rest, isBlank line = false) ∧ (Utf8.encode rest).length ≤ 100000 := by
  have hactor : "alice".toList.length = 5 := by decide
  have hnote : "n".toList.length = 1 := by decide
  obtain ⟨last, hlast, hsize⟩ :=
    line_sampleEvent (Or.inr rfl) hactor hnote hlength (Or.inr hlength)
  obtain ⟨s, hs, rfl⟩ := map_eq_ok.mp hlast
  have hunbroken := @unbroken_sampleEvent 1 (Or.inl rfl) "alice" "n" digest ""
    (by decide) (by decide) hhex (by decide)
  have hunbroken₂ := @unbroken_sampleEvent 2 (Or.inr rfl) "alice" "n" digest digest
    (by decide) (by decide) hhex hhex
  have hempty : readJournal "" "t" [] = .ok [] := rfl
  have hfirst := (readJournal_append ht hempty (instance_sampleEvent (Or.inl rfl) ..)
      (chained_sampleEvent hdigest)).mpr ⟨rfl, hunbroken, rfl⟩
  have hopen : openPart ([] ++ (t ++ ['\n'])) = [] := by
    rw [openPart, List.nil_append, List.rtakeWhile_concat_neg _ _ _ (by decide)]
  have hboth := (readJournal_append hs hfirst (instance_sampleEvent (Or.inr rfl) ..)
      (chained_sampleEvent hdigest)).mpr ⟨by rw [hopen]; rfl, hunbroken₂, rfl⟩
  refine ⟨s ++ ['\n'], ?_, ⟨s, ?_, ?_⟩, hsize⟩
  · rw [List.nil_append, List.nil_append, List.singleton_append, List.append_assoc] at hboth
    exact hboth
  · have hwhole : ∀ c ∈ s, isBoundary c = false := by
      intro c hc
      by_contra hne
      obtain ⟨hmem, hbreak⟩ := (event_text hs).2 c hc (by simpa using hne)
      rw [hunbroken₂ c hmem] at hbreak
      cases hbreak
    rw [splitlines_line hwhole]
    exact List.mem_singleton_self s
  · obtain ⟨⟨behind, hbrace⟩, -⟩ := event_text hs
    rw [isBlank, hbrace, List.all_cons, show isWhitespace '{' = false by decide, Bool.false_and]

/-- The files with nothing but a journal of the task. -/
def journalFiles (text : List Char) : Files := atomicWrite (eventsPath "t") text fun _ => none

theorem journalOf_journalFiles (text : List Char) : journalOf (journalFiles text) "t" = text := by
  rw [journalOf, journalFiles, atomicWrite_self, Option.bind_some, Utf8.decode_encode,
    Option.getD_some]

theorem getTaskEvents_journalFiles {text : List Char} {events : List TaskEvent}
    (hread : readJournal "" "t" text = .ok events)
    (hsize : (Utf8.encode text).length ≤ maxTaskStateBytes) :
    getTaskEvents "" (journalFiles text) "t" 0 false = .ok events := by
  rw [getTaskEvents_ok, journalOf_journalFiles]
  have hnone : journalFiles text (taskPath "t") = none :=
    atomicWrite_of_ne (taskPath_ne_eventsPath "t" "t") ..
  refine ⟨by decide, fun data hdata => ?_, hread, by simp [hnone]⟩
  rw [journalFiles, atomicWrite_self] at hdata
  cases hdata
  exact ⟨hsize, rfl⟩

theorem not_noticed_sampleEvent (digest : String) :
    ¬ Noticed (sampleEvent 1 "alice" "n" digest "") (sampleEvent 1 "mallo" "n" digest "") := by
  rintro (h | h | h | ⟨-, h | h⟩) <;> exact h rfl

theorem length_sample_journal {t rest : List Char}
    (ht : (Utf8.encode (t ++ ['\n'])).length ≤ 100000)
    (hrest : (Utf8.encode rest).length ≤ 100000) :
    (Utf8.encode (t ++ '\n' :: rest)).length ≤ maxTaskStateBytes := by
  have hsplit : t ++ '\n' :: rest = (t ++ ['\n']) ++ rest := by simp
  rw [hsplit, Utf8.encode_append, List.length_append, maxTaskStateBytes]
  omega

/-- With another actor in its first record the journal is read as before. -/
theorem getTaskEvents_tampered_actor : ∃ (t t' rest : List Char) (event event' : TaskEvent),
    textOf event "actor" = "alice" ∧ textOf event' "actor" = "mallo" ∧
    (Refused (getTaskEvents "" (atomicWrite (eventsPath "t") ([] ++ (t' ++ '\n' :: rest))
        (journalFiles (t ++ '\n' :: rest))) "t" 0 false) ↔
      (Utf8.encode ([] ++ (t' ++ '\n' :: rest))).length ≤ maxTaskStateBytes ∧
        (Noticed event event' ∨ ∃ c ∈ (Value.dict event').chars, breaksLine c = true)) := by
  obtain ⟨digest, hdigest, hlength, hhex⟩ := digest_note "n"
  obtain ⟨t, ht, hwhole, hsize, hparse⟩ :=
    text_sampleEvent (by decide : "alice".toList.length = 5) (by decide) hlength hhex
  obtain ⟨t', ht', -, -, -⟩ :=
    text_sampleEvent (by decide : "mallo".toList.length = 5) (by decide) hlength hhex
  obtain ⟨rest, hread, hbehind, hrest⟩ := journal_sampleEvent hdigest hlength hhex ht
  have hjournal : journalOf (journalFiles (t ++ '\n' :: rest)) "t" =
      [] ++ (t ++ '\n' :: rest) := journalOf_journalFiles _
  have hdiffer : DigestsDiffer (TaskEvent.payload (sampleEvent 1 "alice" "n" digest ""))
      (TaskEvent.payload (sampleEvent 1 "mallo" "n" digest "")) := by
    intro text text' htext htext' _
    exact Except.ok.inj (htext.symm.trans htext')
  exact ⟨t, t', rest, sampleEvent 1 "alice" "n" digest "", sampleEvent 1 "mallo" "n" digest "",
    rfl, rfl, getTaskEvents_tampered
      (getTaskEvents_journalFiles hread (length_sample_journal hsize hrest)) hjournal (Or.inl rfl)
      hwhole hparse hbehind (instance_sampleEvent (Or.inl rfl) ..) rfl ht' hdiffer⟩

/-- A journal of two events whose first record can be given another actor unnoticed. -/
theorem getTaskEvents_forged_actor : ∃ (t t' rest : List Char) (event event' second : TaskEvent),
    (Layout.spaced false).write 0 (.dict event) = .ok t ∧
    (Layout.spaced false).write 0 (.dict event') = .ok t' ∧
    textOf event "actor" = "alice" ∧ textOf event' "actor" = "mallo" ∧
    getTaskEvents "" (journalFiles (t ++ '\n' :: rest)) "t" 0 false = .ok [event, second] ∧
    ¬ Refused (getTaskEvents "" (journalFiles (t' ++ '\n' :: rest)) "t" 0 false) := by
  obtain ⟨digest, hdigest, hlength, hhex⟩ := digest_note "n"
  obtain ⟨t, ht, hwhole, hsize, hparse⟩ :=
    text_sampleEvent (by decide : "alice".toList.length = 5) (by decide) hlength hhex
  obtain ⟨t', ht', hwhole', -, hparse'⟩ :=
    text_sampleEvent (by decide : "mallo".toList.length = 5) (by decide) hlength hhex
  obtain ⟨rest, hread, hbehind, hrest⟩ := journal_sampleEvent hdigest hlength hhex ht
  refine ⟨t, t', rest, sampleEvent 1 "alice" "n" digest "", sampleEvent 1 "mallo" "n" digest "",
    sampleEvent 2 "alice" "n" digest digest, ht, ht', rfl, rfl,
    getTaskEvents_journalFiles hread (length_sample_journal hsize hrest), ?_⟩
  rintro ⟨message, hrefused⟩
  have hdiffer : DigestsDiffer (TaskEvent.payload (sampleEvent 1 "alice" "n" digest ""))
      (TaskEvent.payload (sampleEvent 1 "mallo" "n" digest "")) := by
    intro text text' htext htext' _
    exact Except.ok.inj (htext.symm.trans htext')
  have hjournal : Refused (readJournal "" "t" ([] ++ (t' ++ '\n' :: rest))) ↔ _ :=
    readJournal_tampered hread (Or.inl rfl) hwhole hwhole' hparse hparse' hbehind hdiffer
  have hblank : isBlank (t' ++ '\n' :: rest) = false := by
    obtain ⟨⟨behind, hbrace⟩, -⟩ := event_text ht'
    rw [isBlank, hbrace, List.cons_append, List.all_cons, show isWhitespace '{' = false by decide,
      Bool.false_and]
  have hne : ∀ events, readJournal "" "t" (t' ++ '\n' :: rest) = .ok events → events ≠ [] := by
    rintro events hok rfl
    have hhead : (t' ++ '\n' :: rest).head? ≠ some '\n' := by
      obtain ⟨⟨behind, hbrace⟩, -⟩ := event_text ht'
      simp [hbrace]
    rw [readJournal, splitlines_line_append hwhole',
      readRecords_cons (nonblank_of_parseRecord hparse')] at hok
    obtain ⟨event, back, -, -, -, heq⟩ := hok
    cases heq
  have hrefused' : Refused (getTaskEvents "" (atomicWrite (eventsPath "t") (t' ++ '\n' :: rest)
      fun _ => none) "t" 0 false) := ⟨message, hrefused⟩
  have hboth := (refused_getTaskEvents (by decide) hblank hne).mp hrefused'
  exact not_noticed_sampleEvent digest (hjournal.mp hboth.2)

end

end PowerFramework.Task
