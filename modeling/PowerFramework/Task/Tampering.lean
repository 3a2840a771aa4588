import PowerFramework.Task.Journal
/-!
# Changed records

What reading a journal notices when one of its records is replaced by another one.  The chain
names the digests of the payloads and nothing else, so a change is noticed exactly when it
touches the payload, its digest, or what ties the record to its place (`readJournal_tampered`).
-/

namespace PowerFramework.Task

open Lib Lib.Failure Lib.Json Lib.Splitlines Ledger

/-- The changed record is out of its place, or has another payload or digest. -/
def Noticed (event event' : TaskEvent) : Prop :=
  event'.taskId ≠ event.taskId ∨ event'.sequence ≠ event.sequence ∨
    event'.prevEventDigest ≠ event.prevEventDigest ∨
    ((∃ digest, canonicalPayloadDigest event'.payload = .ok digest) ∧
      (event'.payload ≠ event.payload ∨ event'.payloadDigest ≠ event.payloadDigest))

/-- Reading fails its integrity checks. -/
def Refused (result : Except Exn (List TaskEvent)) : Prop :=
  ∃ message, result = .error (journalIntegrityError message)

/-- The texts that two payloads are hashed over do not collide. -/
def DigestsDiffer (payload payload' : Dict) : Prop :=
  ∀ text text', (Layout.spaced true).write 0 (.dict payload) = .ok text →
    (Layout.spaced true).write 0 (.dict payload') = .ok text' →
    Sha256.hexdigest (Utf8.encode text) = Sha256.hexdigest (Utf8.encode text') → text = text'

/-- Payloads that are their own JSON forms and have one digest are equal. -/
theorem payload_inj {payload payload' : Dict} {digest : String}
    (hjson : (Value.dict payload).asJson = .dict payload)
    (hjson' : (Value.dict payload').asJson = .dict payload')
    (hdiffer : DigestsDiffer payload payload') (h : canonicalPayloadDigest payload = .ok digest)
    (h' : canonicalPayloadDigest payload' = .ok digest) : payload = payload' := by
  obtain ⟨text, htext, hdigest⟩ := map_eq_ok.mp h
  obtain ⟨text', htext', hdigest'⟩ := map_eq_ok.mp h'
  obtain rfl := hdiffer text text' htext htext' (hdigest.trans hdigest'.symm)
  have hloads := loads_write htext
  rw [loads_write htext', hjson, hjson'] at hloads
  cases hloads
  rfl

section
variable [LaxInt] {now taskId : String}

/-- A record that was read holds a payload that is its own JSON form. -/
theorem payload_of_parseRecord {number : Nat} {line : List Char} {event : TaskEvent}
    (h : parseRecord now taskId number line = .ok event) :
    (Value.dict event.payload).asJson = .dict event.payload := by
  obtain ⟨value, hloads, hvalid⟩ := parseRecord_ok.mp h
  have hfield : Field.dict "payload" (some []) ∈ eventFields now := by simp [eventFields]
  have hjson := asJson_of_read hloads hvalid (nodup_of_sorted (sorted_eventFields now)) hfield
    (keepsJson_dict _ (by rintro d ⟨⟩; rfl))
  obtain ⟨items, hitems, -⟩ := readDict_ok ((event_instance hvalid).read_getItem hfield)
  change getItem event "payload" = .dict items at hitems
  change (getItem event "payload").asJson = getItem event "payload" at hjson
  rw [hitems] at hjson
  rw [TaskEvent.payload, itemsOf, hitems]
  exact hjson

theorem nonblank_of_parseRecord {number : Nat} {line : List Char} {event : TaskEvent}
    (h : parseRecord now taskId number line = .ok event) : isBlank line = false := by
  obtain ⟨value, hloads, -⟩ := parseRecord_ok.mp h
  by_contra hblank
  have hblank : isBlank line = true := by simpa using hblank
  by_cases hspace : line.all isSpace = true
  · have hskip : skip line = [] := by
      have hall := skip_blank hspace []
      rwa [List.append_nil] at hall
    rw [loads, hskip] at hloads
    simp [scanValue] at hloads
  · have hnone := loads_of_whitespace hblank (by simpa using hspace) []
    rw [List.append_nil, hloads] at hnone
    cases hnone

/-- A record behind another one is refused when it does not name that one's digest. -/
theorem refused_of_digest {number : Nat} {sequence : Int} {previous previous' : String}
    {lines : List (List Char)} {events : List TaskEvent}
    (hread : readRecords now taskId number sequence previous lines = .ok events)
    (hlines : ∃ line ∈ lines, isBlank line = false) (hne : previous' ≠ previous) :
    Refused (readRecords now taskId number sequence previous' lines) := by
  induction lines generalizing number events with
  | nil => simp at hlines
  | cons line lines ih =>
      by_cases hblank : isBlank line = true
      · rw [readRecords_blank hblank] at hread ⊢
        apply ih hread
        obtain ⟨line', hmem, hline'⟩ := hlines
        rcases List.mem_cons.mp hmem with rfl | hmem
        · rw [hblank] at hline'
          cases hline'
        · exact ⟨line', hmem, hline'⟩
      · have hblank : isBlank line = false := by simpa using hblank
        obtain ⟨event, rest, hparse, hchained, -, -⟩ := (readRecords_cons hblank).mp hread
        refine ⟨"Task event journal hash chain is invalid", ?_⟩
        have hprevious : event.prevEventDigest ≠ previous' := by
          rw [hchained.previous]
          exact hne.symm
        rw [readRecords, if_neg (by simp [hblank]), hparse]
        simp only [bind, Except.bind, checkRecord, raiseIf, hchained.taskId, hchained.sequence,
          ne_eq, not_true_eq_false, if_false, hprevious, not_false_eq_true, if_true]

omit [LaxInt] in
/-- A record out of its place is refused. -/
theorem checkRecord_refused {sequence : Int} {previous : String} {event : TaskEvent}
    (h : ¬ (event.taskId = taskId ∧ event.sequence = sequence ∧
      event.prevEventDigest = previous)) :
    ∃ message, checkRecord taskId sequence previous event =
      .error (journalIntegrityError message) := by
  unfold checkRecord
  by_cases htask : event.taskId = taskId
  case neg =>
    refine ⟨"Task event task ID does not match its journal", ?_⟩
    simp only [htask, raiseIf, ne_eq, not_false_eq_true, if_true]
    rfl
  by_cases hsequence : event.sequence = sequence
  case neg =>
    refine ⟨"Task event journal sequence is not monotonic", ?_⟩
    simp only [htask, hsequence, raiseIf, ne_eq, not_true_eq_false, if_false, not_false_eq_true,
      if_true]
    rfl
  have hprevious : event.prevEventDigest ≠ previous := fun heq => h ⟨htask, hsequence, heq⟩
  refine ⟨"Task event journal hash chain is invalid", ?_⟩
  simp only [htask, hsequence, hprevious, raiseIf, ne_eq, not_true_eq_false, if_false,
    not_false_eq_true, if_true]
  rfl

omit [LaxInt] in
/-- A record in its place has its digest checked. -/
theorem checkRecord_placed {sequence : Int} {previous : String} {event : TaskEvent}
    (h : event.taskId = taskId ∧ event.sequence = sequence ∧ event.prevEventDigest = previous) :
    checkRecord taskId sequence previous event =
      (canonicalPayloadDigest event.payload >>= fun digest =>
        raiseIf (event.payloadDigest ≠ digest)
          (journalIntegrityError "Task event payload digest is invalid")) := by
  simp only [checkRecord, raiseIf, h.1, h.2.1, h.2.2, ne_eq, not_true_eq_false, if_false]
  rfl

omit [LaxInt] in
/-- A payload without a digest raises another exception. -/
theorem not_refused_of_digest {payload : Dict} {e : Exn}
    (h : canonicalPayloadDigest payload = .error e) (message : String) :
    e ≠ journalIntegrityError message := by
  rintro rfl
  rcases write_error _ _ (map_eq_error.mp h) with hkind | hkind <;>
    simp [journalIntegrityError] at hkind

/-- The first record with another one in its place. -/
theorem refused_iff {number : Nat} {sequence : Int} {previous : String} {line line' : List Char}
    {lines : List (List Char)} {events : List TaskEvent} {event event' : TaskEvent}
    (hread : readRecords now taskId number sequence previous (line :: lines) = .ok events)
    (hline : isBlank line = false) (hline' : isBlank line' = false)
    (hparse : parseRecord now taskId number line = .ok event)
    (hparse' : parseRecord now taskId number line' = .ok event')
    (hlines : ∃ line ∈ lines, isBlank line = false)
    (hdiffer : DigestsDiffer event.payload event'.payload) :
    Refused (readRecords now taskId number sequence previous (line' :: lines)) ↔
      Noticed event event' := by
  obtain ⟨event₀, rest, hparse₀, hchained, hrest, -⟩ := (readRecords_cons hline).mp hread
  obtain rfl : event₀ = event := by
    rw [hparse] at hparse₀
    exact (Except.ok.inj hparse₀).symm
  have hstep : readRecords now taskId number sequence previous (line' :: lines) =
      (checkRecord taskId sequence previous event' >>= fun _ =>
        readRecords now taskId (number + 1) (sequence + 1) event'.payloadDigest lines >>= fun es =>
          .ok (event' :: es)) := by
    rw [readRecords, if_neg (by simp [hline']), hparse']
    rfl
  rw [hstep, Noticed, hchained.taskId, hchained.sequence, hchained.previous]
  by_cases hplace : event'.taskId = taskId ∧ event'.sequence = sequence ∧
    event'.prevEventDigest = previous
  case neg =>
    obtain ⟨message, hrefused⟩ := checkRecord_refused hplace
    refine ⟨fun _ => by tauto, fun _ => ⟨message, ?_⟩⟩
    rw [hrefused]
    rfl
  rw [checkRecord_placed hplace]
  simp only [hplace.1, hplace.2.1, hplace.2.2, ne_eq, not_true_eq_false, false_or]
  cases hdigest : canonicalPayloadDigest event'.payload with
  | error e =>
      constructor
      · rintro ⟨message, herror⟩
        cases herror
        exact absurd rfl (not_refused_of_digest hdigest message)
      · rintro ⟨⟨digest, hok⟩, -⟩
        cases hok
  | ok digest =>
      have hexists : ∃ digest', Except.ok digest = (.ok digest' : Except Exn String) := ⟨digest, rfl⟩
      simp only [hexists, true_and]
      by_cases hown : event'.payloadDigest = digest
      case neg =>
        refine ⟨fun _ => ?_, fun _ => ⟨"Task event payload digest is invalid", ?_⟩⟩
        · -- with the same payload the digest would be that of the record replaced
          by_contra hsame
          rw [not_or, not_not, not_not] at hsame
          rw [hsame.1, hchained.digest] at hdigest
          cases hdigest
          exact hown hsame.2
        · simp only [bind, Except.bind, raiseIf, hown, not_false_eq_true, if_true]
      subst hown
      by_cases hsame : event'.payloadDigest = event₀.payloadDigest
      · have hpayload : event₀.payload = event'.payload :=
          payload_inj (payload_of_parseRecord hparse) (payload_of_parseRecord hparse') hdiffer
            hchained.digest (hsame ▸ hdigest)
        simp only [hpayload, hsame, not_true_eq_false, or_self, iff_false]
        rintro ⟨message, herror⟩
        simp only [bind, Except.bind, raiseIf, not_true_eq_false, if_false, hrest] at herror
        cases herror
      · obtain ⟨message, hrefused⟩ := refused_of_digest hrest hlines hsame
        refine ⟨fun _ => Or.inr hsame, fun _ => ⟨message, ?_⟩⟩
        simp only [bind, Except.bind, raiseIf, not_true_eq_false, if_false, hrefused]

/-- **Tampering.**  A journal with one of its records replaced by another is refused exactly when
reading notices the change, as long as a record follows. -/
theorem readJournal_tampered {before after line line' : List Char} {events : List TaskEvent}
    {event event' : TaskEvent}
    (hread : readJournal now taskId (before ++ (line ++ '\n' :: after)) = .ok events)
    (hbefore : Ended before) (hline : ∀ c ∈ line, isBoundary c = false)
    (hline' : ∀ c ∈ line', isBoundary c = false)
    (hparse : parseRecord now taskId ((splitlines before).length + 1) line = .ok event)
    (hparse' : parseRecord now taskId ((splitlines before).length + 1) line' = .ok event')
    (hafter : ∃ line ∈ splitlines after, isBlank line = false)
    (hdiffer : DigestsDiffer event.payload event'.payload) :
    Refused (readJournal now taskId (before ++ (line' ++ '\n' :: after))) ↔
      Noticed event event' := by
  have hsplit : ∀ text : List Char, (∀ c ∈ text, isBoundary c = false) → isBlank text = false →
      splitlines (before ++ (text ++ '\n' :: after)) =
        splitlines before ++ text :: splitlines after := by
    intro text htext hblank
    have hhead : (text ++ '\n' :: after).head? ≠ some '\n' := by
      cases text with
      | nil => cases hblank
      | cons c text =>
          rw [List.cons_append, List.head?_cons]
          rintro ⟨⟩
          exact absurd (htext '\n' (by simp)) (by decide)
    rw [splitlines_append hbefore fun _ => hhead, splitlines_line_append htext]
  have hblank := nonblank_of_parseRecord hparse
  have hblank' := nonblank_of_parseRecord hparse'
  rw [readJournal, hsplit line hline hblank, readRecords_append] at hread
  obtain ⟨front, back, hfront, hback, -⟩ := hread
  rw [Nat.add_comm] at hback
  rw [← refused_iff hback hblank hblank' hparse hparse' hafter hdiffer, readJournal,
    hsplit line' hline' hblank', readRecords_behind hfront, Nat.add_comm 1]
  simp only [Refused, map_eq_error]

end

end PowerFramework.Task
