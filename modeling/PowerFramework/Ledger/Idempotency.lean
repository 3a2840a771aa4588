import PowerFramework.Ledger.AppendIntegrity
/-!
# Retried commands

A call carries a key, an event id, or both, and the scan answers it with the first event that has
either.  Under its key a retry finds the event the key was first accepted as, as long as no
command meets a foreign event under its id, and every new event leaves the ledger verified.
-/

namespace PowerFramework.Ledger

open Lib Lib.Failure Lib.Json Lib.Lines

/-- Two members of one image under a partial map are equal when the images have no duplicate. -/
theorem eq_of_nodup_filterMap {α β : Type} {f : α → Option β} {xs : List α} {x y : α} {k : β}
    (h : (xs.filterMap f).Nodup) (hx : x ∈ xs) (hy : y ∈ xs) (hfx : f x = some k)
    (hfy : f y = some k) : x = y := by
  induction xs with
  | nil => exact absurd hx List.not_mem_nil
  | cons z xs ih =>
      have hrest : (xs.filterMap f).Nodup :=
        h.sublist (List.Sublist.filterMap f (List.sublist_cons_self z xs))
      have hclash : ∀ w ∈ xs, f w = some k → f z ≠ some k := by
        intro w hw hfw hfz
        rw [List.filterMap_cons_some hfz, List.nodup_cons] at h
        exact h.1 (List.mem_filterMap.mpr ⟨w, hw, hfw⟩)
      rcases List.mem_cons.mp hx with hxz | hx
      · rcases List.mem_cons.mp hy with hyz | hy
        · rw [hxz, hyz]
        · exact absurd (hxz ▸ hfx) (hclash y hy hfy)
      · rcases List.mem_cons.mp hy with hyz | hy
        · exact absurd (hyz ▸ hfy) (hclash x hx hfx)
        · exact ih hrest hx hy

section
variable [LaxInt]

/-! ## A ledger that calls have written -/

/-- A verified ledger whose active file ends with a newline and reads back record by record. -/
structure Sound (projectId : String) (dir : ProjectDir) (events : List ProjectEvent) : Prop where
  verified : Verified projectId dir events
  readable : ∃ old current, events = old ++ current ∧
    Readable (readFile dir activeEventsFile) current

theorem sound_empty (projectId : String) : Sound projectId ∅ [] := by
  refine ⟨verified_empty projectId, [], [], rfl, ?_⟩
  rw [readFile_empty]
  exact readable_nil

theorem Sound.recoverDir {projectId : String} {dir : ProjectDir} {events : List ProjectEvent}
    (h : Sound projectId dir events) : recoverDir dir = .ok dir := by
  obtain ⟨old, current, rfl, hread⟩ := h.readable
  have hchain := h.verified.2
  rw [chain_append] at hchain
  exact recoverDir_readable hread hchain.2

variable {projectId : String} {draw : Draw} {expectedLastSequence : Option Nat}
  {expectedLastEventHash : Option String} {dir dir' : ProjectDir} {cmd : CommandFields}
  {events : List ProjectEvent} {event : ProjectEvent}

theorem Sound.appendUnchecked_eq (h : Sound projectId dir events)
    (hproject : cmd.projectId = projectId) :
    appendUnchecked projectId draw expectedLastSequence expectedLastEventHash dir cmd =
      match appendRecovered projectId draw expectedLastSequence expectedLastEventHash dir cmd with
      | .error exn => (dir, .error exn)
      | .ok (dir, event) => (dir, .ok event) := by
  cases hrun :
      appendRecovered projectId draw expectedLastSequence expectedLastEventHash dir cmd with
  | error exn => simp [appendUnchecked, hproject, h.recoverDir, hrun]
  | ok result => simp [appendUnchecked, hproject, h.recoverDir, hrun]

/-- A call that raises leaves a sound ledger as it is. -/
theorem Sound.unchanged (h : Sound projectId dir events) {exn : Exn}
    (hrun : appendUnchecked projectId draw expectedLastSequence expectedLastEventHash dir cmd =
      (dir', .error exn)) : dir' = dir := by
  by_cases hproject : cmd.projectId = projectId
  · rw [h.appendUnchecked_eq hproject] at hrun
    split at hrun
    · exact (congrArg Prod.fst hrun).symm
    · exact absurd (congrArg Prod.snd hrun) (by simp)
  · rw [appendUnchecked, if_pos hproject] at hrun
    exact (congrArg Prod.fst hrun).symm

/-- What an accepted call returns on a sound ledger: the first event that has its key or its id,
or a new event with the fields of the command, which keeps the ledger sound when it is safe. -/
theorem Sound.accepted (h : Sound projectId dir events) (hnormal : cmd.Normal)
    (hsafe : (∀ other ∈ events, sameEvent cmd other = false) →
      NewEventSafe projectId draw cmd events)
    (hrun : appendUnchecked projectId draw expectedLastSequence expectedLastEventHash dir cmd =
      (dir', .ok event)) :
    (dir' = dir ∧ events.find? (sameEvent cmd) = some event) ∨
      ((∀ other ∈ events, sameEvent cmd other = false) ∧ Sound projectId dir' (events ++ [event]) ∧
        event.idempotencyKey = cmd.idempotencyKey) := by
  obtain ⟨rfl, repaired, hrecover, hrun⟩ := appendUnchecked_ok hrun
  obtain rfl := Except.ok.inj (h.recoverDir.symm.trans hrecover)
  obtain ⟨events', hverified, hcases⟩ := appendRecovered_ok hrun
  obtain rfl := hverified.unique h.verified
  rcases hcases with ⟨rfl, hfind⟩ | ⟨hnone, hbuild, line, hline, rfl⟩
  · exact Or.inl ⟨rfl, hfind⟩
  · obtain ⟨old, current, rfl, hread⟩ := h.readable
    obtain ⟨hvalid, hpayload, -⟩ := fits_of_buildEvent hnormal hverified hbuild
    obtain ⟨-, -, _, _, _, hevent⟩ := buildEvent_ok hnormal hbuild
    have hplain : Plain (.dict event.payload) := hpayload ▸ (hsafe hnone).2
    refine Or.inr ⟨hnone, ⟨?_, old, current ++ [event], ?_, ?_⟩, ?_⟩
    · exact (verified_writeActive hnormal hread.terminated hverified hbuild hline _).mpr
        ⟨rfl, hsafe hnone⟩
    · exact List.append_assoc _ _ _
    · rw [writeActive, readFile_insert]
      exact hread.append hvalid hplain hline
    · rw [hevent]
      rfl

/-- The head a governed call was told to expect is the one of the ledger. -/
def HeadExpected (projectId : String) (dir : ProjectDir) (expectedLastSequence : Option Nat)
    (expectedLastEventHash : Option String) : Prop :=
  (∀ sequence ∈ expectedLastSequence, sequence = (verify projectId dir).lastSequence) ∧
    ∀ eventHash ∈ expectedLastEventHash, eventHash = (verify projectId dir).lastEventHash

theorem headExpected_none : HeadExpected projectId dir none none :=
  ⟨by simp, by simp⟩

omit [LaxInt] in
/-- What a retry of an event's key answers: the event for the command that wrote it, and a
conflict for any other. -/
def retryAnswer (cmd : CommandFields) (event : ProjectEvent) : Except Exn ProjectEvent := do
  let fingerprint ← computeCommandFingerprint cmd.toFingerprinted
  sameCommand fingerprint (matchLabel cmd event) event

theorem Sound.found (h : Sound projectId dir events) (hproject : cmd.projectId = projectId)
    (hexpected : HeadExpected projectId dir expectedLastSequence expectedLastEventHash)
    (hfind : events.find? (sameEvent cmd) = some event) :
    appendUnchecked projectId draw expectedLastSequence expectedLastEventHash dir cmd =
      (dir, retryAnswer cmd event) := by
  have hvalid : (verify projectId dir).valid = true := verify_valid.mpr ⟨events, h.verified⟩
  have hsequence : expectedLastSequence.any (· ≠ (verify projectId dir).lastSequence) = false := by
    cases expectedLastSequence with
    | none => rfl
    | some sequence => simpa using hexpected.1 sequence rfl
  have heventHash : expectedLastEventHash.any (· ≠ (verify projectId dir).lastEventHash) = false := by
    cases expectedLastEventHash with
    | none => rfl
    | some eventHash => simpa using hexpected.2 eventHash rfl
  have happend : appendRecovered projectId draw expectedLastSequence expectedLastEventHash dir cmd =
      (retryAnswer cmd event).map fun event => (dir, event) := by
    simp only [appendRecovered, hvalid, hsequence, heventHash, raiseIf, Bool.true_eq_false, if_false,
      Bool.false_eq_true, bind, Except.bind, h.verified.1, resolveIdempotent_eq, hfind, retryAnswer]
    cases computeCommandFingerprint cmd.toFingerprinted with
    | error exn => rfl
    | ok fingerprint =>
        simp only
        cases sameCommand fingerprint (matchLabel cmd event) event <;> rfl
  rw [h.appendUnchecked_eq hproject, happend]
  cases retryAnswer cmd event <;> rfl

/-! ## Runs of calls -/

/-- One call of a writer. -/
structure Call where
  writer : Writer
  draw : Draw
  cmd : AppendCommand

def Call.run (projectId : String) (dir : ProjectDir) (call : Call) :
    ProjectDir × Except Exn ProjectEvent :=
  call.writer.run projectId call.draw dir call.cmd.toCommandFields

/-- The command as its writer passes it on. -/
def Call.command (call : Call) : CommandFields :=
  call.cmd.withSource (call.writer.sourceOf call.cmd.toCommandFields)

/-- The ledger after the calls, from no file at all. -/
def ledgerAfter (projectId : String) (calls : List Call) : ProjectDir :=
  calls.foldl (fun dir call => (call.run projectId dir).1) ∅

/-- The keys of the events. -/
def keysOf (events : List ProjectEvent) : List String :=
  events.filterMap ProjectEvent.idempotencyKey

/-- Before the call: its key is not the empty string, the first event that has its key or its id
has its key, and a new event would leave the ledger verified. -/
structure Call.Clear (projectId : String) (call : Call) (events : List ProjectEvent) : Prop where
  key : call.command.idempotencyKey ≠ some ""
  keyFirst : ∀ event ∈ events.find? (sameEvent call.command),
    call.command.idempotencyKey.isSome → event.idempotencyKey = call.command.idempotencyKey
  safe : (∀ event ∈ events, sameEvent call.command event = false) →
    NewEventSafe projectId call.draw call.command events

/-- Every call of the run is clear in the ledger it meets. -/
def ClearRun (projectId : String) (calls : List Call) : Prop :=
  ∀ before call after, calls = before ++ call :: after →
    ∀ events, replay (ledgerAfter projectId before) 1 = .ok events → call.Clear projectId events

/-- The call is one its writer does not refuse, for this project, and at the head it expects. -/
structure Call.Admitted (projectId : String) (dir : ProjectDir) (call : Call) : Prop where
  admits : call.writer.refuses call.cmd.toCommandFields = false
  project : call.cmd.projectId = projectId
  expected : HeadExpected projectId dir call.writer.expected.1 call.writer.expected.2

theorem Call.run_eq (call : Call) :
    call.run projectId dir =
      if call.writer.refuses call.cmd.toCommandFields then (dir, .error call.writer.refusal)
      else appendUnchecked projectId call.draw call.writer.expected.1 call.writer.expected.2 dir
        call.command :=
  Writer.run_eq call.writer projectId call.draw dir call.cmd

theorem ledgerAfter_concat (calls : List Call) (call : Call) :
    ledgerAfter projectId (calls ++ [call]) = (call.run projectId (ledgerAfter projectId calls)).1 := by
  rw [ledgerAfter, List.foldl_append]
  rfl

omit [LaxInt] in
theorem sameKey_iff {key : String} (hcmd : cmd.idempotencyKey = some key) (hne : key ≠ "") :
    sameKey cmd event = true ↔ event.idempotencyKey = some key := by
  rw [sameKey, hcmd, truthy, Option.filter_some, if_pos (by simpa using hne)]
  simp

/-- One clear call: the ledger stays sound, events are only added, and at most the call's own
event under a key that no event had. -/
theorem Call.Clear.step {call : Call} (hclear : call.Clear projectId events)
    (h : Sound projectId dir events) (hkeys : (keysOf events).Nodup)
    (hrun : (call.run projectId dir).1 = dir') :
    ∃ events', Sound projectId dir' events' ∧ (keysOf events').Nodup ∧ events <+: events' ∧
      ∀ event, (call.run projectId dir).2 = .ok event → event ∈ events' ∧
        (call.command.idempotencyKey.isSome →
          event.idempotencyKey = call.command.idempotencyKey) := by
  rw [Call.run_eq] at hrun ⊢
  split_ifs at hrun ⊢ with hrefused
  · subst hrun
    exact ⟨events, h, hkeys, List.prefix_rfl, by simp⟩
  cases hresult : appendUnchecked projectId call.draw call.writer.expected.1 call.writer.expected.2
      dir call.command with
  | mk dir'' result =>
      rw [hresult] at hrun
      obtain rfl : dir'' = dir' := hrun
      cases result with
      | error exn =>
          obtain rfl := h.unchanged hresult
          exact ⟨events, h, hkeys, List.prefix_rfl, by simp⟩
      | ok event =>
          have hnormal : call.command.Normal := call.cmd.valid.saga
          rcases h.accepted hnormal hclear.safe hresult with ⟨rfl, hfind⟩ | ⟨hnone, hsound, hkey⟩
          · refine ⟨events, h, hkeys, List.prefix_rfl, ?_⟩
            rintro _ ⟨⟩
            exact ⟨List.mem_of_find?_eq_some hfind, hclear.keyFirst event hfind⟩
          · refine ⟨events ++ [event], hsound, ?_, List.prefix_append _ _, ?_⟩
            · rw [keysOf, List.filterMap_append, List.nodup_append]
              refine ⟨hkeys, ?_, ?_⟩
              · cases hnew : event.idempotencyKey <;> simp [hnew]
              · intro key hmem other hother
                rw [List.mem_filterMap] at hmem hother
                obtain ⟨earlier, hearlier, hkey'⟩ := hmem
                obtain ⟨new, hnew, hother⟩ := hother
                obtain rfl := List.mem_singleton.mp hnew
                rintro rfl
                have hcmd : call.command.idempotencyKey = some key := hkey ▸ hother
                have hne : key ≠ "" := fun hempty => hclear.key (hempty ▸ hcmd)
                have hsame := hnone earlier hearlier
                rw [sameEvent, (sameKey_iff hcmd hne).mpr hkey'] at hsame
                exact Bool.noConfusion hsame
            · rintro _ ⟨⟩
              exact ⟨by simp, fun _ => hkey⟩

theorem ClearRun.front {front calls : List Call} (h : ClearRun projectId calls)
    (hfront : front <+: calls) : ClearRun projectId front := by
  obtain ⟨rest, rfl⟩ := hfront
  intro before call after heq
  refine h before call (after ++ rest) ?_
  rw [heq, List.append_assoc, List.cons_append]

theorem clearRun_nil : ClearRun projectId [] := by
  intro before call after heq
  exact absurd heq (by simp)

/-- A clear run goes on with a call that is clear in the ledger it has reached. -/
theorem ClearRun.concat {calls : List Call} {call : Call} (h : ClearRun projectId calls)
    (hsound : Sound projectId (ledgerAfter projectId calls) events)
    (hclear : call.Clear projectId events) : ClearRun projectId (calls ++ [call]) := by
  intro before next after heq found hfound
  rcases List.eq_nil_or_concat after with rfl | ⟨front, last, rfl⟩
  · obtain ⟨rfl, hlast⟩ := List.append_inj' heq rfl
    obtain rfl := List.singleton_inj.mp hlast
    obtain rfl := Except.ok.inj (hsound.verified.1.symm.trans hfound)
    exact hclear
  · rw [List.concat_eq_append, ← List.cons_append, ← List.append_assoc] at heq
    obtain ⟨rfl, -⟩ := List.append_inj' heq rfl
    exact h before next front rfl found hfound

/-- The ledger behind a clear run is sound and has every key once. -/
theorem ClearRun.sound {calls : List Call} (h : ClearRun projectId calls) :
    ∃ events, Sound projectId (ledgerAfter projectId calls) events ∧ (keysOf events).Nodup := by
  induction calls using List.reverseRecOn with
  | nil => exact ⟨[], sound_empty projectId, List.nodup_nil⟩
  | append_singleton calls call ih =>
      obtain ⟨events, hsound, hkeys⟩ := ih (h.front (List.prefix_append _ _))
      have hclear := h calls call [] rfl events hsound.verified.1
      obtain ⟨events', hsound', hkeys', -, -⟩ :=
        hclear.step hsound hkeys (ledgerAfter_concat calls call).symm
      exact ⟨events', hsound', hkeys'⟩

/-- Along a clear run events are only added. -/
theorem ClearRun.grows {before mid : List Call} (h : ClearRun projectId (before ++ mid))
    {events : List ProjectEvent} (hsound : Sound projectId (ledgerAfter projectId before) events) :
    ∃ events', Sound projectId (ledgerAfter projectId (before ++ mid)) events' ∧ events <+: events' := by
  induction mid using List.reverseRecOn with
  | nil => exact ⟨events, by rwa [List.append_nil], List.prefix_rfl⟩
  | append_singleton mid call ih =>
      rw [← List.append_assoc] at h ⊢
      have hfront := h.front (List.prefix_append _ _)
      obtain ⟨events', hsound', hgrown⟩ := ih hfront
      obtain ⟨events'', hsound'', hkeys⟩ := hfront.sound
      obtain rfl := hsound'.verified.unique hsound''.verified
      have hclear := h (before ++ mid) call [] rfl events' hsound'.verified.1
      obtain ⟨last, hlast, -, hmore, -⟩ :=
        hclear.step hsound' hkeys (ledgerAfter_concat (before ++ mid) call).symm
      exact ⟨last, hlast, hgrown.trans hmore⟩

omit [LaxInt] in
/-- A sealed event has a fingerprint. -/
theorem Chain.fingerprint {head : Head} (h : Chain projectId head events) (hmem : event ∈ events) :
    ∃ stored, computeCommandFingerprint event.toFingerprinted = .ok stored := by
  induction events generalizing head with
  | nil => exact absurd hmem List.not_mem_nil
  | cons first events ih =>
      rcases List.mem_cons.mp hmem with rfl | hmem
      · exact computeCommandFingerprint_ok (canonical_of_sha256 h.1.sealed.payload)
      · exact ih h.2 hmem

omit [LaxInt] in
theorem retryAnswer_eq {stored : String}
    (h : computeCommandFingerprint event.toFingerprinted = .ok stored) :
    retryAnswer cmd event = (do
      let fingerprint ← computeCommandFingerprint cmd.toFingerprinted
      if fingerprint = stored then .ok event
      else .error ⟨"IdempotencyConflictError",
        "Idempotency conflict for " ++ matchLabel cmd event ++ ": command fingerprint mismatch"⟩) := by
  rw [retryAnswer]
  congr 1
  funext fingerprint
  simp only [sameCommand, h, bind, Except.bind, raiseIf, ne_eq, ite_not]
  split_ifs <;> rfl

/-- In a run of clear calls every ledger has each key once, and an admitted retry of a key leaves
the ledger as it is: it is answered with the event the key was accepted as when the fingerprints
agree, and with a conflict when they differ. -/
theorem key_replays {calls : List Call} (hclear : ClearRun projectId calls) :
    (∀ front, front <+: calls → ∃ events,
      replay (ledgerAfter projectId front) 1 = .ok events ∧ (keysOf events).Nodup) ∧
    ∀ before call mid again after key dir event,
      calls = before ++ call :: mid ++ again :: after →
      call.command.idempotencyKey = some key → again.command.idempotencyKey = some key →
      call.run projectId (ledgerAfter projectId before) = (dir, .ok event) →
      again.Admitted projectId (ledgerAfter projectId (before ++ call :: mid)) →
      ∃ stored, computeCommandFingerprint event.toFingerprinted = .ok stored ∧
        again.run projectId (ledgerAfter projectId (before ++ call :: mid)) =
          (ledgerAfter projectId (before ++ call :: mid), do
            let fingerprint ← computeCommandFingerprint again.command.toFingerprinted
            if fingerprint = stored then .ok event
            else .error ⟨"IdempotencyConflictError", "Idempotency conflict for " ++
              matchLabel again.command event ++ ": command fingerprint mismatch"⟩) := by
  refine ⟨fun front hfront => ?_, ?_⟩
  · obtain ⟨events, hsound, hkeys⟩ := (hclear.front hfront).sound
    exact ⟨events, hsound.verified.1, hkeys⟩
  rintro before call mid again after key dir event rfl hkey hagain hrun hadmitted
  have hlong : ClearRun projectId (before ++ call :: mid) :=
    hclear.front (List.prefix_append _ _)
  -- the event is in the ledger behind the first call
  obtain ⟨events, hsound, hkeys⟩ := (hlong.front (List.prefix_append _ _)).sound
  have hfirst := hlong before call mid rfl events hsound.verified.1
  obtain ⟨events', hsound', -, -, hresult⟩ :=
    hfirst.step hsound hkeys (ledgerAfter_concat before call).symm
  obtain ⟨hmem, hstored⟩ := hresult event (by rw [hrun])
  have hstored : event.idempotencyKey = some key := hkey ▸ hstored (by rw [hkey]; rfl)
  -- and still there when the retry arrives
  have hsplit : before ++ call :: mid = before ++ [call] ++ mid := by simp
  rw [hsplit] at hlong hadmitted ⊢
  obtain ⟨last, hlast, hgrown⟩ := hlong.grows hsound'
  obtain ⟨last', hlast', hkeysLast⟩ := hlong.sound
  obtain rfl := hlast.verified.unique hlast'.verified
  have hretry : again.Clear projectId last := by
    refine hclear _ again after ?_ last hlast.verified.1
    rw [← hsplit]
  have hmemLast : event ∈ last := hgrown.subset hmem
  -- the first event with the retry's key or id has the key, so it is this one
  have hne : key ≠ "" := fun hempty => hretry.key (hempty ▸ hagain)
  have hsame : sameEvent again.command event = true := by
    rw [sameEvent, (sameKey_iff hagain hne).mpr hstored]
    rfl
  obtain ⟨found, hfound⟩ := Option.isSome_iff_exists.mp
    (List.find?_isSome.mpr ⟨event, hmemLast, hsame⟩)
  have hfoundKey := hretry.keyFirst found hfound (by rw [hagain]; rfl)
  obtain rfl : found = event := eq_of_nodup_filterMap hkeysLast
    (List.mem_of_find?_eq_some hfound) hmemLast (hfoundKey.trans hagain) hstored
  obtain ⟨stored, hfingerprint⟩ := hlast.verified.2.fingerprint hmemLast
  refine ⟨stored, hfingerprint, ?_⟩
  rw [Call.run_eq, hadmitted.admits, ← retryAnswer_eq hfingerprint]
  exact hlast.found hadmitted.project hadmitted.expected hfound

/-- A sound ledger takes an appendable and safe command of one of its writers. -/
theorem Sound.appends (writer : Writer) (draw : Draw) (cmd : AppendCommand)
    (h : Sound cmd.projectId dir events)
    (hadmits : writer.refuses cmd.toCommandFields = false) (hexpected : writer.expected = (none, none))
    (happendable : Appendable draw cmd.toCommandFields events)
    (hsafe : NewEventSafe cmd.projectId draw cmd.toCommandFields events) :
    ∃ dir' event, writer.run cmd.projectId draw dir cmd.toCommandFields = (dir', .ok event) ∧
      Sound cmd.projectId dir' (events ++ [event]) ∧
      event.toFingerprinted =
        { cmd.toFingerprinted with source := writer.sourceOf cmd.toCommandFields } ∧
      event.idempotencyKey = cmd.idempotencyKey ∧
      event.eventId = newEventId cmd.toCommandFields cmd.projectId (events.length + 1) draw := by
  obtain ⟨dir', event, hrun, hverified, hread, hfields⟩ :=
    Writer.run_accepts writer draw cmd hadmits hexpected h.recoverDir h.verified happendable
  obtain ⟨old, current, hevents, hcurrent⟩ := h.readable
  refine ⟨dir', event, hrun, ⟨hverified.mpr hsafe, old, current ++ [event], ?_, ?_⟩, hfields⟩
  · rw [hevents, List.append_assoc]
  · exact hread hsafe.2 hcurrent

end

attribute [local instance] LaxInt.intOnly

/-- A note under the event id `evt_x`, under the key `k`, and under both. -/
def xNote : AppendCommand :=
  ⟨sessionNote (some "evt_x") none, sessionNote_valid
    (fun _ h => Option.some.inj h ▸ (by decide : isEventId "evt_x" = true)) (by simp)⟩

def bothNote : AppendCommand :=
  ⟨sessionNote (some "evt_x") (some "k"), sessionNote_valid
    (fun _ h => Option.some.inj h ▸ (by decide : isEventId "evt_x" = true))
    (fun _ h => Option.some.inj h ▸ (by decide : lengthAtMost 128 "k" = true))⟩

theorem appendable_keyNote : Appendable sampleDraw keyNote.toCommandFields [] :=
  appendable_sessionNote (by simp) (isEventId_deterministic _ _) (by simp)

theorem safe_keyNote : NewEventSafe "prj_abc" sampleDraw keyNote.toCommandFields [] :=
  ⟨by simp, rfl, rfl⟩

/-- The call that sends the note under the key. -/
def keyCall : Call := ⟨.append, sampleDraw, keyNote⟩

theorem command_keyCall : keyCall.command = keyNote.toCommandFields := rfl

theorem run_keyCall (dir : ProjectDir) :
    keyCall.run "prj_abc" dir = append "prj_abc" sampleDraw dir keyNote.toCommandFields := rfl

/-- The note under the key, sent twice. -/
theorem key_replays_sample : ∃ dir event,
    append "prj_abc" sampleDraw ∅ keyNote.toCommandFields = (dir, .ok event) ∧
      append "prj_abc" sampleDraw dir keyNote.toCommandFields = (dir, .ok event) := by
  obtain ⟨dir, event, hrun, hsound, hfields, hkey, -⟩ :=
    Sound.appends .append sampleDraw keyNote (sound_empty "prj_abc") rfl rfl appendable_keyNote
      safe_keyNote
  have hfirst : keyCall.run "prj_abc" (ledgerAfter "prj_abc" []) = (dir, .ok event) := hrun
  have hafter : ledgerAfter "prj_abc" [keyCall] = dir := by
    have hlast : ledgerAfter "prj_abc" [keyCall] =
      (keyCall.run "prj_abc" (ledgerAfter "prj_abc" [])).1 := ledgerAfter_concat [] keyCall
    rwa [hfirst] at hlast
  have hcommand : keyCall.command.idempotencyKey = some "k" := rfl
  have hone : ClearRun "prj_abc" [keyCall] := by
    refine clearRun_nil.concat (sound_empty "prj_abc") ⟨by decide, by simp, fun _ => ?_⟩
    rw [command_keyCall]
    exact safe_keyNote
  have hsame : sameEvent keyCall.command event = true := by
    rw [sameEvent, (sameKey_iff hcommand (by decide)).mpr hkey]
    rfl
  have hsound : Sound "prj_abc" (ledgerAfter "prj_abc" [keyCall]) [event] := by
    rw [hafter]
    exact hsound
  have htwo : ClearRun "prj_abc" [keyCall, keyCall] := by
    refine hone.concat hsound ⟨by decide, ?_, ?_⟩
    · intro found hfound _
      obtain rfl := List.mem_singleton.mp (List.mem_of_find?_eq_some hfound)
      exact hkey
    · intro hnone
      rw [hnone event (by simp)] at hsame
      exact Bool.noConfusion hsame
  have hadmitted : keyCall.Admitted "prj_abc" (ledgerAfter "prj_abc" [keyCall]) :=
    ⟨rfl, rfl, headExpected_none⟩
  obtain ⟨stored, hstored, hanswer⟩ := (key_replays htwo).2 [] keyCall [] keyCall [] "k" dir event
    rfl hcommand hcommand hfirst hadmitted
  have hfingerprint : event.toFingerprinted = keyCall.command.toFingerprinted := hfields
  rw [hfingerprint] at hstored
  rw [List.nil_append, hafter, run_keyCall, hstored] at hanswer
  refine ⟨dir, event, hrun, hanswer.trans ?_⟩
  simp only [bind, Except.bind, if_true]

theorem length_deterministicEventId (projectId key : String) :
    (generateDeterministicEventId projectId key).toList.length = 28 := by
  simp only [generateDeterministicEventId, String.toList_append, List.length_append,
    String.toList_ofList, List.length_take, Sha256.length_hexdigest]
  rfl

/-- Three notes of one content: under the id `evt_x`, under the key `k`, and under both.  The
third has the key and the fingerprint of the second, and is answered with the first. -/
theorem key_meets_foreign_id : ∃ dir first dir' second fingerprint,
    append "prj_abc" sampleDraw ∅ xNote.toCommandFields = (dir, .ok first) ∧
      append "prj_abc" sampleDraw dir keyNote.toCommandFields = (dir', .ok second) ∧
      keyNote.idempotencyKey = bothNote.idempotencyKey ∧
      computeCommandFingerprint bothNote.toFingerprinted = .ok fingerprint ∧
      computeCommandFingerprint second.toFingerprinted = .ok fingerprint ∧
      append "prj_abc" sampleDraw dir' bothNote.toCommandFields = (dir', .ok first) ∧
      first ≠ second := by
  have hidX : newEventId xNote.toCommandFields xNote.projectId 1 sampleDraw = "evt_x" := by decide
  have happendX : Appendable sampleDraw xNote.toCommandFields [] :=
    appendable_sessionNote (by simp) (by decide) (by simp)
  have hsafeX : NewEventSafe xNote.projectId sampleDraw xNote.toCommandFields [] :=
    ⟨by simp, rfl, rfl⟩
  obtain ⟨dir, first, hfirst, hsound, hfields, hkey, hid⟩ :=
    Sound.appends .append sampleDraw xNote (sound_empty "prj_abc") rfl rfl happendX hsafeX
  rw [List.length_nil, hidX] at hid
  -- the key is unknown, and the id derived from it is longer than the explicit one
  have hunknown : ∀ event ∈ [first], sameEvent keyNote.toCommandFields event = false := by
    intro event hevent
    obtain rfl := List.mem_singleton.mp hevent
    rw [sameEvent, sameKey, hkey]
    rfl
  have happendK : Appendable sampleDraw keyNote.toCommandFields [first] :=
    appendable_sessionNote (by simp) (isEventId_deterministic _ _) hunknown
  have hfresh : newEventId keyNote.toCommandFields "prj_abc" 2 sampleDraw ≠ first.eventId := by
    rw [newEventId_keyNote, hid]
    intro heq
    have hlength := length_deterministicEventId "prj_abc" "k"
    rw [heq] at hlength
    exact absurd hlength (by decide)
  have hsafeK : NewEventSafe keyNote.projectId sampleDraw keyNote.toCommandFields [first] := by
    refine ⟨?_, rfl, rfl⟩
    rw [List.map_singleton, List.mem_singleton]
    exact hfresh
  obtain ⟨dir', second, hsecond, hsound', hfields', hkey', -⟩ :=
    Sound.appends .append sampleDraw keyNote hsound rfl rfl happendK hsafeK
  -- the third note meets the first event under its id
  have hcontent : first.toFingerprinted = bothNote.toFingerprinted := hfields
  have hcontent' : second.toFingerprinted = bothNote.toFingerprinted := hfields'
  obtain ⟨fingerprint, hfingerprint⟩ := computeCommandFingerprint_ok
    (c := bothNote.toFingerprinted) (canonical_dict.mpr (by simp [bothNote, sessionNote]))
  have hmatch : sameEvent bothNote.toCommandFields first = true := by
    have hsameId : sameId bothNote.toCommandFields first = true := by
      rw [sameId, hid]
      rfl
    rw [sameEvent, hsameId, Bool.or_true]
  have hfind : ([] ++ [first] ++ [second]).find? (sameEvent bothNote.toCommandFields) = some first :=
    List.find?_cons_of_pos hmatch
  have hanswer : appendUnchecked "prj_abc" sampleDraw none none dir' bothNote.toCommandFields =
      (dir', retryAnswer bothNote.toCommandFields first) :=
    hsound'.found rfl headExpected_none hfind
  rw [retryAnswer_eq (hcontent ▸ hfingerprint), hfingerprint] at hanswer
  refine ⟨dir, first, dir', second, fingerprint, hfirst, hsecond, rfl, hfingerprint,
    hcontent' ▸ hfingerprint, ?_, ?_⟩
  · have hrun := Writer.run_eq .append "prj_abc" sampleDraw dir' bothNote
    have hadmits : Writer.append.refuses bothNote.toCommandFields = false := rfl
    rw [hadmits, if_neg Bool.false_ne_true] at hrun
    exact hrun.trans (hanswer.trans (by simp only [bind, Except.bind, if_true]))
  · rintro rfl
    rw [hkey] at hkey'
    exact absurd hkey' (by decide)

end PowerFramework.Ledger
