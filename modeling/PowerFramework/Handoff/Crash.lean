import PowerFramework.Handoff.Calls
/-!
# Kills

The calls on one task, each of them possibly killed between its atomic writes.  The main file is
written before the checkpoint, but `_load_packet` only recovers a main file that lags behind: a
kill between the two writes of an action leaves a packet that is not loaded any more.
-/

namespace PowerFramework.Handoff

open Lib Lib.Failure Lib.Text Lib.Writes

/-- A call, with the number of atomic writes it makes before it is killed. -/
structure Event where
  call : Call
  kill : Option Nat := none

/-- What an event writes. -/
def Event.writes (event : Event) (store : Store) : List (String × Option Entry) :=
  match event.kill with
  | some n => (event.call.run store).1.take n
  | none => (event.call.run store).1

def Event.step (store : Store) (event : Event) : Store := perform (event.writes store) store

/-- No action is killed between its two writes, and none with a new key finds checkpoint 999,999. -/
def Event.Clean (store : Store) (event : Event) : Prop :=
  match event.call with
  | .create _ _ => True
  | .advance taskId args _ => event.kill ≠ some 1 ∧
      ∀ packet, (loadPacket taskId false store).2 = .ok packet →
        packet.fields.checkpoint < 999999 ∨
          findCheckpointByIdempotency taskId args.idempotencyKey store ≠ .ok none

variable {taskId now : String} {store : Store} {track : Option Track} {failure : Exn}
  {args : AdvanceArgs}

/-- The files represent the track, no other file is in their way, and they can be loaded. -/
structure Settled (store : Store) (taskId : String) (track : Option Track) : Prop where
  represents : Represents store taskId track
  clash : NoClash store taskId
  unlocked : ∀ current, track = some current → current.locked = false

variable {event : Event} {e : LogEntry} {packet : WorkPacket}

theorem noClash_entryWrites (store : Store) (taskId : String) (log : List LogEntry) (e : LogEntry) :
    NoClash (perform (entryWrites taskId log e) store) taskId := by
  refine ⟨fun checkpoints => ?_, fun content => ?_⟩
  · rw [perform_entryWrites_main]
    simp
  · rw [perform_entryWrites_directory]
    simp

/-- The files behind the writes of an entry. -/
theorem Settled.pushed (h : Settled store taskId track) (hfits : Fits taskId track e)
    (hunlocked : (push track e).locked = false) :
    Settled (perform (entryWrites taskId (logOf track) e) store) taskId (some (push track e)) :=
  { represents := hfits.represents h.represents.sound store
    clash := noClash_entryWrites _ _ _ _
    unlocked := fun current hcurrent => by
      cases hcurrent
      exact hunlocked }

/-- The files behind the first write of a creation: a packet without a log. -/
theorem Settled.created (h : Settled store taskId none) (hfits : Fits taskId none e) :
    Settled (perform ((entryWrites taskId [] e).take 1) store) taskId (some ⟨e.packet, []⟩) := by
  have hmain : perform ((entryWrites taskId [] e).take 1) store (packetPath taskId) =
      some (.file (renderPacket e.packet)) := Function.update_self ..
  have hdirectory : perform ((entryWrites taskId [] e).take 1) store taskId = store taskId :=
    Function.update_of_ne (packetPath_ne taskId).symm ..
  have hzero := hfits.started rfl
  refine
    { represents := ⟨⟨fun _ => ?_, fun hne => absurd rfl hne⟩, ⟨hfits.sound.task, ?_, .nil, ?_, ?_⟩,
        hmain⟩
      clash := ⟨fun checkpoints => ?_, fun content => ?_⟩
      unlocked := fun current hcurrent => ?_ }
  · rw [hdirectory]
    exact h.represents.1.absent rfl
  · exact fun f hf => absurd hf List.not_mem_nil
  · exact fun f hf => by cases hf
  · exact fun _ => hzero
  · rw [hmain]
    simp
  · rw [hdirectory]
    exact h.clash.directory content
  · cases hcurrent
    exact decide_eq_false (by rw [hzero]; decide)

/-- An action whose key is logged returns what it made. -/
theorem Settled.replay (h : Settled store taskId track) {given : Action × Option Phase}
    (hgiven : args.validate taskId = .ok given)
    (hfind : ((logOf track).find? fun f => f.key = args.idempotencyKey) = some e)
    (hfingerprint : e.fingerprint = args.fingerprint taskId) (now : String) :
    advanceWorkPacket taskId args now store = ([], .ok e.packet) := by
  rw [advanceWorkPacket_eq h.represents fun _ => h.clash]
  cases track with
  | none => cases hfind
  | some current =>
    unfold advanceOutcome
    simp only [hgiven, load_current (h.unlocked current rfl), hfind, hfingerprint, bind,
      Except.bind, ne_eq, not_true_eq_false, if_false]
    rfl

/-- The call of an event, made again at some time and not killed. -/
def Event.again (args : AdvanceArgs) (taskId now : String) : Event :=
  ⟨.advance taskId args now, none⟩

end PowerFramework.Handoff
