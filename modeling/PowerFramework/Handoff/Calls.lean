import PowerFramework.Handoff.Operations
/-!
# Calls

The two operations that change a packet, as one kind of step.
-/

namespace PowerFramework.Handoff

open Lib Lib.Failure Lib.Text Lib.Writes

inductive Call where
  | create (args : CreateArgs) (now : String)
  | advance (taskId : String) (args : AdvanceArgs) (now : String)

def Call.taskId : Call → String
  | .create args _ => args.taskId
  | .advance taskId _ _ => taskId

def Call.run : Call → Statement WorkPacket
  | .create args now => createWorkPacket args now
  | .advance taskId args now => advanceWorkPacket taskId args now

def Call.outcome : Call → Option Track → Except Exn (Option LogEntry × WorkPacket)
  | .create args now, track => createOutcome args now track
  | .advance taskId args now, track => advanceOutcome taskId args now track

variable {store : Store} {track : Option Track} {call : Call} {e : LogEntry} {packet : WorkPacket}

theorem Call.run_eq (h : Represents store call.taskId track)
    (hclash : NoClash store call.taskId) :
    call.run store = enacted call.taskId track (call.outcome track) := by
  cases call with
  | create args now => exact createWorkPacket_eq h fun _ => hclash
  | advance taskId args now => exact advanceWorkPacket_eq h fun _ => hclash

theorem Call.fits (hsound : ∀ current, track = some current → current.Sound call.taskId)
    (h : call.outcome track = .ok (some e, packet)) : Fits call.taskId track e := by
  cases call with
  | create args now => exact fits_of_createOutcome h
  | advance taskId args now => exact fits_of_advanceOutcome hsound h

theorem Call.entry_packet (h : call.outcome track = .ok (some e, packet)) : e.packet = packet := by
  cases call with
  | create args now =>
    obtain ⟨-, rfl, -, -⟩ := createOutcome_entry h
    rfl
  | advance taskId args now =>
    obtain ⟨_, _, _, -, -, -, -, -, -, rfl⟩ := advanceOutcome_entry h
    rfl

/-- The writes of a call and what it returns. -/
theorem Call.run_cases (h : Represents store call.taskId track)
    (hclash : NoClash store call.taskId) :
    (∃ failure, call.outcome track = .error failure ∧ call.run store = ([], .error failure)) ∨
    (∃ packet, call.outcome track = .ok (none, packet) ∧ call.run store = ([], .ok packet)) ∨
    ∃ e, call.outcome track = .ok (some e, e.packet) ∧
      call.run store = (entryWrites call.taskId (logOf track) e, .ok e.packet) := by
  have hrun := Call.run_eq h hclash
  cases houtcome : call.outcome track with
  | error failure =>
    rw [houtcome] at hrun
    exact .inl ⟨failure, rfl, hrun⟩
  | ok result =>
    rw [houtcome] at hrun
    obtain ⟨entry, packet⟩ := result
    cases entry with
    | none => exact .inr (.inl ⟨packet, rfl, hrun⟩)
    | some e =>
      obtain rfl := Call.entry_packet houtcome
      exact .inr (.inr ⟨e, rfl, hrun⟩)

/-! ## A sample -/

end PowerFramework.Handoff
