import PowerFramework.Handoff.Calls
/-!
# Sessions

Any calls on any tasks, in one directory.  A task whose id ends in `.md` may find its files taken
by another one: its calls then raise and leave the directory as it was.
-/

namespace PowerFramework.Handoff

open Lib Lib.Failure Lib.Text Lib.Writes

/-- A call with its writes and its result. -/
structure Outcome where
  call : Call
  writes : List (String × Option Entry)
  result : Except Exn WorkPacket

/-- The directory behind the calls so far, and their outcomes. -/
structure Session where
  store : Store
  outcomes : List Outcome

def Session.empty : Session := ⟨fun _ => none, []⟩

def Session.call (session : Session) (call : Call) : Session :=
  let run := call.run session.store
  ⟨perform run.1 session.store, session.outcomes ++ [⟨call, run.1, run.2⟩]⟩

def session (calls : List Call) : Session := calls.foldl Session.call Session.empty

/-- The call and the packet of an outcome that has changed the packet of the task. -/
def Outcome.accepted (taskId : String) (outcome : Outcome) : Option (Call × WorkPacket) :=
  match outcome.result with
  | .ok packet =>
      if outcome.call.taskId = taskId ∧ outcome.writes ≠ [] then some (outcome.call, packet)
      else none
  | .error _ => none

/-- The successful calls on a task that are no retries and no replays. -/
def Session.steps (session : Session) (taskId : String) : List (Call × WorkPacket) :=
  session.outcomes.filterMap (Outcome.accepted taskId)

/-- A packet that is stored in a file of the task. -/
def Stored (store : Store) (taskId : String) (packet : WorkPacket) : Prop :=
  (∃ content, store (packetPath taskId) = some (.file content) ∧ readPacket content = .ok packet) ∨
    ∃ checkpoints, store taskId = some (.directory checkpoints) ∧
      ∃ path ∈ checkpoints, ∃ fingerprint,
        readPacketWithCheckpoint path.2 = .ok (fingerprint, packet)

/-! ## Paths -/

/-- The steps of a task, from its creation on. -/
inductive Path (taskId : String) : List (Call × WorkPacket) → Prop
  | created {args : CreateArgs} {now : String} {packet : WorkPacket} (htask : args.taskId = taskId)
      (hpacket : args.packet now = .ok packet) : Path taskId [(.create args now, packet)]
  | advanced {steps : List (Call × WorkPacket)} {call : Call} {current packet : WorkPacket}
      {args : AdvanceArgs} {now : String} {given : Action × Option Phase} {new : Change}
      (hpath : Path taskId (steps ++ [(call, current)]))
      (hgiven : args.validate taskId = .ok given)
      (hnew : change current.fields given.1 given.2 args = .ok new)
      (hupdated : modelValidate (updatedFields current.fields given.1 given.2 args new
        (args.fingerprint taskId) now) = .ok packet) :
      Path taskId (steps ++ [(call, current)] ++ [(.advance taskId args now, packet)])

/-- The track of a task is the path of its steps. -/
structure Follows (taskId : String) (steps : List (Call × WorkPacket)) (track : Track) : Prop where
  path : Path taskId steps
  packets : steps.map Prod.snd = track.log.map LogEntry.packet
  latest : ∃ front call, steps = front ++ [(call, track.current)]

/-- What the calls so far have made of a task. -/
def Tracks (session : Session) (taskId : String) : Option Track → Prop
  | none => session.steps taskId = []
  | some track => Follows taskId (session.steps taskId) track

variable {store : Store} {taskId other : String} {track : Option Track} {call : Call}
  {e : LogEntry} {packet : WorkPacket} {s : Session}

/-- An accepted call takes the path one step on. -/
theorem Follows.push {steps : List (Call × WorkPacket)}
    (h : match track with
      | none => steps = []
      | some current => Follows call.taskId steps current)
    (houtcome : call.outcome track = .ok (some e, packet)) :
    Follows call.taskId (steps ++ [(call, packet)]) (Handoff.push track e) := by
  cases call with
  | create args now =>
    obtain ⟨rfl, rfl, -, hpacket⟩ := createOutcome_entry houtcome
    obtain rfl : steps = [] := h
    exact ⟨.created rfl hpacket, rfl, [], _, rfl⟩
  | advance taskId args now =>
    obtain ⟨current, given, new, rfl, -, hgiven, -, hnew, hupdated, rfl⟩ :=
      advanceOutcome_entry houtcome
    have hcurrent : Follows taskId steps current := h
    obtain ⟨front, last, rfl⟩ := hcurrent.latest
    refine ⟨.advanced hcurrent.path hgiven hnew hupdated, ?_, _, _, rfl⟩
    rw [List.map_append, hcurrent.packets]
    simp [Handoff.push, logOf]

/-! ## Other tasks -/

/-- Every task has a track that its files represent. -/
def Tracked (s : Session) : Prop :=
  ∀ taskId, ∃ track, Represents s.store taskId track ∧ Tracks s taskId track

theorem steps_call (s : Session) (call : Call) (taskId : String) :
    (s.call call).steps taskId = s.steps taskId ++
      ((Outcome.accepted taskId ⟨call, (call.run s.store).1, (call.run s.store).2⟩).toList) := by
  unfold Session.steps Session.call
  rw [List.filterMap_append]
  rfl

end PowerFramework.Handoff
