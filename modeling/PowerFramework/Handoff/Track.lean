import Mathlib.Data.String.Basic
import PowerFramework.Handoff.Files
/-!
# Tracks

A packet apart from its files: the current packet, and the log of the actions that made it.  The
operations on the files do what `createOutcome` and `advanceOutcome` say about the track.
-/

namespace PowerFramework.Handoff

open Lib Lib.Failure Lib.Text Lib.Writes

/-- An action with the packet that it made. -/
structure LogEntry where
  action : String
  key : String
  fingerprint : String
  packet : WorkPacket

/-- The checkpoint file of an entry. -/
def LogEntry.path (e : LogEntry) : String × Content :=
  (checkpointName e.packet.fields.checkpoint,
    renderCheckpoint e.packet e.action e.key e.fingerprint)

structure LogEntry.Sound (taskId : String) (e : LogEntry) : Prop where
  task : e.packet.fields.taskId = taskId
  key : isSafeToken e.key = true
  fingerprint : e.packet.fields.lastActionFingerprint = e.fingerprint
  length : e.fingerprint.toList.length = 64

structure Track where
  current : WorkPacket
  log : List LogEntry

/-- A packet is logged from its creation on, unless that was killed behind its first write. -/
structure Track.Sound (taskId : String) (track : Track) : Prop where
  task : track.current.fields.taskId = taskId
  entries : ∀ e ∈ track.log, e.Sound taskId
  sorted : track.log.Pairwise fun e f => e.packet.fields.checkpoint < f.packet.fields.checkpoint
  latest : ∀ e, track.log.getLast? = some e → e.packet = track.current
  started : track.log = [] → track.current.fields.checkpoint = 0

/-- A checkpoint number of seven digits. -/
def Track.locked (track : Track) : Bool := 1000000 ≤ track.current.fields.checkpoint

def logOf : Option Track → List LogEntry
  | some track => track.log
  | none => []

/-! ## What the operations do -/

/-- What `_load_packet` finds. -/
def load (taskId : String) : Option Track → Except Exn WorkPacket
  | some track => if track.locked = true then .error invalidFilenameError else .ok track.current
  | none => .error (fileNotFoundError taskId)

/-- The new entry of `create_work_packet`, if it is no retry, and what it returns. -/
def createOutcome (args : CreateArgs) (now : String) (track : Option Track) :
    Except Exn (Option LogEntry × WorkPacket) := do
  validateTaskId args.taskId
  validateToken args.key "idempotency_key"
  match track with
  | some track => do
      let existing ← load args.taskId (some track)
      let packet ← retried args existing "Work packet already exists: "
      return (none, packet)
  | none => do
      let packet ← args.packet now
      return (some ⟨"create", args.key, args.fingerprint, packet⟩, packet)

/-- The new entry of `advance_work_packet`, if it is no replay, and what it returns. -/
def advanceOutcome (taskId : String) (args : AdvanceArgs) (now : String) (track : Option Track) :
    Except Exn (Option LogEntry × WorkPacket) := do
  let given ← args.validate taskId
  let packet ← load taskId track
  match (logOf track).find? fun e => e.key = args.idempotencyKey with
  | some prior =>
      if prior.fingerprint ≠ args.fingerprint taskId then
        .error (runtimeError "idempotency key reused for a different work-packet action")
      else return (none, prior.packet)
  | none => do
      let new ← change packet.fields given.1 given.2 args
      let updated ← modelValidate
        (updatedFields packet.fields given.1 given.2 args new (args.fingerprint taskId) now)
      return (some ⟨args.action, args.idempotencyKey, args.fingerprint taskId, updated⟩, updated)

/-- The writes of a new entry: the main file, and behind it the checkpoint. -/
def entryWrites (taskId : String) (log : List LogEntry) (e : LogEntry) :
    List (String × Option Entry) :=
  [(packetPath taskId, some (.file (renderPacket e.packet))),
    (taskId, some (.directory ((log ++ [e]).map LogEntry.path)))]

/-- The run of an operation with an outcome. -/
def enacted (taskId : String) (track : Option Track) :
    Except Exn (Option LogEntry × WorkPacket) →
      List (String × Option Entry) × Except Exn WorkPacket
  | .error e => ([], .error e)
  | .ok (none, packet) => ([], .ok packet)
  | .ok (some e, packet) => (entryWrites taskId (logOf track) e, .ok packet)

/-! ## Representation -/

structure HoldsLog (store : Store) (taskId : String) (log : List LogEntry) : Prop where
  absent : log = [] → ∀ checkpoints, store taskId ≠ some (.directory checkpoints)
  present : log ≠ [] → store taskId = some (.directory (log.map LogEntry.path))

/-- The files of the task are those of the track. -/
def Represents (store : Store) (taskId : String) (track : Option Track) : Prop :=
  HoldsLog store taskId (logOf track) ∧
    match track with
    | some track => track.Sound taskId ∧
        store (packetPath taskId) = some (.file (renderPacket track.current))
    | none => ∀ content, store (packetPath taskId) ≠ some (.file content)

/-- No file of another task is where a file or the directory of this one belongs. -/
structure NoClash (store : Store) (taskId : String) : Prop where
  main : ∀ checkpoints, store (packetPath taskId) ≠ some (.directory checkpoints)
  directory : ∀ content, store taskId ≠ some (.file content)

section Loading

variable {store : Store} {taskId : String} {log : List LogEntry} {track : Track}

theorem checkpointPaths_absent (h : ∀ checkpoints, store taskId ≠ some (.directory checkpoints)) :
    checkpointPaths store taskId = [] := by
  unfold checkpointPaths
  split
  · rename_i checkpoints heq
    exact absurd heq (h checkpoints)
  · rfl

theorem filter_paths (log : List LogEntry) :
    (log.map LogEntry.path).filter (fun path => endsWith ".md" path.1) =
      log.map LogEntry.path := by
  rw [List.filter_eq_self]
  intro path hpath
  obtain ⟨e, -, rfl⟩ := List.mem_map.mp hpath
  exact endsWith_checkpointName _

/-- The paths of six-digit numbers are sorted as the log is. -/
theorem checkpointPaths_of_log (h : HoldsLog store taskId log)
    (hsorted : log.Pairwise fun e f => e.packet.fields.checkpoint < f.packet.fields.checkpoint)
    (hsix : ∀ e ∈ log, e.packet.fields.checkpoint < 1000000) :
    checkpointPaths store taskId = log.map LogEntry.path := by
  by_cases hempty : log = []
  · rw [checkpointPaths_absent (h.absent hempty), hempty]
    rfl
  · unfold checkpointPaths
    rw [h.present hempty]
    show ((log.map LogEntry.path).filter _).mergeSort _ = _
    rw [filter_paths]
    apply List.mergeSort_of_pairwise
    rw [List.pairwise_map]
    refine hsorted.imp_of_mem fun {e f} he hf hlt => ?_
    exact decide_eq_true (le_of_lt (checkpointName_lt hlt (hsix f hf)))

theorem mem_checkpointPaths (h : HoldsLog store taskId log) (hne : log ≠ []) {path : String × Content} :
    path ∈ checkpointPaths store taskId ↔ path ∈ log.map LogEntry.path := by
  unfold checkpointPaths
  rw [h.present hne]
  show path ∈ ((log.map LogEntry.path).filter _).mergeSort _ ↔ _
  rw [filter_paths, List.mem_mergeSort]

theorem latestCheckpointPath_of_log (h : HoldsLog store taskId log)
    (hsorted : log.Pairwise fun e f => e.packet.fields.checkpoint < f.packet.fields.checkpoint)
    (hsix : ∀ e ∈ log, e.packet.fields.checkpoint < 1000000) :
    latestCheckpointPath store taskId = .ok (log.getLast?.map LogEntry.path) := by
  unfold latestCheckpointPath
  rw [checkpointPaths_of_log h hsorted hsix, if_neg, List.getLast?_map]
  rw [List.any_eq_true]
  rintro ⟨path, hpath, hname⟩
  obtain ⟨e, he, rfl⟩ := List.mem_map.mp hpath
  have hvalid : isCheckpointName e.path.1 = true := by
    rw [LogEntry.path, isCheckpointName_checkpointName]
    exact decide_eq_true (hsix e he)
  rw [hvalid] at hname
  cases hname

/-- The last entry has the largest number. -/
theorem Track.Sound.checkpoint_le (h : track.Sound taskId) {e : LogEntry} (he : e ∈ track.log) :
    e.packet.fields.checkpoint ≤ track.current.fields.checkpoint := by
  obtain ⟨front, last, heq⟩ := List.eq_nil_or_concat track.log |>.resolve_left
    (List.ne_nil_of_mem he)
  rw [List.concat_eq_append] at heq
  have hlast : last.packet = track.current := h.latest last (by rw [heq, List.getLast?_concat])
  have hsorted := h.sorted
  rw [heq, List.pairwise_append] at hsorted
  rw [heq, List.mem_append, List.mem_singleton] at he
  rw [← hlast]
  rcases he with hfront | rfl
  · exact (hsorted.2.2 e hfront last (List.mem_singleton_self last)).le
  · exact le_refl _

theorem Track.Sound.six (h : track.Sound taskId) (hlocked : track.locked = false) :
    ∀ e ∈ track.log, e.packet.fields.checkpoint < 1000000 := by
  intro e he
  have hle := h.checkpoint_le he
  have hcurrent : ¬ 1000000 ≤ track.current.fields.checkpoint := of_decide_eq_false hlocked
  omega

theorem latestCheckpointPath_locked (h : HoldsLog store taskId track.log)
    (hsound : track.Sound taskId) (hlocked : track.locked = true) :
    latestCheckpointPath store taskId = .error invalidFilenameError := by
  have hnumber : 1000000 ≤ track.current.fields.checkpoint := of_decide_eq_true hlocked
  have hne : track.log ≠ [] := by
    intro hempty
    have hzero := hsound.started hempty
    omega
  have hlast := List.getLast?_eq_some_getLast hne
  unfold latestCheckpointPath
  rw [if_pos]
  rw [List.any_eq_true]
  refine ⟨(track.log.getLast hne).path,
    (mem_checkpointPaths h hne).mpr (List.mem_map_of_mem (List.getLast_mem hne)), ?_⟩
  rw [LogEntry.path, isCheckpointName_checkpointName, hsound.latest _ hlast,
    decide_eq_false (by omega)]
  rfl

theorem load_locked (h : track.locked = true) :
    load taskId (some track) = .error invalidFilenameError := if_pos h

theorem load_current (h : track.locked = false) :
    load taskId (some track) = .ok track.current := by
  rw [load, h]
  rfl

theorem load_ok {packet : WorkPacket} (h : load taskId (some track) = .ok packet) :
    track.locked = false ∧ packet = track.current := by
  cases hlocked : track.locked with
  | true =>
    rw [load_locked hlocked] at h
    cases h
  | false =>
    rw [load_current hlocked] at h
    cases h
    exact ⟨rfl, rfl⟩

theorem loadState_none (h : Represents store taskId none) :
    loadState taskId store = .error (fileNotFoundError taskId) := by
  obtain ⟨hlog, hmain⟩ := h
  unfold loadState
  rw [latestCheckpointPath_of_log hlog .nil (fun e he => absurd he List.not_mem_nil)]
  dsimp only [bind, Except.bind]
  split
  · rename_i content _ heq
    exact absurd heq (hmain content)
  · rfl
  · rename_i heq
    cases heq

theorem loadState_some (h : Represents store taskId (some track)) (hlocked : track.locked = false) :
    loadState taskId store = .ok (track.current, false) := by
  obtain ⟨hlog, hsound, hmain⟩ := h
  unfold loadState
  rw [latestCheckpointPath_of_log hlog hsound.sorted (hsound.six hlocked), hmain]
  have hentries : logOf (some track) = track.log := rfl
  rw [hentries]
  dsimp only [bind, Except.bind]
  cases hlast : track.log.getLast? with
  | none =>
    have hzero := hsound.started (List.getLast?_eq_none_iff.mp hlast)
    simp [readPacket_renderPacket, hzero, raiseIf, pure, Except.pure]
  | some e =>
    have hmem := List.mem_of_getLast? hlast
    have he := hsound.entries e hmem
    have hpacket := hsound.latest e hlast
    have hread := readPacketWithCheckpoint_renderCheckpoint e.packet e.action e.key he.length
    rw [hpacket] at hread
    have hfingerprint := he.fingerprint
    rw [hpacket] at hfingerprint
    simp only [Option.map_some, LogEntry.path, hpacket, hread, hsound.task,
      readPacket_renderPacket, hfingerprint, raiseIf, ne_eq, not_true_eq_false, if_false, and_self,
      if_true, pure, Except.pure]

theorem loadState_locked (h : Represents store taskId (some track)) (hlocked : track.locked = true) :
    loadState taskId store = .error invalidFilenameError := by
  obtain ⟨hlog, hsound, -⟩ := h
  unfold loadState
  rw [latestCheckpointPath_locked hlog hsound hlocked]
  rfl

/-- `_load_packet` never has to write in a store that represents a track. -/
theorem loadPacket_eq {track : Option Track} (h : Represents store taskId track) (recover : Bool) :
    loadPacket taskId recover store = ([], load taskId track) := by
  unfold loadPacket
  cases track with
  | none => rw [Block.read_bind_error (loadState_none h), load]
  | some track =>
    cases hlocked : track.locked with
    | true => rw [Block.read_bind_error (loadState_locked h hlocked), load_locked hlocked]
    | false =>
      rw [Block.read_bind_ok (loadState_some h hlocked), load_current hlocked]
      have hsettled : ¬ (recover = true ∧ false = true) := fun h => Bool.false_ne_true h.2
      rw [if_neg hsettled]
      rfl

theorem findCheckpoint_of_log (key : String) (h : ∀ e ∈ log, e.Sound taskId) :
    findCheckpoint key (log.map LogEntry.path) =
      .ok ((log.find? fun e => e.key = key).map fun e => (e.fingerprint, e.packet)) := by
  induction log with
  | nil => rfl
  | cons e log ih =>
    rw [List.forall_mem_cons] at h
    have hkey : checkpointKey e.path.2 = .ok e.key :=
      checkpointKey_renderCheckpoint e.packet e.action e.fingerprint h.1.key
    have hread : readPacketWithCheckpoint e.path.2 = .ok (e.fingerprint, e.packet) :=
      readPacketWithCheckpoint_renderCheckpoint e.packet e.action e.key h.1.length
    rw [List.map_cons, findCheckpoint, hkey]
    show (if e.key = key then _ else _) = _
    by_cases hsame : e.key = key
    · rw [if_pos hsame, hread, List.find?_cons_of_pos (by simpa using hsame)]
      rfl
    · rw [if_neg hsame, ih h.2, List.find?_cons_of_neg (by simpa using hsame)]

theorem findCheckpointByIdempotency_eq {track : Option Track} (h : Represents store taskId track)
    (key : String) {packet : WorkPacket} (hload : load taskId track = .ok packet) :
    findCheckpointByIdempotency taskId key store =
      .ok (((logOf track).find? fun e => e.key = key).map fun e => (e.fingerprint, e.packet)) := by
  cases track with
  | none => cases hload
  | some track =>
    obtain ⟨hlog, hsound, -⟩ := h
    unfold findCheckpointByIdempotency
    rw [checkpointPaths_of_log hlog hsound.sorted (hsound.six (load_ok hload).1)]
    exact findCheckpoint_of_log key hsound.entries

end Loading

end PowerFramework.Handoff
