import PowerFramework.Handoff.Sessions
/-!
# Independent tasks

Main files and checkpoint directories are told apart by the suffix `.md` alone.  As long as no
task id ends in it, the calls on one task do what they would do in a directory of their own, and
the directory lists the packets that were created.
-/

namespace PowerFramework.Handoff

open Lib Lib.Failure Lib.Text Lib.Writes

/-- A task id that no main file has as its name. -/
def Plain (taskId : String) : Prop := endsWith ".md" taskId = false

/-- The track behind a call. -/
def trackStep (track : Option Track) (call : Call) : Option Track :=
  match call.outcome track with
  | .ok (some e, _) => some (push track e)
  | _ => track

/-- The calls on a task. -/
def callsOn (taskId : String) (calls : List Call) : List Call :=
  calls.filter fun call => call.taskId = taskId

/-- The track that the calls on a task leave. -/
def trackOf (taskId : String) (calls : List Call) : Option Track :=
  (callsOn taskId calls).foldl trackStep none

/-- Every task has its files, and no other files are there. -/
structure Separate (calls : List Call) (store : Store) : Prop where
  represents : ∀ taskId, Plain taskId → Represents store taskId (trackOf taskId calls)
  files : ∀ key content, store key = some (.file content) →
    ∃ taskId, key = packetPath taskId ∧ Plain taskId ∧ trackOf taskId calls ≠ none
  directories : ∀ key checkpoints, store key = some (.directory checkpoints) → Plain key

variable {store : Store} {taskId : String} {calls : List Call} {call : Call} {e : LogEntry}
  {packet : WorkPacket} {track : Option Track}

theorem not_plain_packetPath (taskId : String) : ¬ Plain (packetPath taskId) := by
  intro h
  have hsuffix : endsWith ".md" (packetPath taskId) = true := endsWith_append _ _
  rw [Plain, hsuffix] at h
  cases h

theorem Separate.noClash (h : Separate calls store) (hplain : Plain taskId) :
    NoClash store taskId := by
  refine ⟨fun checkpoints hmain => ?_, fun content hfile => ?_⟩
  · exact not_plain_packetPath taskId (h.directories _ _ hmain)
  · obtain ⟨owner, rfl, -⟩ := h.files _ _ hfile
    exact not_plain_packetPath owner hplain

theorem callsOn_concat (taskId : String) (calls : List Call) (call : Call) :
    callsOn taskId (calls ++ [call]) =
      callsOn taskId calls ++ if call.taskId = taskId then [call] else [] := by
  unfold callsOn
  rw [List.filter_append]
  by_cases h : call.taskId = taskId <;> simp [h]

theorem trackOf_concat_other (h : call.taskId ≠ taskId) :
    trackOf taskId (calls ++ [call]) = trackOf taskId calls := by
  rw [trackOf, callsOn_concat, if_neg h, List.append_nil, trackOf]

theorem trackOf_concat (h : call.taskId = taskId) :
    trackOf taskId (calls ++ [call]) = trackStep (trackOf taskId calls) call := by
  rw [trackOf, callsOn_concat, if_pos h, List.foldl_append, trackOf]
  rfl

theorem trackStep_ne_none (h : track ≠ none) : trackStep track call ≠ none := by
  unfold trackStep
  split
  · simp
  · exact h

/-- A call that makes no entry leaves what its task has. -/
theorem Separate.unchanged (h : Separate calls store)
    (hsame : trackStep (trackOf call.taskId calls) call = trackOf call.taskId calls) :
    Separate (calls ++ [call]) store := by
  have htracks : ∀ taskId, trackOf taskId (calls ++ [call]) = trackOf taskId calls := by
    intro taskId
    by_cases htask : call.taskId = taskId
    · rw [trackOf_concat htask, ← htask, hsame]
    · exact trackOf_concat_other htask
  refine ⟨fun taskId hplain => ?_, fun key content hfile => ?_, h.directories⟩
  · rw [htracks]
    exact h.represents taskId hplain
  · obtain ⟨owner, hkey, hplain, hsome⟩ := h.files key content hfile
    exact ⟨owner, hkey, hplain, by rw [htracks]; exact hsome⟩

/-- The writes of an entry stay among the files of its task. -/
theorem Separate.entry (h : Separate calls store) (hplain : Plain call.taskId)
    (houtcome : call.outcome (trackOf call.taskId calls) = .ok (some e, packet)) :
    Separate (calls ++ [call])
      (perform (entryWrites call.taskId (logOf (trackOf call.taskId calls)) e) store) := by
  have hrepresents := h.represents call.taskId hplain
  have hfits : Fits call.taskId (trackOf call.taskId calls) e :=
    Call.fits hrepresents.sound houtcome
  have hown : trackOf call.taskId (calls ++ [call]) =
      some (push (trackOf call.taskId calls) e) := by
    rw [trackOf_concat rfl, trackStep, houtcome]
  have hkept : ∀ key, key ≠ packetPath call.taskId → key ≠ call.taskId →
      perform (entryWrites call.taskId (logOf (trackOf call.taskId calls)) e) store key =
        store key :=
    fun key hmain hdirectory => perform_entryWrites_other hmain hdirectory _ e store
  refine ⟨fun taskId htask => ?_, fun key content hfile => ?_, fun key checkpoints hdir => ?_⟩
  · by_cases hsame : taskId = call.taskId
    · subst hsame
      rw [hown]
      exact hfits.represents hrepresents.sound store
    · rw [trackOf_concat_other (Ne.symm hsame)]
      apply (h.represents taskId htask).congr
      · refine hkept _ (fun heq => hsame (packetPath_injective heq)) fun heq => ?_
        rw [← heq] at hplain
        exact not_plain_packetPath taskId hplain
      · refine hkept _ (fun heq => ?_) hsame
        rw [heq] at htask
        exact not_plain_packetPath call.taskId htask
  · by_cases hmain : key = packetPath call.taskId
    · exact ⟨call.taskId, hmain, hplain, by rw [hown]; simp⟩
    · by_cases hdirectory : key = call.taskId
      · rw [hdirectory, perform_entryWrites_directory] at hfile
        cases hfile
      · rw [hkept key hmain hdirectory] at hfile
        obtain ⟨owner, hkey, howner, hsome⟩ := h.files key content hfile
        refine ⟨owner, hkey, howner, ?_⟩
        by_cases hsame : call.taskId = owner
        · rw [trackOf_concat hsame]
          exact trackStep_ne_none hsome
        · rw [trackOf_concat_other hsame]
          exact hsome
  · by_cases hdirectory : key = call.taskId
    · rw [hdirectory]
      exact hplain
    · by_cases hmain : key = packetPath call.taskId
      · rw [hmain, perform_entryWrites_main] at hdir
        cases hdir
      · rw [hkept key hmain hdirectory] at hdir
        exact h.directories key checkpoints hdir

/-- A call runs as its track says. -/
theorem Separate.run (h : Separate calls store) (hplain : Plain call.taskId) :
    call.run store = enacted call.taskId (trackOf call.taskId calls)
      (call.outcome (trackOf call.taskId calls)) :=
  Call.run_eq (h.represents _ hplain) (h.noClash hplain)

/-- The names of the directory, in some order. -/
structure Lists (names : List String) (store : Store) : Prop where
  nodup : names.Nodup
  mem : ∀ name, name ∈ names ↔ store name ≠ none

/-- Some call has created the task. -/
def Created (s : Session) (taskId : String) : Prop :=
  ∃ outcome ∈ s.outcomes, ∃ args now packet, outcome.call = .create args now ∧
    args.taskId = taskId ∧ outcome.result = .ok packet

/-- No packet has a checkpoint of seven digits. -/
def Short (store : Store) : Prop :=
  ∀ taskId packet, Stored store taskId packet → packet.fields.checkpoint < 1000000

/-- What is read under a task with a track. -/
theorem Separate.load (h : Separate calls store) (hshort : Short store) (hplain : Plain taskId)
    (hsome : trackOf taskId calls ≠ none) :
    ∃ packet, packet.fields.taskId = taskId ∧ loadPacket taskId false store = ([], .ok packet) := by
  have hrepresents := h.represents taskId hplain
  cases htrack : trackOf taskId calls with
  | none => exact absurd htrack hsome
  | some current =>
    rw [htrack] at hrepresents
    have hstored : Stored store taskId current.current :=
      .inl ⟨_, hrepresents.2.2, readPacket_renderPacket _⟩
    have hnumber := hshort taskId _ hstored
    have hunlocked : current.locked = false := decide_eq_false (by omega)
    refine ⟨current.current, (hrepresents.sound current rfl).task, ?_⟩
    rw [loadPacket_eq hrepresents, load_current hunlocked]

end PowerFramework.Handoff
