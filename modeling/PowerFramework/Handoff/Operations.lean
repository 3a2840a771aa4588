import PowerFramework.Handoff.Track
/-!
# Operations on a track

In a store that represents a track, an operation makes the writes of its outcome: none, or those
of one more entry.
-/

namespace PowerFramework.Handoff

open Lib Lib.Failure Lib.Text Lib.Writes

variable {store : Store} {taskId now : String} {log : List LogEntry} {track : Option Track}
  {args : CreateArgs} {e : LogEntry} {packet : WorkPacket}

theorem packetPath_ne (taskId : String) : packetPath taskId ≠ taskId := by
  intro h
  have hlength := congrArg (fun s => s.toList.length) h
  simp [packetPath, String.toList_append] at hlength

theorem packetPath_injective {s t : String} (h : packetPath s = packetPath t) : s = t := by
  have hlists := congrArg String.toList h
  simp only [packetPath, String.toList_append] at hlists
  exact String.toList_inj.mp (List.append_cancel_right hlists)

/-! ## Writing -/

theorem name_ne_of_fresh {n : Nat} (hfresh : ∀ f ∈ log, f.packet.fields.checkpoint < n)
    {path : String × Content} (hpath : path ∈ log.map LogEntry.path) :
    path.1 ≠ checkpointName n := by
  obtain ⟨f, hf, rfl⟩ := List.mem_map.mp hpath
  intro heq
  have hnumber := checkpointName_injective heq
  have hlt := hfresh f hf
  omega

theorem checkpointAt_fresh {n : Nat} (h : HoldsLog store taskId log)
    (hfresh : ∀ f ∈ log, f.packet.fields.checkpoint < n) :
    checkpointAt store taskId (checkpointName n) = none := by
  unfold checkpointAt
  by_cases hempty : log = []
  · split
    · rename_i checkpoints heq
      exact absurd heq (h.absent hempty checkpoints)
    · rfl
  · rw [h.present hempty]
    show (log.map LogEntry.path).lookup (checkpointName n) = none
    rw [List.lookup_eq_none_iff]
    intro path hpath
    exact bne_iff_ne.mpr (name_ne_of_fresh hfresh hpath).symm

theorem writeMain_eq (content : Content)
    (h : ∀ checkpoints, store (packetPath taskId) ≠ some (.directory checkpoints)) :
    writeMain taskId content store = ([(packetPath taskId, some (.file content))], .ok ()) := by
  unfold writeMain
  refine Block.read_bind_ok (a := ()) ?_
  split
  · rename_i checkpoints heq
    exact absurd heq (h checkpoints)
  · rfl

theorem writeCheckpoint_eq {n : Nat} (content : Content) (h : HoldsLog store taskId log)
    (hclash : ∀ content, store taskId ≠ some (.file content))
    (hfresh : ∀ f ∈ log, f.packet.fields.checkpoint < n) :
    writeCheckpoint taskId (checkpointName n) content store =
      ([(taskId, some (.directory (log.map LogEntry.path ++ [(checkpointName n, content)])))],
        .ok ()) := by
  unfold writeCheckpoint
  have hkept : (log.map LogEntry.path).filter (fun path => path.1 ≠ checkpointName n) =
      log.map LogEntry.path := by
    rw [List.filter_eq_self]
    intro path hpath
    exact decide_eq_true (name_ne_of_fresh hfresh hpath)
  rw [Block.read_bind_ok (a := log.map LogEntry.path), hkept]
  · rfl
  · by_cases hempty : log = []
    · split
      · rename_i other heq
        exact absurd heq (hclash other)
      · rename_i checkpoints heq
        exact absurd heq (h.absent hempty checkpoints)
      · rw [hempty]
        rfl
    · rw [h.present hempty]

theorem previousPacket_eq
    (h : ∀ checkpoints, store (packetPath taskId) ≠ some (.directory checkpoints)) :
    previousPacket store taskId = .ok (store (packetPath taskId)) := by
  unfold previousPacket
  split
  · rename_i checkpoints heq
    exact absurd heq (h checkpoints)
  · rfl

/-- The main file is written first, the checkpoint behind it. -/
theorem writePacket_eq (hlog : HoldsLog store taskId log) (hclash : NoClash store taskId)
    (htask : e.packet.fields.taskId = taskId)
    (hfresh : ∀ f ∈ log, f.packet.fields.checkpoint < e.packet.fields.checkpoint) :
    writePacket e.packet e.action e.key e.fingerprint store = (entryWrites taskId log e, .ok ()) := by
  unfold writePacket
  rw [Block.get_bind, htask, checkpointAt_fresh hlog hfresh]
  show writeBoth e.packet e.action e.key e.fingerprint store = _
  unfold writeBoth
  rw [Block.get_bind, htask]
  rw [previousPacket_eq hclash.main, Block.lift_ok_bind]
  apply Block.tryCatch_apply_ok
  rw [Block.bind_apply_ok (writeMain_eq _ hclash.main)]
  have hother : ∀ key ≠ packetPath taskId,
      perform [(packetPath taskId, some (.file (renderPacket e.packet)))] store key = store key :=
    fun key hkey => Function.update_of_ne hkey _ _
  have hsame := hother taskId (packetPath_ne taskId).symm
  rw [@writeCheckpoint_eq _ _ log _ _ ⟨?_, ?_⟩ ?_ hfresh]
  · simp [entryWrites, LogEntry.path]
  · intro hempty checkpoints
    rw [hsame]
    exact hlog.absent hempty checkpoints
  · intro hne
    rw [hsame]
    exact hlog.present hne
  · intro content
    rw [hsame]
    exact hclash.directory content

theorem CreateArgs.packet_ok (h : args.packet now = .ok packet) :
    packet.fields.taskId = args.taskId ∧ packet.fields.checkpoint = 0 ∧
      packet.fields.lastActionFingerprint = args.fingerprint := by
  unfold CreateArgs.packet at h
  split at h
  · obtain ⟨-, hfields⟩ := modelValidate_ok h
    rw [hfields]
    exact ⟨rfl, rfl, rfl⟩
  · cases h

theorem updated_ok {current : WorkPacket} {given : Action × Option Phase} {advance : AdvanceArgs}
    {new : Change} {fingerprint : String}
    (h : modelValidate (updatedFields current.fields given.1 given.2 advance new fingerprint now) =
      .ok packet) :
    packet.fields.taskId = current.fields.taskId ∧
      packet.fields.checkpoint = current.fields.checkpoint + 1 ∧
      packet.fields.lastActionFingerprint = fingerprint := by
  obtain ⟨-, hfields⟩ := modelValidate_ok h
  rw [hfields]
  exact ⟨rfl, rfl, rfl⟩

/-- What a creation with a new entry has gone through. -/
theorem createOutcome_entry (h : createOutcome args now track = .ok (some e, packet)) :
    track = none ∧ e = ⟨"create", args.key, args.fingerprint, packet⟩ ∧
      isSafeToken args.key = true ∧ args.packet now = .ok packet := by
  unfold createOutcome at h
  obtain ⟨⟨⟩, -, h⟩ := bind_eq_ok.mp h
  obtain ⟨⟨⟩, hkey, h⟩ := bind_eq_ok.mp h
  have htoken : isSafeToken args.key = true := by
    simpa using raiseIf_eq_ok.mp hkey
  cases track with
  | some track =>
    obtain ⟨existing, -, h⟩ := bind_eq_ok.mp h
    obtain ⟨same, -, h⟩ := bind_eq_ok.mp h
    cases h
  | none =>
    obtain ⟨created, hcreated, h⟩ := bind_eq_ok.mp h
    cases h
    exact ⟨rfl, rfl, htoken, hcreated⟩

variable {advance : AdvanceArgs}

/-- What an action with a new entry has gone through. -/
theorem advanceOutcome_entry (h : advanceOutcome taskId advance now track = .ok (some e, packet)) :
    ∃ current given new, track = some current ∧ current.locked = false ∧
      advance.validate taskId = .ok given ∧
      (current.log.find? fun f => f.key = advance.idempotencyKey) = none ∧
      change current.current.fields given.1 given.2 advance = .ok new ∧
      modelValidate (updatedFields current.current.fields given.1 given.2 advance new
        (advance.fingerprint taskId) now) = .ok packet ∧
      e = ⟨advance.action, advance.idempotencyKey, advance.fingerprint taskId, packet⟩ := by
  unfold advanceOutcome at h
  obtain ⟨given, hgiven, h⟩ := bind_eq_ok.mp h
  obtain ⟨loaded, hload, h⟩ := bind_eq_ok.mp h
  cases track with
  | none => cases hload
  | some current =>
    obtain ⟨hlocked, rfl⟩ := load_ok hload
    split at h
    · split at h
      · cases h
      · cases h
    · rename_i hfresh
      obtain ⟨new, hnew, h⟩ := bind_eq_ok.mp h
      obtain ⟨updated, hupdated, h⟩ := bind_eq_ok.mp h
      cases h
      exact ⟨current, given, new, rfl, hlocked, hgiven, hfresh, hnew, hupdated, rfl⟩

theorem AdvanceArgs.validate_ok {given : Action × Option Phase}
    (h : advance.validate taskId = .ok given) :
    isTaskId taskId = true ∧ advance.givenAction = .ok given.1 ∧
      isSafeToken advance.idempotencyKey = true ∧ advance.givenPhase = .ok given.2 := by
  unfold AdvanceArgs.validate at h
  obtain ⟨⟨⟩, htask, h⟩ := bind_eq_ok.mp h
  obtain ⟨action, haction, h⟩ := bind_eq_ok.mp h
  obtain ⟨⟨⟩, hkey, h⟩ := bind_eq_ok.mp h
  obtain ⟨⟨⟩, -, h⟩ := bind_eq_ok.mp h
  obtain ⟨⟨⟩, -, h⟩ := bind_eq_ok.mp h
  obtain ⟨phase, hphase, h⟩ := bind_eq_ok.mp h
  cases h
  exact ⟨by simpa using raiseIf_eq_ok.mp htask, haction, by simpa using raiseIf_eq_ok.mp hkey,
    hphase⟩

/-! ## The track behind an entry -/

/-- The track with one more entry. -/
def push (track : Option Track) (e : LogEntry) : Track := ⟨e.packet, logOf track ++ [e]⟩

/-- An entry that an operation can add to the track. -/
structure Fits (taskId : String) (track : Option Track) (e : LogEntry) : Prop where
  sound : e.Sound taskId
  fresh : ∀ f ∈ logOf track, f.packet.fields.checkpoint < e.packet.fields.checkpoint
  started : track = none → e.packet.fields.checkpoint = 0

theorem fits_of_createOutcome (h : createOutcome args now track = .ok (some e, packet)) :
    Fits args.taskId track e := by
  obtain ⟨rfl, rfl, hkey, hpacket⟩ := createOutcome_entry h
  obtain ⟨htask, hzero, hfingerprint⟩ := CreateArgs.packet_ok hpacket
  exact
    { sound := ⟨htask, hkey, hfingerprint, length_actionFingerprint _ _⟩
      fresh := fun f hf => absurd hf List.not_mem_nil
      started := fun _ => hzero }

theorem fits_of_advanceOutcome (hsound : ∀ current, track = some current → current.Sound taskId)
    (h : advanceOutcome taskId advance now track = .ok (some e, packet)) :
    Fits taskId track e := by
  obtain ⟨current, given, new, rfl, -, hgiven, -, -, hupdated, rfl⟩ := advanceOutcome_entry h
  obtain ⟨htask, hnumber, hfingerprint⟩ := updated_ok hupdated
  have hcurrent := hsound current rfl
  obtain ⟨-, -, hkey, -⟩ := AdvanceArgs.validate_ok hgiven
  refine
    { sound := ⟨htask.trans hcurrent.task, hkey, hfingerprint, length_actionFingerprint _ _⟩
      fresh := fun f hf => ?_
      started := fun hnone => by cases hnone }
  have hle := hcurrent.checkpoint_le hf
  show _ < packet.fields.checkpoint
  omega

theorem Fits.push_sound (h : Fits taskId track e)
    (hsound : ∀ current, track = some current → current.Sound taskId) :
    (push track e).Sound taskId := by
  have hentries : ∀ f ∈ logOf track, f.Sound taskId := by
    cases track with
    | none => exact fun f hf => absurd hf List.not_mem_nil
    | some current => exact (hsound current rfl).entries
  have hsorted : (logOf track).Pairwise fun e f =>
      e.packet.fields.checkpoint < f.packet.fields.checkpoint := by
    cases track with
    | none => exact .nil
    | some current => exact (hsound current rfl).sorted
  refine
    { task := h.sound.task
      entries := fun f hf => ?_
      sorted := ?_
      latest := fun f hf => ?_
      started := fun hempty => absurd hempty (by simp [push]) }
  · rcases List.mem_append.mp hf with hold | hnew
    · exact hentries f hold
    · rw [List.mem_singleton.mp hnew]
      exact h.sound
  · show (logOf track ++ [e]).Pairwise _
    rw [List.pairwise_append]
    refine ⟨hsorted, List.pairwise_singleton _ _, fun f hf g hg => ?_⟩
    rw [List.mem_singleton.mp hg]
    exact h.fresh f hf
  · have hlast : (logOf track ++ [e]).getLast? = some f := hf
    rw [List.getLast?_concat] at hlast
    cases hlast
    rfl

theorem perform_entryWrites_main (taskId : String) (log : List LogEntry) (e : LogEntry)
    (store : Store) : perform (entryWrites taskId log e) store (packetPath taskId) =
      some (.file (renderPacket e.packet)) := by
  rw [entryWrites, perform_cons, perform_cons, perform_nil,
    Function.update_of_ne (packetPath_ne taskId), Function.update_self]

theorem perform_entryWrites_directory (taskId : String) (log : List LogEntry) (e : LogEntry)
    (store : Store) : perform (entryWrites taskId log e) store taskId =
      some (.directory ((log ++ [e]).map LogEntry.path)) := by
  rw [entryWrites, perform_cons, perform_cons, perform_nil, Function.update_self]

theorem perform_entryWrites_other {key : String} (hmain : key ≠ packetPath taskId)
    (hdirectory : key ≠ taskId) (log : List LogEntry) (e : LogEntry) (store : Store) :
    perform (entryWrites taskId log e) store key = store key := by
  rw [entryWrites, perform_cons, perform_cons, perform_nil, Function.update_of_ne hdirectory,
    Function.update_of_ne hmain]

theorem Fits.represents (h : Fits taskId track e)
    (hsound : ∀ current, track = some current → current.Sound taskId) (store : Store) :
    Represents (perform (entryWrites taskId (logOf track) e) store) taskId
      (some (push track e)) := by
  refine ⟨⟨fun hempty => absurd hempty (by simp [push, logOf]), fun _ => ?_⟩, h.push_sound hsound, ?_⟩
  · exact perform_entryWrites_directory taskId (logOf track) e store
  · exact perform_entryWrites_main taskId (logOf track) e store

theorem Represents.sound (h : Represents store taskId track) :
    ∀ current, track = some current → current.Sound taskId := by
  rintro current rfl
  exact h.2.1

/-- A task that is created and logged has its files to itself. -/
theorem Represents.noClash {current : Track} (h : Represents store taskId (some current))
    (hlogged : current.log ≠ []) : NoClash store taskId := by
  obtain ⟨hlog, -, hmain⟩ := h
  have hdirectory := hlog.present hlogged
  exact ⟨fun checkpoints heq => by simp [hmain] at heq, fun content heq => by simp [hdirectory] at heq⟩

/-- Another store with the same files represents the same track. -/
theorem Represents.congr {store' : Store} (h : Represents store taskId track)
    (hmain : store' (packetPath taskId) = store (packetPath taskId))
    (hdirectory : store' taskId = store taskId) : Represents store' taskId track := by
  obtain ⟨hlog, hrest⟩ := h
  refine ⟨⟨?_, ?_⟩, ?_⟩
  · rw [hdirectory]
    exact hlog.absent
  · rw [hdirectory]
    exact hlog.present
  · cases track with
    | none =>
      show ∀ content, store' (packetPath taskId) ≠ some (.file content)
      rw [hmain]
      exact hrest
    | some current =>
      refine ⟨hrest.1, ?_⟩
      rw [hmain]
      exact hrest.2

/-! ## Running the operations -/

theorem createWorkPacket_eq (h : Represents store args.taskId track)
    (hclash : track = none → NoClash store args.taskId) :
    createWorkPacket args now store =
      enacted args.taskId track (createOutcome args now track) := by
  unfold createWorkPacket createOutcome
  cases htask : validateTaskId args.taskId with
  | error failure => rfl
  | ok valid =>
    rw [Block.lift_ok_bind]
    cases hkey : validateToken args.key "idempotency_key" with
    | error failure => rfl
    | ok valid =>
      rw [Block.lift_ok_bind, Block.get_bind]
      cases track with
      | some track =>
        rw [h.2.2]
        show (loadPacket args.taskId false >>= _) store =
          enacted _ _ (load args.taskId (some track) >>= fun existing =>
            retried args existing "Work packet already exists: " >>= fun packet =>
              Pure.pure (none, packet))
        cases hload : load args.taskId (some track) with
        | error failure =>
          rw [Block.bind_apply_error (by rw [loadPacket_eq h, hload])]
          rfl
        | ok existing =>
          rw [Block.bind_apply_read (by rw [loadPacket_eq h, hload])]
          show Block.lift (retried args existing "Work packet already exists: ") store =
            enacted _ _ (retried args existing "Work packet already exists: " >>= _)
          cases retried args existing "Work packet already exists: " with
          | error failure => rfl
          | ok same => rfl
      | none =>
        have hfree := hclash rfl
        have hmain : store (packetPath args.taskId) = none := by
          cases hentry : store (packetPath args.taskId) with
          | none => rfl
          | some entry =>
            cases entry with
            | file content => exact absurd hentry (h.2 content)
            | directory checkpoints => exact absurd hentry (hfree.main checkpoints)
        rw [hmain]
        show (Block.read (latestCheckpointPath · args.taskId) >>= _) store = _
        rw [Block.read_bind_ok (latestCheckpointPath_of_log h.1 .nil
          fun e he => absurd he List.not_mem_nil)]
        show (Block.lift (args.packet now) >>= _) store = enacted _ _ (args.packet now >>= _)
        cases hpacket : args.packet now with
        | error failure => rfl
        | ok created =>
          have hwrite := writePacket_eq (e := ⟨"create", args.key, args.fingerprint, created⟩) h.1
            hfree (CreateArgs.packet_ok hpacket).1 fun f hf => absurd hf List.not_mem_nil
          rw [Block.lift_ok_bind, Block.bind_apply_ok hwrite]
          rfl

theorem advanceWorkPacket_eq (h : Represents store taskId track)
    (hclash : track ≠ none → NoClash store taskId) :
    advanceWorkPacket taskId advance now store =
      enacted taskId track (advanceOutcome taskId advance now track) := by
  unfold advanceWorkPacket advanceOutcome
  cases hgiven : advance.validate taskId with
  | error failure => rfl
  | ok given =>
    rw [Block.lift_ok_bind]
    cases hload : load taskId track with
    | error failure =>
      rw [Block.bind_apply_error (by rw [loadPacket_eq h, hload])]
      rfl
    | ok loaded =>
      rw [Block.bind_apply_read (by rw [loadPacket_eq h, hload])]
      rw [Block.read_bind_ok (findCheckpointByIdempotency_eq h advance.idempotencyKey hload)]
      cases hprior : (logOf track).find? fun e => decide (e.key = advance.idempotencyKey) with
      | some prior =>
        by_cases hsame : prior.fingerprint ≠ advance.fingerprint taskId
        · simp only [Option.map_some, if_pos hsame]
          rfl
        · simp only [Option.map_some, if_neg hsame]
          rfl
      | none =>
        show (Block.lift (change loaded.fields given.1 given.2 advance) >>= _) store =
          enacted _ _ (change loaded.fields given.1 given.2 advance >>= _)
        cases hnew : change loaded.fields given.1 given.2 advance with
        | error failure => rfl
        | ok new =>
          rw [Block.lift_ok_bind]
          show (Block.lift (modelValidate _) >>= _) store = enacted _ _ (modelValidate _ >>= _)
          cases hupdated : modelValidate (updatedFields loaded.fields given.1 given.2 advance new
              (advance.fingerprint taskId) now) with
          | error failure => rfl
          | ok updated =>
            have houtcome : advanceOutcome taskId advance now track =
                .ok (some ⟨advance.action, advance.idempotencyKey, advance.fingerprint taskId,
                  updated⟩, updated) := by
              unfold advanceOutcome
              simp only [hgiven, hload, hprior, hnew, hupdated, bind, Except.bind, pure, Except.pure]
            have hfits := fits_of_advanceOutcome h.sound houtcome
            have hsome : track ≠ none := by
              rintro rfl
              cases hload
            have hwrite := writePacket_eq h.1 (hclash hsome) hfits.sound.task hfits.fresh
            rw [Block.lift_ok_bind, Block.bind_apply_ok hwrite]
            rfl

end PowerFramework.Handoff
