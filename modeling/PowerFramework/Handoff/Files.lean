import PowerFramework.Handoff.Packet
import PowerFramework.Lib.Padded
import PowerFramework.Lib.Writes
/-!
# Packet files

The directory `work-packets`: the main file `<task id>.md` of a packet and the directory
`<task id>/checkpoints` of its numbered checkpoints.  A file is the frontmatter it parses to.
-/

namespace PowerFramework.Handoff

open Lib Lib.Failure Lib.Text Lib.Writes

/-! ## Contents -/

/-- The mapping that a frontmatter is parsed to. -/
structure Document where
  controlPlane : Option String
  /-- The fields of the model, unless they do not have its types. -/
  fields : Option Fields
  checkpointAction : Option String
  checkpointKey : Option String
  checkpointFingerprint : Option String
  deriving DecidableEq

inductive Content where
  | unreadable
  | noFrontmatter
  | openFrontmatter
  | noMapping
  | mapping (document : Document)
  deriving DecidableEq

/-- What is found under a name of the directory. -/
inductive Entry where
  | file (content : Content)
  | directory (checkpoints : List (String × Content))
  deriving DecidableEq

abbrev Store := String → Option Entry

abbrev Statement (α : Type) := Block String (Option Entry) Exn α

/-- `_render_packet(packet)` -/
def renderPacket (packet : WorkPacket) : Content :=
  .mapping ⟨some "power-work-packet", some packet.fields, none, none, none⟩

/-- `_render_packet` of a checkpoint -/
def renderCheckpoint (packet : WorkPacket) (action key fingerprint : String) : Content :=
  .mapping ⟨some "power-work-packet", some packet.fields, some action, some key, some fingerprint⟩

/-- `WorkPacket.model_validate(data)`, with its exception renamed. -/
def Document.packet (document : Document) (message : String) : Except Exn WorkPacket :=
  match document.fields with
  | some fields => (modelValidate fields).mapError fun _ => valueError message
  | none => .error (valueError message)

/-- `_read_packet` -/
def readPacket : Content → Except Exn WorkPacket
  | .unreadable => .error (valueError "work packet is unreadable")
  | .noFrontmatter => .error (valueError "work packet has no frontmatter")
  | .openFrontmatter => .error (valueError "work packet frontmatter is incomplete")
  | .noMapping => .error (valueError "work packet has invalid control-plane metadata")
  | .mapping document =>
      if document.controlPlane ≠ some "power-work-packet" then
        .error (valueError "work packet has invalid control-plane metadata")
      else if document.checkpointAction.isSome ∨ document.checkpointKey.isSome ∨
          document.checkpointFingerprint.isSome then
        .error (valueError "work packet schema is invalid")
      else document.packet "work packet schema is invalid"

/-- `_read_packet_with_checkpoint` -/
def readPacketWithCheckpoint : Content → Except Exn (String × WorkPacket)
  | .unreadable => .error (valueError "work-packet checkpoint is unreadable")
  | .noFrontmatter => .error (valueError "work packet has no frontmatter")
  | .openFrontmatter => .error (valueError "work packet frontmatter is incomplete")
  | .noMapping => .error (valueError "work-packet checkpoint has invalid control-plane metadata")
  | .mapping document =>
      if document.controlPlane ≠ some "power-work-packet" then
        .error (valueError "work-packet checkpoint has invalid control-plane metadata")
      else
        match document.checkpointFingerprint with
        | some fingerprint =>
            if fingerprint.toList.length ≠ 64 then
              .error (valueError "work-packet checkpoint has no valid fingerprint")
            else
              (document.packet "work-packet checkpoint schema is invalid").map (fingerprint, ·)
        | none => .error (valueError "work-packet checkpoint has no valid fingerprint")

/-- `_checkpoint_key` -/
def checkpointKey : Content → Except Exn String
  | .unreadable | .noFrontmatter | .openFrontmatter =>
      .error (valueError "work-packet checkpoint is unreadable")
  | .noMapping => .error (valueError "work-packet checkpoint metadata is invalid")
  | .mapping document =>
      match document.checkpointKey with
      | some value => (validateToken value "checkpoint_idempotency_key").map fun _ => value
      | none => .error (valueError "work-packet checkpoint has no idempotency key")

@[simp] theorem readPacket_renderPacket (packet : WorkPacket) :
    readPacket (renderPacket packet) = .ok packet := by
  simp [readPacket, renderPacket, Document.packet, Except.mapError]

@[simp] theorem readPacketWithCheckpoint_renderCheckpoint (packet : WorkPacket)
    (action key : String) {fingerprint : String} (h : fingerprint.toList.length = 64) :
    readPacketWithCheckpoint (renderCheckpoint packet action key fingerprint) =
      .ok (fingerprint, packet) := by
  simp only [readPacketWithCheckpoint, renderCheckpoint, Document.packet, ne_eq, not_true_eq_false,
    if_false, h, modelValidate_fields]
  rfl

@[simp] theorem checkpointKey_renderCheckpoint (packet : WorkPacket) (action fingerprint : String)
    {key : String} (h : isSafeToken key = true) :
    checkpointKey (renderCheckpoint packet action key fingerprint) = .ok key := by
  simp [checkpointKey, renderCheckpoint, validateToken, h, raiseIf, Except.map]

/-! ## Paths -/

/-- `_packet_path` -/
def packetPath (taskId : String) : String := taskId ++ ".md"

/-- `f"{checkpoint:06d}.md"` -/
def checkpointName (checkpoint : Nat) : String :=
  String.ofList (Padded.zeroPad 6 checkpoint) ++ ".md"

/-- `_checkpoint_directory(vault_dir, task_id).glob("*.md")`, sorted -/
def checkpointPaths (store : Store) (taskId : String) : List (String × Content) :=
  match store taskId with
  | some (.directory checkpoints) =>
      (checkpoints.filter fun path => endsWith ".md" path.1).mergeSort fun a b => a.1 ≤ b.1
  | _ => []

/-- `re.fullmatch(r"\d{6}", path.stem)` -/
def isCheckpointName (name : String) : Bool :=
  let stem := (removeSuffix ".md" name).toList
  stem.length = 6 && stem.all isDigit

def invalidFilenameError : Exn := valueError "work-packet checkpoint has an invalid filename"

/-- `_latest_checkpoint_path` -/
def latestCheckpointPath (store : Store) (taskId : String) :
    Except Exn (Option (String × Content)) :=
  if ((checkpointPaths store taskId).any fun path => !isCheckpointName path.1) = true then
    .error invalidFilenameError
  else .ok (checkpointPaths store taskId).getLast?

theorem checkpointName_injective {n m : Nat} (h : checkpointName n = checkpointName m) : n = m := by
  unfold checkpointName at h
  have htext := congrArg String.toList h
  simp only [String.toList_append, String.toList_ofList] at htext
  exact Padded.zeroPad_injective (List.append_cancel_right htext)

theorem endsWith_checkpointName (n : Nat) : endsWith ".md" (checkpointName n) = true :=
  endsWith_append _ _

theorem checkpointName_lt {n m : Nat} (hlt : n < m) (hm : m < 1000000) :
    checkpointName n < checkpointName m := by
  unfold checkpointName
  rw [String.lt_iff]
  simp only [String.toList_append, String.toList_ofList]
  have hlength : ∀ k < 1000000, (Padded.zeroPad 6 k).length = 6 := fun k hk =>
    (Padded.length_zeroPad_eq (by decide) k).mpr hk
  exact Padded.append_lt_append (by rw [hlength n (by omega), hlength m hm])
    (Padded.zeroPad_lt (by decide) hlt hm)

/-- A seventh digit makes the name one that no packet is loaded with. -/
theorem isCheckpointName_checkpointName (n : Nat) :
    isCheckpointName (checkpointName n) = decide (n < 1000000) := by
  unfold isCheckpointName checkpointName
  rw [removeSuffix_append, String.toList_ofList]
  have hdigits : (Padded.zeroPad 6 n).all isDigit = true := by
    rw [List.all_eq_true]
    intro c hc
    have hdigit := Padded.isDigit_of_mem_zeroPad hc
    simp only [Char.isDigit, Bool.and_eq_true, decide_eq_true_eq] at hdigit
    simp only [isDigit, Bool.and_eq_true, decide_eq_true_eq]
    exact hdigit
  show (decide ((Padded.zeroPad 6 n).length = 6) && (Padded.zeroPad 6 n).all isDigit) = _
  rw [hdigits, Bool.and_true]
  exact decide_eq_decide.mpr (Padded.length_zeroPad_eq (by decide) n)

/-! ## Loading -/

def fileNotFoundError (taskId : String) : Exn :=
  ⟨"FileNotFoundError", "Work packet not found: " ++ taskId⟩

/-- The packet that `_load_packet` returns, and whether the main file lags behind it. -/
def loadState (taskId : String) (store : Store) : Except Exn (WorkPacket × Bool) := do
  match ← latestCheckpointPath store taskId, store (packetPath taskId) with
  | none, some (.file content) => do
      let packet ← readPacket content
      raiseIf (packet.fields.checkpoint ≠ 0)
        (valueError "work packet has no immutable checkpoint for its state")
      return (packet, false)
  | none, _ => .error (fileNotFoundError taskId)
  | some path, entry => do
      let (checkpointFingerprint, checkpointPacket) ← readPacketWithCheckpoint path.2
      raiseIf (checkpointPacket.fields.taskId ≠ taskId)
        (valueError "work-packet checkpoint task_id does not match its path")
      match entry with
      | some (.file content) => do
          let packet ← readPacket content
          if packet = checkpointPacket ∧
              packet.fields.lastActionFingerprint = checkpointFingerprint then
            return (packet, false)
          else if packet.fields.checkpoint < checkpointPacket.fields.checkpoint then
            return (checkpointPacket, true)
          else
            .error (valueError "work-packet main state does not match its latest checkpoint")
      | _ => return (checkpointPacket, true)

def isADirectoryError : Exn := ⟨"IsADirectoryError", "Is a directory"⟩

def notADirectoryError : Exn := ⟨"NotADirectoryError", "Not a directory"⟩

/-- `atomic_write(packet_path, …)` -/
def writeMain (taskId : String) (content : Content) : Statement Unit := do
  Block.read fun store =>
    match store (packetPath taskId) with
    | some (.directory _) => .error isADirectoryError
    | _ => .ok ()
  Block.write (packetPath taskId) (some (.file content))

/-- `_load_packet` -/
def loadPacket (taskId : String) (recover : Bool) : Statement WorkPacket := do
  let loaded ← Block.read (loadState taskId)
  if recover = true ∧ loaded.2 = true then
    writeMain taskId (renderPacket loaded.1)
  return loaded.1

/-- `_find_checkpoint_by_idempotency`, over the sorted paths -/
def findCheckpoint (idempotencyKey : String) :
    List (String × Content) → Except Exn (Option (String × WorkPacket))
  | [] => .ok none
  | path :: paths => do
      let key ← checkpointKey path.2
      if key = idempotencyKey then return some (← readPacketWithCheckpoint path.2)
      else findCheckpoint idempotencyKey paths

def findCheckpointByIdempotency (taskId idempotencyKey : String) (store : Store) :
    Except Exn (Option (String × WorkPacket)) :=
  findCheckpoint idempotencyKey (checkpointPaths store taskId)

/-! ## Writing -/

/-- `atomic_write(checkpoint_path, …)` -/
def writeCheckpoint (taskId name : String) (content : Content) : Statement Unit := do
  let checkpoints ← Block.read fun store =>
    match store taskId with
    | some (.file _) => .error notADirectoryError
    | some (.directory checkpoints) => .ok checkpoints
    | none => .ok []
  Block.write taskId
    (some (.directory (checkpoints.filter (fun path => path.1 ≠ name) ++ [(name, content)])))

/-- `_restore_text(packet_path, previous_packet)` -/
def restoreMain (taskId : String) (previous : Option Entry) : Statement Unit :=
  Block.write (packetPath taskId) previous

/-- `_restore_text(checkpoint_path, None)` -/
def unlinkCheckpoint (taskId name : String) : Statement Unit := do
  let store ← Block.get
  match store taskId with
  | some (.file _) => Block.lift (.error notADirectoryError)
  | some (.directory checkpoints) =>
      if name ∈ checkpoints.map Prod.fst then
        Block.write taskId (some (.directory (checkpoints.filter fun path => path.1 ≠ name)))
      else Block.lift (.ok ())
  | none => Block.lift (.ok ())

/-- The content of a checkpoint that exists. -/
def checkpointAt (store : Store) (taskId name : String) : Option Content :=
  match store taskId with
  | some (.directory checkpoints) => checkpoints.lookup name
  | _ => none

/-- The branch of `_write_packet` for a checkpoint that exists. -/
def writeAgain (packet : WorkPacket) (idempotencyKey fingerprint : String) (content : Content) :
    Statement Unit := do
  let existing ← Block.lift (readPacketWithCheckpoint content)
  let existingKey ← Block.lift (checkpointKey content)
  Block.lift (raiseIf
    (existing.1 ≠ fingerprint ∨ existingKey ≠ idempotencyKey ∨ existing.2 ≠ packet)
    (runtimeError "work-packet checkpoint collision detected"))
  let store ← Block.get
  match store (packetPath packet.fields.taskId) with
  | some (.file main) => do
      let stored ← Block.lift (readPacket main)
      Block.lift (raiseIf (stored ≠ packet)
        (runtimeError "work-packet main state does not match its checkpoint"))
  | some (.directory _) => Block.lift (.error (fileNotFoundError packet.fields.taskId))
  | none => writeMain packet.fields.taskId (renderPacket packet)

/-- `previous_packet` -/
def previousPacket (store : Store) (taskId : String) : Except Exn (Option Entry) :=
  match store (packetPath taskId) with
  | some (.directory _) => .error isADirectoryError
  | entry => .ok entry

/-- The branch of `_write_packet` for a new checkpoint. -/
def writeBoth (packet : WorkPacket) (action idempotencyKey fingerprint : String) :
    Statement Unit := do
  let taskId := packet.fields.taskId
  let name := checkpointName packet.fields.checkpoint
  let store ← Block.get
  let previous ← Block.lift (previousPacket store taskId)
  Block.tryCatch
    (do
      writeMain taskId (renderPacket packet)
      writeCheckpoint taskId name (renderCheckpoint packet action idempotencyKey fingerprint))
    fun e => do
      restoreMain taskId previous
      unlinkCheckpoint taskId name
      Block.lift (.error e)

/-- `_write_packet` -/
def writePacket (packet : WorkPacket) (action idempotencyKey fingerprint : String) :
    Statement Unit := do
  let store ← Block.get
  match checkpointAt store packet.fields.taskId (checkpointName packet.fields.checkpoint) with
  | some content => writeAgain packet idempotencyKey fingerprint content
  | none => writeBoth packet action idempotencyKey fingerprint

/-! ## The operations -/

/-- The packet of an idempotent retry of its creation. -/
def retried (args : CreateArgs) (existing : WorkPacket) (message : String) :
    Except Exn WorkPacket :=
  if existing.fields.lastAction = "create" ∧ existing.fields.lastIdempotencyKey = args.key ∧
      existing.fields.lastActionFingerprint = args.fingerprint then .ok existing
  else .error ⟨"FileExistsError", message ++ args.taskId⟩

/-- `create_work_packet` -/
def createWorkPacket (args : CreateArgs) (now : String) : Statement WorkPacket := do
  Block.lift (validateTaskId args.taskId)
  Block.lift (validateToken args.key "idempotency_key")
  let store ← Block.get
  if (store (packetPath args.taskId)).isSome = true then do
    let existing ← loadPacket args.taskId false
    Block.lift (retried args existing "Work packet already exists: ")
  else do
    let latest ← Block.read (latestCheckpointPath · args.taskId)
    if latest.isSome = true then do
      let existing ← loadPacket args.taskId true
      Block.lift (retried args existing "Work packet checkpoint already exists: ")
    else do
      let packet ← Block.lift (args.packet now)
      writePacket packet "create" args.key args.fingerprint
      return packet

/-- `advance_work_packet` -/
def advanceWorkPacket (taskId : String) (args : AdvanceArgs) (now : String) :
    Statement WorkPacket := do
  let given ← Block.lift (args.validate taskId)
  let packet ← loadPacket taskId true
  let fingerprint := args.fingerprint taskId
  let prior ← Block.read (findCheckpointByIdempotency taskId args.idempotencyKey)
  match prior with
  | some prior =>
      if prior.1 ≠ fingerprint then
        Block.lift (.error
          (runtimeError "idempotency key reused for a different work-packet action"))
      else return prior.2
  | none => do
      let new ← Block.lift (change packet.fields given.1 given.2 args)
      let updated ← Block.lift
        (modelValidate (updatedFields packet.fields given.1 given.2 args new fingerprint now))
      writePacket updated args.action args.idempotencyKey fingerprint
      return updated

end PowerFramework.Handoff
