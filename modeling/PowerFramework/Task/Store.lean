import Mathlib.Logic.Function.Basic
import PowerFramework.Task.Journal
import PowerFramework.TaskStore.Manifest
/-!
# The task store

The files of tasks, journals, checkpoints and receipts, how they are read, and the transaction
that writes them together.  A transaction that raises leaves the files as they were, so it is a
function from the files to an exception or to the new files.
-/

namespace PowerFramework.Task

open Lib Lib.Failure Lib.Json Ledger TaskStore

/-- The files of the vault, by path. -/
abbrev Files := RelPath → Option Bytes

def taskPath (taskId : String) : RelPath := tasksDir ++ [taskId ++ ".json"]

def eventsPath (taskId : String) : RelPath := tasksDir ++ ["events", taskId ++ ".jsonl"]

def checkpointPath (taskId : String) (sequence : Int) : RelPath :=
  tasksDir ++ ["checkpoints", taskId ++ "_seq_" ++ toString sequence ++ ".json"]

def receiptPath (receiptId : String) : RelPath := tasksDir ++ ["receipts", receiptId ++ ".json"]

/-- `_task_file` -/
def taskFile (taskId : String) : Except Exn RelPath := do
  ensureValidTaskId taskId
  return taskPath taskId

/-- `_events_file` -/
def eventsFile (taskId : String) : Except Exn RelPath := do
  ensureValidTaskId taskId
  return eventsPath taskId

/-- `_checkpoint_file` -/
def checkpointFile (event : TaskEvent) : Except Exn RelPath := do
  ensureValidTaskId event.taskId
  return checkpointPath event.taskId event.sequence

/-- `_completion_receipt_file` -/
def completionReceiptFile (receiptId : String) : Except Exn RelPath := do
  raiseIf (!isReceiptId receiptId)
    (valueError "receipt_id must be a canonical task completion receipt token")
  return receiptPath receiptId

/-- `atomic_write(path, text)` -/
def atomicWrite (path : RelPath) (text : List Char) (files : Files) : Files :=
  Function.update files path (some (Utf8.encode text))

/-! ## Reading -/

/-- `_read_secure_text` of a file with these bytes. -/
def secureText (data : Bytes) : Except Exn (List Char) := do
  raiseIf (maxTaskStateBytes < data.length)
    (valueError "task state file is not a bounded regular file")
  match Utf8.decode data with
  | some text => return text
  | none => .error ⟨"UnicodeDecodeError", "'utf-8' codec can't decode bytes"⟩

/-- `_read_text` -/
def readText (files : Files) (path : RelPath) : Except Exn (Option (List Char)) :=
  match files path with
  | none => .ok none
  | some data => (secureText data).map some

/-- The value of a JSON file with these bytes. -/
def secureJson (data : Bytes) : Except Exn Value := do
  let text ← secureText data
  match loads text with
  | some value => return value
  | none => .error ⟨"JSONDecodeError", "malformed JSON"⟩

/-- `try: x except …: raise e` -/
def orRaise {α : Type} (x : Except Exn α) (e : Exn) : Except Exn α :=
  match x with
  | .ok a => .ok a
  | .error _ => .error e

/-- `json.dumps(task.model_dump(), indent=2, ensure_ascii=False)` -/
def taskText (task : PowerTask) : Except Exn (List Char) :=
  (Layout.indented 2 false).write 0 (.dict task)

/-- `json.dumps(receipt.model_dump(), indent=2, ensure_ascii=False, sort_keys=True)` -/
def receiptText (receipt : TaskCompletionReceipt) : Except Exn (List Char) :=
  (Layout.indented 2 true).write 0 (.dict receipt)

section
variable [LaxInt] (now : String)

def loadTask (taskId : String) (data : Bytes) : Except Exn PowerTask :=
  orRaise (secureJson data >>= validate (taskFields now))
    (valueError ("Malformed task snapshot " ++ taskId))

/-- `get_task` -/
def getTask (files : Files) (taskId : String) : Except Exn (Option PowerTask) := do
  let path ← taskFile taskId
  match files path with
  | none => return none
  | some data =>
      let task ← loadTask now taskId data
      return some task

/-- A receipt whose id is derived from its content. -/
def checkedReceipt (value : Value) : Except Exn TaskCompletionReceipt := do
  let receipt : TaskCompletionReceipt ← validate (receiptFields now) value
  let expectedId ← TaskCompletionReceipt.deriveReceiptId receipt.content
  raiseIf (receipt.receiptId ≠ expectedId)
    (valueError "Task completion receipt derivation mismatch")
  return receipt

def loadReceipt (receiptId : String) (data : Bytes) : Except Exn TaskCompletionReceipt :=
  orRaise (secureJson data >>= checkedReceipt now)
    (valueError ("Malformed task completion receipt " ++ receiptId))

/-- `get_completion_receipt` -/
def getCompletionReceipt (files : Files) (receiptId : String) :
    Except Exn (Option TaskCompletionReceipt) := do
  let path ← completionReceiptFile receiptId
  match files path with
  | none => return none
  | some data =>
      let receipt ← loadReceipt now receiptId data
      return some receipt

/-- `get_task_events` -/
def getTaskEvents (files : Files) (taskId : String) (sinceSequence : Int) (allowMissing : Bool) :
    Except Exn (List TaskEvent) := do
  let path ← eventsFile taskId
  let needed := (files (taskPath taskId)).isSome && !allowMissing
  match files path with
  | none => do
      raiseIf (needed = true) (journalIntegrityError "Task event journal is missing")
      return []
  | some data => do
      let text ← secureText data
      raiseIf (Splitlines.isBlank text && needed)
        (journalIntegrityError "Task event journal is empty")
      let events ← readJournal now taskId text
      raiseIf (events.isEmpty && needed) (journalIntegrityError "Task event journal is empty")
      return events.filter (sinceSequence < ·.sequence)

/-- `get_last_event_digest` -/
def getLastEventDigest (files : Files) (taskId : String) : Except Exn String :=
  (getTaskEvents now files taskId 0 false).map (lastDigest "")

/-! ## Writing -/

/-- `_append_event_unlocked`.  What it restores when it raises, the transaction restores too. -/
def appendEventUnlocked (files : Files) (event : TaskEvent) : Except Exn Files := do
  let eventsPath ← eventsFile event.taskId
  let previousEvents ← readText files eventsPath
  let checkpointPath ← checkpointFile event
  let _ ← readText files checkpointPath
  let existing ← getTaskEvents now files event.taskId 0 true
  raiseIf (existing.getLast?.any fun last => event.sequence ≤ last.sequence)
    (valueError "Task event sequence must be strictly increasing")
  let line ← eventLine event
  let written := atomicWrite eventsPath (previousEvents.getD [] ++ line) files
  if event.sequence % 5 = 0 then
    match ← getTask now written event.taskId with
    | some task =>
        let text ← taskText task
        return atomicWrite checkpointPath text written
    | none => return written
  else return written

end

/-- What `_transaction_locked` demands of an artifact before and after its body. -/
def checkArtifact (op : String) (files : Files) (artifact : RelPath × String) :
    Except Exn Unit := do
  let label ← recoveryLabel artifact.2
  let _ ← allowedRecoveryPath label artifact.1 op
  raiseIf ((files artifact.1).any fun data => maxTaskStateBytes < data.length)
    (valueError "task state file is not a bounded regular file")

/-- `_transaction` around `body`. -/
def transact (op : String) (touched : List (RelPath × String))
    (body : Files → Except Exn Files) (files : Files) : Except Exn Files := do
  touched.forM (checkArtifact op files)
  let written ← body files
  touched.forM (checkArtifact op written)
  return written

/-- The artifacts of `save_task`. -/
def touchedBySave (task : PowerTask) (event : Option TaskEvent)
    (receipt : Option TaskCompletionReceipt) : List (RelPath × String) :=
  [(taskPath task.taskId, "snapshot")] ++
    (match event with
      | none => []
      | some event =>
          [(eventsPath task.taskId, "event")] ++
            (if event.sequence % 5 = 0 then
              [(checkpointPath event.taskId event.sequence, "checkpoint")] else [])) ++
    (match receipt with
      | none => []
      | some receipt => [(receiptPath receipt.receiptId, "receipt")])

/-- The body of the transaction of `save_task`. -/
def writeSaved [LaxInt] (now : String) (task : PowerTask) (event : Option TaskEvent)
    (receipt : Option TaskCompletionReceipt) (files : Files) : Except Exn Files := do
  let text ← taskText task
  let files := atomicWrite (taskPath task.taskId) text files
  let files ← match receipt with
    | none => pure files
    | some receipt => do
        let text ← receiptText receipt
        pure (atomicWrite (receiptPath receipt.receiptId) text files)
  match event with
  | none => return files
  | some event => appendEventUnlocked now files event

/-- `save_task` -/
def saveTask [LaxInt] (now : String) (files : Files) (task : PowerTask) (event : Option TaskEvent)
    (receipt : Option TaskCompletionReceipt) : Except Exn Files := do
  let snapshotFile ← taskFile task.taskId
  raiseIf (event.any fun event => event.taskId ≠ task.taskId)
    (valueError "Task snapshot and event task IDs must match")
  if (files snapshotFile).isSome then
    let _ ← getTaskEvents now files task.taskId 0 false
  if let some receipt := receipt then
    let _ ← completionReceiptFile receipt.receiptId
    raiseIf (receipt.taskId ≠ task.taskId)
      (valueError "Completion receipt task ID does not match snapshot")
    raiseIf (receipt.taskRevision ≠ task.revision)
      (valueError "Completion receipt revision does not match snapshot")
  let op := (event.map TaskEvent.eventType).getD "task_snapshot"
  transact op (touchedBySave task event receipt) (writeSaved now task event receipt) files

/-- `append_event` -/
def appendEvent [LaxInt] (now : String) (files : Files) (event : TaskEvent) : Except Exn Files := do
  let snapshotFile ← taskFile event.taskId
  if (files snapshotFile).isSome then
    let _ ← getTaskEvents now files event.taskId 0 false
  let touched := [(eventsPath event.taskId, "event")] ++
    (if event.sequence % 5 = 0 then
      [(checkpointPath event.taskId event.sequence, "checkpoint")] else [])
  transact "task_event_append" touched (fun files => appendEventUnlocked now files event) files

end PowerFramework.Task
