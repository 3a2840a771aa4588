import PowerFramework.TaskStore.Disk
/-!
# Recovery

`recover` walks the leftover transaction directories of dead processes, classifies each by
the digests in its manifest, rolls an unfinished one back and removes what it has settled.
Every routine here returns the file operations it performs, in order, so a process killed
inside it has performed a prefix.
-/

namespace PowerFramework.TaskStore

open Lib.Crash Lib.Failure Lib.Sha256

def imageDigest (image : Option Bytes) : Option String := image.map hexdigest

/-- One artifact of `_rollback_tx`: the write that restores its preimage. -/
def rollbackEntry (dir : TxDir) (op : String) (t : Touched) : Except Exn FsOp := do
  let path ← allowedRecoveryPath t.label t.rel op
  match t.preimageDigest with
  | none => return .store path none
  | some pre =>
      let label ← recoveryLabel t.label
      match dir.backups[label]? with
      | none => throw ⟨"FileNotFoundError", label ++ ".bak"⟩
      | some data =>
          raiseIf (maxTaskStateBytes < data.length)
            (valueError "task state file is not a bounded regular file")
          raiseIf (hexdigest data ≠ pre)
            (runtimeError ("recovery backup corrupted for " ++ t.label))
          return .store path (some data)

/-- `_rollback_tx`: the writes performed, and the exception that cut them short. -/
def rollbackTx (dir : TxDir) (op : String) : List Touched → List FsOp × Option Exn
  | [] => ([], none)
  | t :: ts =>
      match rollbackEntry dir op t with
      | .error e => ([], some e)
      | .ok write =>
          let (writes, failure) := rollbackTx dir op ts
          (write :: writes, failure)

inductive ImageState where
  | post
  | pre
  | mixed
  deriving DecidableEq, Repr

/-- The state of one artifact in `_reconcile_tx`, from its content now. -/
def classify (t : Touched) (cur : Option Bytes) : ImageState :=
  let post := t.postimageDigest.getD none
  if post ≠ none ∧ imageDigest cur = post then .post
  else if (t.preimageDigest = none ∧ cur = none) ∨
      (t.preimageDigest ≠ none ∧ imageDigest cur = t.preimageDigest) then .pre
  else .mixed

def imageState (d : Disk) (op : String) (t : Touched) : Except Exn ImageState := do
  let path ← allowedRecoveryPath t.label t.rel op
  let cur ← readImage d path
  return classify t cur

inductive Status where
  | committed
  | rolledBack
  | reconciledRollback
  deriving DecidableEq, Repr

def Status.text : Status → String
  | .committed => "committed"
  | .rolledBack => "rolled_back"
  | .reconciledRollback => "reconciled_rollback"

/-- `_reconcile_tx` -/
def reconcileTx (d : Disk) (dir : TxDir) (m : Manifest) : List FsOp × Except Exn Status :=
  match m.touched.mapM (imageState d m.op) with
  | .error e => ([], .error e)
  | .ok states =>
      if states ≠ [] ∧ ∀ s ∈ states, s = .post then ([], .ok .committed)
      else if states ≠ [] ∧ ∀ s ∈ states, s = .pre then ([], .ok .rolledBack)
      else if m.stage = .prepared then
        match rollbackTx dir m.op m.touched with
        | (writes, none) => (writes, .ok .reconciledRollback)
        | (writes, some e) => (writes, .error e)
      else
        ([], .error (runtimeError
          "committed task transaction has mixed state; operator recovery required"))

/-- Reading and validating `manifest.json`. -/
def readManifest (vault : String) (m : Manifest) (name : String) : Except Exn Manifest :=
  if m.readable then validateRecoveryManifest vault m name
  else .error (valueError "task state file is not a bounded regular file")

/-- `_log_recovery_record` -/
def logRecoveryRecord (env : FsEnv) (record : LogRecord) : List FsOp :=
  if env.logWritable record.txId then [.appendLog record] else []

/-- What one directory contributes to `recover`. -/
structure EntryRun where
  ops : List FsOp
  blocked : Bool
  result : Option (String × Status)

/-- The body of the loop of `recover`. -/
def recoverEntry (env : FsEnv) (vault : String) (d : Disk) (name : String) : EntryRun :=
  let dir := d.txDir name
  match dir.manifest with
  | none => ⟨[], true, none⟩
  | some stored =>
      match readManifest vault stored name with
      | .error _ =>
          ⟨logRecoveryRecord env ⟨name, "unknown", "fail_closed", some "corrupt_manifest", none⟩,
            true, none⟩
      | .ok m =>
          match reconcileTx d dir m with
          | (writes, .error e) =>
              ⟨writes ++ logRecoveryRecord env
                ⟨m.txId, m.op, "fail_closed", some ("reconcile_error:" ++ e.kind), none⟩,
                true, none⟩
          | (writes, .ok status) =>
              let record := ⟨m.txId, m.op, status.text, none, some (m.touched.map (·.rel))⟩
              if env.logWritable record.txId then
                ⟨writes ++ [.appendLog record] ++ rmtreeOps env name dir, false,
                  some (m.txId, status)⟩
              else
                ⟨writes, true, none⟩

/-- A call of `recover`: its operations, whether it set `_recovery_blocked`, its results. -/
structure RecoverRun where
  ops : List FsOp
  blocked : Bool
  results : List (String × Status)

def recoverEntries (env : FsEnv) (vault : String) : List String → Disk → RecoverRun
  | [], _ => ⟨[], false, []⟩
  | name :: names, d =>
      let run := recoverEntry env vault d name
      let rest := recoverEntries env vault names (runOps FsOp.apply run.ops d)
      ⟨run.ops ++ rest.ops, run.blocked || rest.blocked, run.result.toList ++ rest.results⟩

/-- `TaskStore.recover` -/
def recover (env : FsEnv) (vault : String) (d : Disk) : RecoverRun :=
  recoverEntries env vault (env.iterdir d.tx.keys) d

/-- The disk after a complete call of `recover`. -/
def afterRecover (env : FsEnv) (vault : String) (d : Disk) : Disk :=
  runOps FsOp.apply (recover env vault d).ops d

/-- The two flags of a `TaskStore` instance. -/
structure Instance where
  recovered : Bool
  recoveryBlocked : Bool
  deriving DecidableEq, Repr

def Instance.fresh : Instance := ⟨false, false⟩

/-- An outermost `TaskStore.lock`: the operations of its recovery, the instance afterwards,
and the exception when the lock is not acquired. -/
structure LockRun where
  ops : List FsOp
  inst : Instance
  failure : Option Exn

def recoveryBlockedError : Exn :=
  runtimeError "TaskStore recovery is blocked; repair preserved transaction evidence"

/-- `TaskStore.lock`, once the file lock is held. -/
def lock (env : FsEnv) (vault : String) (d : Disk) (inst : Instance) : LockRun :=
  if inst.recoveryBlocked then ⟨[], inst, some recoveryBlockedError⟩
  else if inst.recovered then ⟨[], inst, none⟩
  else
    let run := recover env vault d
    if run.blocked then ⟨run.ops, { inst with recoveryBlocked := true }, some recoveryBlockedError⟩
    else ⟨run.ops, { inst with recovered := true }, none⟩

end PowerFramework.TaskStore
