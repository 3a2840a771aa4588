import PowerFramework.TaskStore.Recovery
/-!
# Transactions

`_transaction_locked` over the artifacts it names: the prepared manifest and the preimages,
the body, then the committed manifest, or the rollback when the body raised.  The body is
the list of atomic artifact writes it performs and the exception it ends with, if any.
-/

namespace PowerFramework.TaskStore

open Lib.Crash Lib.Failure

structure Transaction where
  txId : String
  op : String
  idempotencyKey : Option String
  commandSha256 : Option String
  createdAt : String
  touched : List (RelPath × String)
  body : List (RelPath × Option Bytes)
  failure : Option Exn

namespace Transaction

/-- The artifacts that the transaction names. -/
def paths (t : Transaction) : List RelPath := t.touched.map Prod.fst

def labels (t : Transaction) : List String := t.touched.map Prod.snd

/-- The body's writes as file operations. -/
def bodyOps (t : Transaction) : List FsOp := t.body.map fun w => .store w.1 w.2

/-- The manifest that the transaction builds, `prepared`. -/
def manifest (t : Transaction) (vault : String) (entries : List Touched) : Manifest where
  txId := t.txId
  op := t.op
  idempotencyKey := t.idempotencyKey
  commandSha256 := t.commandSha256
  stage := .prepared
  createdAt := .utc t.createdAt
  vault := vault
  touched := entries

end Transaction

/-- One artifact of the preparation loop: its manifest entry, without the postimage, and the
preimage to back up. -/
def prepareEntry (d : Disk) (op : String) (path : RelPath) (label : String) :
    Except Exn (Touched × Option Bytes) := do
  let safeLabel ← recoveryLabel label
  let _ ← allowedRecoveryPath safeLabel path op
  let pre ← readImage d path
  return (⟨safeLabel, path, imageDigest pre, none⟩, pre)

def backupOps (txId label : String) : Option Bytes → List FsOp
  | none => []
  | some pre => [.tx txId (.writeBackup label pre)]

/-- The preparation loop: the backups written, and the manifest entries or the exception
that cut the loop short. -/
def prepareTouched (d : Disk) (txId op : String) :
    List (RelPath × String) → List FsOp × Except Exn (List Touched)
  | [] => ([], .ok [])
  | (path, label) :: rest =>
      match prepareEntry d op path label with
      | .error e => ([], .error e)
      | .ok (entry, pre) =>
          let (backups, entries) := prepareTouched d txId op rest
          (backupOps txId entry.label pre ++ backups, entries.map (entry :: ·))

/-- The postimage digest of one artifact, read after the body. -/
def finishEntry (d : Disk) (op : String) (t : Touched) : Except Exn Touched := do
  let path ← allowedRecoveryPath t.label t.rel op
  let post ← readImage d path
  return { t with postimageDigest := some (imageDigest post) }

/-- The end of the `try` block: the body's exception, or the postimages. -/
def finishTouched (d : Disk) (t : Transaction) (entries : List Touched) :
    Except Exn (List Touched) :=
  match t.failure with
  | some e => .error e
  | none => entries.mapM (finishEntry d t.op)

inductive Outcome where
  | refused (e : Exn)
  | committed
  | rolledBack (e : Exn)
  | rollbackFailed (e : Exn)
  deriving DecidableEq, Repr

/-- The outcome sets `_recovery_blocked` on the instance. -/
def Outcome.blocks : Outcome → Bool
  | .rollbackFailed _ => true
  | _ => false

structure TxRun where
  ops : List FsOp
  outcome : Outcome

/-- `_transaction_locked` up to the end of its preparation loop. -/
def prepareOps (d : Disk) (t : Transaction) : List FsOp :=
  .tx t.txId .mkdir :: (prepareTouched d t.txId t.op t.touched).1

/-- The operations up to the last write of the body. -/
def throughBody (vault : String) (d : Disk) (t : Transaction) (entries : List Touched) :
    List FsOp :=
  prepareOps d t ++ .tx t.txId (.writeManifest (t.manifest vault entries)) :: t.bodyOps

/-- The commit: the committed manifest, then the removal of the directory. -/
def commitOps (env : FsEnv) (d : Disk) (m : Manifest) (posts : List Touched) : List FsOp :=
  let write := .tx m.txId (.writeManifest { m with stage := .committed, touched := posts })
  write :: rmtreeOps env m.txId ((FsOp.apply write d).txDir m.txId)

/-- `_transaction_locked` -/
def runTransaction (env : FsEnv) (vault : String) (d : Disk) (t : Transaction) : TxRun :=
  match (prepareTouched d t.txId t.op t.touched).2 with
  | .error e => ⟨prepareOps d t, .refused e⟩
  | .ok entries =>
      let m := t.manifest vault entries
      let ops := throughBody vault d t entries
      let after := runOps FsOp.apply ops d
      match finishTouched after t entries with
      | .ok posts => ⟨ops ++ commitOps env after m posts, .committed⟩
      | .error e =>
          let dir := after.txDir t.txId
          match rollbackTx dir t.op entries with
          | (writes, none) => ⟨ops ++ (writes ++ rmtreeOps env t.txId dir), .rolledBack e⟩
          | (writes, some _) => ⟨ops ++ writes, .rollbackFailed e⟩

/-- The disk after the transaction. -/
def afterTransaction (env : FsEnv) (vault : String) (d : Disk) (t : Transaction) : Disk :=
  runOps FsOp.apply (runTransaction env vault d t).ops d

/-- The operation makes the committed manifest of `txId` durable. -/
def FsOp.commits (txId : String) : FsOp → Bool
  | .tx name (.writeManifest m) => name == txId && m.stage == .committed
  | _ => false

/-- The commit is among the operations performed. -/
def commitDurable (txId : String) (done : List FsOp) : Bool := done.any (FsOp.commits txId)

/-! A snapshot update, for the runs on fixed inputs. -/

def sampleFile : RelPath := [".power", "tasks", "t1.json"]

def sampleVault : Disk := ⟨Function.update (fun _ => none) sampleFile (some [1]), ∅, []⟩

def sampleTransaction : Transaction where
  txId := "0f"
  op := "task_snapshot"
  idempotencyKey := none
  commandSha256 := none
  createdAt := "2026-01-01T00:00:00+00:00"
  touched := [(sampleFile, "snapshot")]
  body := [(sampleFile, some [2])]
  failure := none

/-- The operations of the sample: the directory, the backup, the manifest, the write, the
committed manifest, and the removal in three steps. -/
def sampleOps : List FsOp := (runTransaction .ordered "/vault" sampleVault sampleTransaction).ops

end PowerFramework.TaskStore
