import Mathlib.Logic.Function.Basic
import PowerFramework.Lib.Crash
import PowerFramework.TaskStore.Manifest
/-!
# The store on disk

The state that outlives a process: the artifacts, the transaction directories below `.tx`
and the recovery log.  `FsOp` is one atomic file operation; a temporary file that is written
and then renamed counts as one.
-/

namespace PowerFramework.TaskStore

open Lib.Crash Lib.Failure

/-- A transaction directory: `manifest.json` and the preimages `<label>.bak`. -/
structure TxDir where
  manifest : Option Manifest
  backups : Std.ExtTreeMap String Bytes

def TxDir.empty : TxDir := ⟨none, ∅⟩

structure LogRecord where
  txId : String
  op : String
  recoveredAs : String
  reason : Option String
  affected : Option (List RelPath)
  deriving DecidableEq, Repr

structure Disk where
  files : RelPath → Option Bytes
  tx : Std.ExtTreeMap String TxDir
  recoveryLog : List LogRecord

/-- One operation on a transaction directory. -/
inductive TxOp where
  | mkdir
  | writeBackup (label : String) (data : Bytes)
  | writeManifest (manifest : Manifest)
  | removeBackup (label : String)
  | removeManifest
  | rmdir

def TxOp.apply : TxOp → Option TxDir → Option TxDir
  | .mkdir, dir => some (dir.getD .empty)
  | .writeBackup label data, dir =>
      let dir := dir.getD .empty
      some { dir with backups := dir.backups.insert label data }
  | .writeManifest manifest, dir => some { dir.getD .empty with manifest := some manifest }
  | .removeBackup label, dir => dir.map fun dir =>
      { dir with backups := dir.backups.erase label }
  | .removeManifest, dir => dir.map fun dir => { dir with manifest := none }
  | .rmdir, _ => none

inductive FsOp where
  | tx (name : String) (op : TxOp)
  | store (path : RelPath) (content : Option Bytes)
  | appendLog (record : LogRecord)

def FsOp.apply : FsOp → Disk → Disk
  | .tx name op, d => { d with tx := d.tx.alter name op.apply }
  | .store path content, d => { d with files := Function.update d.files path content }
  | .appendLog record, d => { d with recoveryLog := d.recoveryLog ++ [record] }

/-- `_read_secure_bytes(path) if path.is_file() else None` -/
def readImage (d : Disk) (path : RelPath) : Except Exn (Option Bytes) :=
  match d.files path with
  | none => .ok none
  | some data =>
      if maxTaskStateBytes < data.length then
        .error (valueError "task state file is not a bounded regular file")
      else .ok (some data)

/-- The directory `name`, empty when it does not exist. -/
def Disk.txDir (d : Disk) (name : String) : TxDir := d.tx[name]?.getD .empty

/-- What `shutil.rmtree` removes from a transaction directory. -/
inductive DirEntry where
  | manifest
  | backup (label : String)
  deriving DecidableEq, Repr

def DirEntry.remove : DirEntry → TxOp
  | .manifest => .removeManifest
  | .backup label => .removeBackup label

def TxDir.entries (dir : TxDir) : List DirEntry :=
  (if dir.manifest.isSome then [.manifest] else []) ++ dir.backups.keys.map .backup

/-- What the file system decides: the order in which a directory is listed, and whether the
recovery log takes a record. -/
structure FsEnv where
  iterdir : List String → List String
  scandir : String → List DirEntry → List DirEntry
  logWritable : String → Bool
  iterdir_perm : ∀ names, (iterdir names).Perm names
  scandir_perm : ∀ name entries, (scandir name entries).Perm entries

/-- Listings in key order and a log that takes every record. -/
def FsEnv.ordered : FsEnv where
  iterdir := id
  scandir := fun _ => id
  logWritable := fun _ => true
  iterdir_perm := fun _ => .refl _
  scandir_perm := fun _ _ => .refl _

/-- `shutil.rmtree(tx_dir, ignore_errors=True)` on a directory holding `dir`. -/
def rmtreeOps (env : FsEnv) (name : String) (dir : TxDir) : List FsOp :=
  (env.scandir name dir.entries).map (fun entry => .tx name entry.remove) ++ [.tx name .rmdir]

@[simp] theorem apply_tx_files (name : String) (op : TxOp) (d : Disk) :
    (FsOp.apply (.tx name op) d).files = d.files := rfl

@[simp] theorem apply_store_tx (path : RelPath) (content : Option Bytes) (d : Disk) :
    (FsOp.apply (.store path content) d).tx = d.tx := rfl

@[simp] theorem apply_store_files (path : RelPath) (content : Option Bytes) (d : Disk) :
    (FsOp.apply (.store path content) d).files = Function.update d.files path content := rfl

@[simp] theorem apply_appendLog_files (record : LogRecord) (d : Disk) :
    (FsOp.apply (.appendLog record) d).files = d.files := rfl

@[simp] theorem apply_appendLog_tx (record : LogRecord) (d : Disk) :
    (FsOp.apply (.appendLog record) d).tx = d.tx := rfl

theorem getElem?_apply_tx (name : String) (op : TxOp) (d : Disk) (k : String) :
    (FsOp.apply (.tx name op) d).tx[k]? = if k = name then op.apply d.tx[name]? else d.tx[k]? := by
  change (d.tx.alter name op.apply)[k]? = _
  rw [Std.ExtTreeMap.getElem?_alter]
  by_cases hk : k = name
  · subst hk
    simp
  · rw [if_neg hk, if_neg]
    intro hcmp
    exact hk (Std.LawfulEqCmp.eq_of_compare hcmp).symm

@[simp] theorem getElem?_apply_tx_self (name : String) (op : TxOp) (d : Disk) :
    (FsOp.apply (.tx name op) d).tx[name]? = op.apply d.tx[name]? := by
  rw [getElem?_apply_tx, if_pos rfl]

theorem getElem?_apply_tx_of_ne {name k : String} (op : TxOp) (d : Disk) (h : k ≠ name) :
    (FsOp.apply (.tx name op) d).tx[k]? = d.tx[k]? := by
  rw [getElem?_apply_tx, if_neg h]

/-- A file that can be read back within the size bound. -/
def Bounded (image : Option Bytes) : Prop := ∀ data, image = some data → data.length ≤ maxTaskStateBytes

theorem readImage_ok {d : Disk} {path : RelPath} {image : Option Bytes} :
    readImage d path = .ok image ↔ image = d.files path ∧ Bounded (d.files path) := by
  unfold readImage
  cases d.files path with
  | none => simp [Bounded, eq_comm]
  | some data =>
      by_cases hsize : maxTaskStateBytes < data.length
      · simp [Bounded, hsize]
      · simp [Bounded, hsize, eq_comm, Nat.not_lt.mp hsize]

/-- The operation stays inside the directory `name` and the artifacts `paths`. -/
def FsOp.Within (name : String) (paths : List RelPath) : FsOp → Prop
  | .tx k _ => k = name
  | .store path _ => path ∈ paths
  | .appendLog _ => True

theorem FsOp.Within.files_eq {name : String} {paths : List RelPath} {op : FsOp}
    (h : op.Within name paths) {path : RelPath} (hpath : path ∉ paths) (d : Disk) :
    (op.apply d).files path = d.files path := by
  cases op with
  | tx k op => rfl
  | store p content =>
      have hne : path ≠ p := fun heq => hpath (heq ▸ h)
      simp [Function.update_of_ne hne]
  | appendLog record => rfl

theorem FsOp.Within.tx_eq {name : String} {paths : List RelPath} {op : FsOp}
    (h : op.Within name paths) {k : String} (hk : k ≠ name) (d : Disk) :
    (op.apply d).tx[k]? = d.tx[k]? := by
  cases op with
  | tx k' op' =>
      have hname : k' = name := h
      subst hname
      exact getElem?_apply_tx_of_ne op' d hk
  | store p content => rfl
  | appendLog record => rfl

/-- Frame: a run, complete or killed, leaves the rest of the disk as it was. -/
theorem killed_frame {name : String} {paths : List RelPath} {ops : List FsOp} {d u : Disk}
    (hops : ∀ op ∈ ops, op.Within name paths) (h : Killed FsOp.apply ops d u) :
    (∀ path, path ∉ paths → u.files path = d.files path) ∧
      ∀ k, k ≠ name → u.tx[k]? = d.tx[k]? := by
  refine Killed.invariant (I := fun u => (∀ path, path ∉ paths → u.files path = d.files path) ∧
    ∀ k, k ≠ name → u.tx[k]? = d.tx[k]?) ⟨fun _ _ => rfl, fun _ _ => rfl⟩ ?_ h
  rintro op hop s ⟨hfiles, htx⟩
  constructor
  · intro path hpath
    rw [(hops op hop).files_eq hpath, hfiles path hpath]
  · intro k hk
    rw [(hops op hop).tx_eq hk, htx k hk]

/-- What a removal that may have been interrupted leaves of `dir`: nothing, or a directory
whose manifest, if it still has one, and whose backups are old ones. -/
def Residue (dir : TxDir) (rest : Option TxDir) : Prop :=
  ∀ dir' : TxDir, rest = some dir' →
    (dir'.manifest = none ∨ dir'.manifest = dir.manifest) ∧
      ∀ (label : String) (data : Bytes), dir'.backups[label]? = some data → dir.backups[label]? = some data

theorem Residue.refl (dir : TxDir) : Residue dir (some dir) := by
  rintro dir' h
  cases h
  exact ⟨Or.inr rfl, fun _ _ hdata => hdata⟩

theorem Residue.remove {dir : TxDir} {rest : Option TxDir} (h : Residue dir rest)
    (entry : DirEntry) : Residue dir (entry.remove.apply rest) := by
  intro dir' heq
  cases rest with
  | none => cases entry <;> simp [DirEntry.remove, TxOp.apply] at heq
  | some old =>
      obtain ⟨hmanifest, hbackups⟩ := h old rfl
      cases entry with
      | manifest =>
          simp only [DirEntry.remove, TxOp.apply, Option.map_some, Option.some.injEq] at heq
          subst heq
          exact ⟨Or.inl rfl, hbackups⟩
      | backup label =>
          simp only [DirEntry.remove, TxOp.apply, Option.map_some, Option.some.injEq] at heq
          subst heq
          refine ⟨hmanifest, fun label' data hdata => hbackups label' data ?_⟩
          rw [Std.ExtTreeMap.getElem?_erase] at hdata
          split at hdata
          · cases hdata
          · exact hdata

/-- A removal touches no artifact and no other directory, and leaves a residue. -/
theorem killed_rmtree {env : FsEnv} {name : String} {dir : TxDir} {d u : Disk}
    (hdir : d.tx[name]? = some dir) (h : Killed FsOp.apply (rmtreeOps env name dir) d u) :
    u.files = d.files ∧ (∀ k, k ≠ name → u.tx[k]? = d.tx[k]?) ∧ Residue dir u.tx[name]? := by
  refine Killed.invariant (I := fun u => u.files = d.files ∧
    (∀ k, k ≠ name → u.tx[k]? = d.tx[k]?) ∧ Residue dir u.tx[name]?)
    ⟨rfl, fun _ _ => rfl, hdir ▸ Residue.refl dir⟩ ?_ h
  rintro op hop s ⟨hfiles, htx, hres⟩
  rw [rmtreeOps, List.mem_append] at hop
  rcases hop with hop | hop
  · obtain ⟨entry, -, rfl⟩ := List.mem_map.mp hop
    refine ⟨hfiles, fun k hk => ?_, ?_⟩
    · rw [getElem?_apply_tx_of_ne _ _ hk, htx k hk]
    · rw [getElem?_apply_tx_self]
      exact hres.remove entry
  · rw [List.mem_singleton] at hop
    subst hop
    refine ⟨hfiles, fun k hk => ?_, ?_⟩
    · rw [getElem?_apply_tx_of_ne _ _ hk, htx k hk]
    · rw [getElem?_apply_tx_self]
      intro dir' heq
      simp [TxOp.apply] at heq

@[simp] theorem rmtree_files (env : FsEnv) (name : String) (dir : TxDir) (d : Disk) :
    (runOps FsOp.apply (rmtreeOps env name dir) d).files = d.files := by
  refine runOps_invariant FsOp.apply (I := fun u => u.files = d.files) rfl ?_
  intro op hop s hs
  rw [rmtreeOps, List.mem_append, List.mem_map, List.mem_singleton] at hop
  rcases hop with ⟨entry, -, rfl⟩ | rfl
  · rw [apply_tx_files, hs]
  · rw [apply_tx_files, hs]

/-- A removal that completes leaves no directory. -/
theorem rmtree_removes (env : FsEnv) (name : String) (dir : TxDir) (d : Disk) :
    (runOps FsOp.apply (rmtreeOps env name dir) d).tx[name]? = none := by
  rw [rmtreeOps, runOps_append, runOps_cons, runOps_nil, getElem?_apply_tx_self]
  rfl

end PowerFramework.TaskStore
