import Mathlib.Data.Set.Function
import PowerFramework.TaskStore.Recovery
/-!
# What recovering one leftover does

A prepared leftover whose preimages are the contents `latest` writes nothing but those, at
the artifacts it names, and before its directory goes away every one of them is back.  This
is the step behind the results on crash atomicity and on durability.
-/

namespace PowerFramework.TaskStore

open Lib.Crash Lib.Failure Lib.Sha256

/-- SHA-256 tells the contents `S` apart. -/
def CollisionFree (S : Set Bytes) : Prop := Set.InjOn hexdigest S

def ImageIn (S : Set Bytes) (image : Option Bytes) : Prop := ∀ data, image = some data → data ∈ S

theorem imageDigest_inj {S : Set Bytes} (hS : CollisionFree S) {a b : Option Bytes}
    (ha : ImageIn S a) (hb : ImageIn S b) (h : imageDigest a = imageDigest b) : a = b := by
  cases a with
  | none => cases b with
    | none => rfl
    | some y => simp [imageDigest] at h
  | some x => cases b with
    | none => simp [imageDigest] at h
    | some y =>
        have hxy : hexdigest x = hexdigest y := by simpa [imageDigest] using h
        rw [hS (ha x rfl) (hb y rfl) hxy]

theorem imageDigest_eq_none {image : Option Bytes} : imageDigest image = none ↔ image = none := by
  simp [imageDigest]

/-- `_rollback_tx` restores from the backup whose digest the entry records. -/
theorem rollbackEntry_ok {dir : TxDir} {op : String} {t : Touched} {write : FsOp}
    (h : rollbackEntry dir op t = .ok write) :
    ∃ content, write = .store t.rel content ∧ imageDigest content = t.preimageDigest ∧
      ∀ data, content = some data → dir.backups[t.label]? = some data := by
  obtain ⟨path, hpath, h⟩ := bind_eq_ok.mp h
  obtain ⟨rfl, -, -⟩ := allowedRecoveryPath_ok hpath
  cases hpre : t.preimageDigest with
  | none =>
      simp only [hpre, pure, Except.pure, Except.ok.injEq] at h
      exact ⟨none, h.symm, rfl, by simp⟩
  | some pre =>
      simp only [hpre] at h
      obtain ⟨label, hlabel, h⟩ := bind_eq_ok.mp h
      obtain ⟨rfl, -⟩ := recoveryLabel_ok.mp hlabel
      cases hbak : dir.backups[t.label]? with
      | none => simp [hbak, throw, throwThe, MonadExceptOf.throw] at h
      | some data =>
          simp only [hbak, bind_eq_ok, raiseIf_eq_ok, pure, Except.pure, Except.ok.injEq,
            not_not] at h
          obtain ⟨-, -, -, hdigest, rfl⟩ := h
          refine ⟨some data, rfl, by simp [imageDigest, hdigest], ?_⟩
          exact fun x hx => hx

theorem rollbackTx_mem {dir : TxDir} {op : String} {ts : List Touched} {write : FsOp}
    (h : write ∈ (rollbackTx dir op ts).1) :
    ∃ t ∈ ts, rollbackEntry dir op t = .ok write := by
  induction ts with
  | nil => simp [rollbackTx] at h
  | cons t ts ih =>
      cases hentry : rollbackEntry dir op t with
      | error e => simp [rollbackTx, hentry] at h
      | ok w =>
          simp only [rollbackTx, hentry, List.mem_cons] at h
          rcases h with rfl | h
          · exact ⟨t, by simp, hentry⟩
          · obtain ⟨t', hmem, ht'⟩ := ih h
            exact ⟨t', List.mem_cons_of_mem _ hmem, ht'⟩

/-- A rollback that completes has restored every artifact. -/
theorem rollbackTx_complete {dir : TxDir} {op : String} {ts : List Touched}
    (h : (rollbackTx dir op ts).2 = none) {t : Touched} (ht : t ∈ ts) :
    ∃ write ∈ (rollbackTx dir op ts).1, rollbackEntry dir op t = .ok write := by
  induction ts with
  | nil => simp at ht
  | cons t' ts ih =>
      cases hentry : rollbackEntry dir op t' with
      | error e => simp [rollbackTx, hentry] at h
      | ok w =>
          simp only [rollbackTx, hentry] at h ⊢
          rcases List.mem_cons.mp ht with rfl | ht
          · exact ⟨w, by simp, hentry⟩
          · obtain ⟨write, hmem, hw⟩ := ih h ht
            exact ⟨write, List.mem_cons_of_mem _ hmem, hw⟩

/-- A rollback in which every artifact can be restored completes. -/
theorem rollbackTx_total {dir : TxDir} {op : String} {ts : List Touched}
    (h : ∀ t ∈ ts, ∃ write, rollbackEntry dir op t = .ok write) :
    (rollbackTx dir op ts).2 = none := by
  induction ts with
  | nil => rfl
  | cons t ts ih =>
      obtain ⟨write, hwrite⟩ := h t (by simp)
      simp only [rollbackTx, hwrite]
      exact ih fun t' ht' => h t' (List.mem_cons_of_mem _ ht')

theorem classify_eq_post {t : Touched} {cur : Option Bytes} :
    classify t cur = .post ↔
      t.postimageDigest.getD none ≠ none ∧ imageDigest cur = t.postimageDigest.getD none := by
  unfold classify
  by_cases hpost : t.postimageDigest.getD none ≠ none ∧
      imageDigest cur = t.postimageDigest.getD none
  · simp [hpost]
  · simp only [if_neg hpost, iff_false_right hpost]
    split <;> simp

theorem classify_eq_pre {t : Touched} {cur : Option Bytes} :
    classify t cur = .pre ↔ classify t cur ≠ .post ∧ imageDigest cur = t.preimageDigest := by
  rw [Ne, classify_eq_post]
  unfold classify
  by_cases hpost : t.postimageDigest.getD none ≠ none ∧
      imageDigest cur = t.postimageDigest.getD none
  · simp [hpost]
  · rw [if_neg hpost, and_iff_right hpost]
    cases cur with
    | none => cases t.preimageDigest <;> simp [imageDigest]
    | some data => cases t.preimageDigest <;> simp [imageDigest]

theorem imageState_ok {d : Disk} {op : String} {t : Touched} {s : ImageState} :
    imageState d op t = .ok s ↔
      allowedRecoveryPath t.label t.rel op = .ok t.rel ∧ Bounded (d.files t.rel) ∧
        s = classify t (d.files t.rel) := by
  simp only [imageState, bind_eq_ok, readImage_ok, pure, Except.pure, Except.ok.injEq]
  constructor
  · rintro ⟨path, hpath, cur, ⟨rfl, hbound⟩, rfl⟩
    obtain ⟨rfl, -, -⟩ := allowedRecoveryPath_ok hpath
    exact ⟨hpath, hbound, rfl⟩
  · rintro ⟨hpath, hbound, rfl⟩
    exact ⟨t.rel, hpath, d.files t.rel, ⟨rfl, hbound⟩, rfl⟩

/-- The classification of a whole manifest. -/
theorem imageStates_ok {d : Disk} {op : String} {ts : List Touched} {states : List ImageState} :
    ts.mapM (imageState d op) = .ok states ↔
      (∀ t ∈ ts, allowedRecoveryPath t.label t.rel op = .ok t.rel ∧ Bounded (d.files t.rel)) ∧
        states = ts.map fun t => classify t (d.files t.rel) := by
  refine mapM_eq_ok fun t s => ?_
  rw [imageState_ok, and_assoc]

theorem readManifest_ok {vault name : String} {stored m : Manifest} :
    readManifest vault stored name = .ok m ↔
      m = stored ∧ stored.readable = true ∧ stored.Valid vault name := by
  unfold readManifest
  by_cases hread : stored.readable = true
  · rw [if_pos hread, validateRecoveryManifest_ok]
    simp [hread]
  · simp [hread]

/-- The ways one directory can come out of `recover`. -/
inductive EntryCase (env : FsEnv) (vault : String) (d : Disk) (name : String) :
    EntryRun → Prop where
  | noManifest : (d.txDir name).manifest = none → EntryCase env vault d name ⟨[], true, none⟩
  | corrupt {m : Manifest} {record : LogRecord} :
      (d.txDir name).manifest = some m → ¬ (m.readable = true ∧ m.Valid vault name) →
      EntryCase env vault d name ⟨logRecoveryRecord env record, true, none⟩
  | failed {m : Manifest} {writes : List FsOp} {e : Exn} {record : LogRecord} :
      (d.txDir name).manifest = some m → m.readable = true → m.Valid vault name →
      reconcileTx d (d.txDir name) m = (writes, .error e) →
      EntryCase env vault d name ⟨writes ++ logRecoveryRecord env record, true, none⟩
  | unlogged {m : Manifest} {writes : List FsOp} {status : Status} :
      (d.txDir name).manifest = some m → m.readable = true → m.Valid vault name →
      reconcileTx d (d.txDir name) m = (writes, .ok status) → env.logWritable name = false →
      EntryCase env vault d name ⟨writes, true, none⟩
  | settled {m : Manifest} {writes : List FsOp} {status : Status} {record : LogRecord} :
      (d.txDir name).manifest = some m → m.readable = true → m.Valid vault name →
      reconcileTx d (d.txDir name) m = (writes, .ok status) → env.logWritable name = true →
      EntryCase env vault d name
        ⟨writes ++ [.appendLog record] ++ rmtreeOps env name (d.txDir name), false,
          some (name, status)⟩

theorem recoverEntry_case (env : FsEnv) (vault : String) (d : Disk) (name : String) :
    EntryCase env vault d name (recoverEntry env vault d name) := by
  unfold recoverEntry
  simp only
  split
  · rename_i hnone
    exact .noManifest hnone
  · rename_i stored hstored
    split
    · rename_i e hread
      refine .corrupt hstored ?_
      intro hvalid
      rw [readManifest_ok.mpr ⟨rfl, hvalid⟩] at hread
      cases hread
    · rename_i m hread
      obtain ⟨rfl, hreadable, hvalid⟩ := readManifest_ok.mp hread
      split
      · rename_i writes e hrec
        exact .failed hstored hreadable hvalid hrec
      · rename_i writes status hrec
        rw [hvalid.bound]
        split
        · rename_i hlog
          exact .settled hstored hreadable hvalid hrec hlog
        · rename_i hlog
          exact .unlogged hstored hreadable hvalid hrec (by simpa using hlog)

end PowerFramework.TaskStore
