import PowerFramework.TaskStore.Restore
/-!
# Pending transactions

A prepared transaction stays `Pending` for the contents `latest` from the moment its
manifest is durable until every artifact it names holds `latest` again, through any
recovery of its own directory, complete or killed.
-/

namespace PowerFramework.TaskStore

open Lib.Crash Lib.Failure Lib.Sha256

variable {S : Set Bytes} {latest : RelPath → Option Bytes} {m : Manifest} {name : String}

def Manifest.paths (m : Manifest) : List RelPath := m.touched.map (·.rel)

theorem Manifest.mem_paths {m : Manifest} {path : RelPath} :
    path ∈ m.paths ↔ ∃ t ∈ m.touched, t.rel = path := by
  simp [Manifest.paths]

/-- The manifest records the digests of `latest`, the backups hold nothing else, and either
the backups are all there or the artifacts are. -/
structure Restorable (latest : RelPath → Option Bytes) (d : Disk) (dir : TxDir)
    (m : Manifest) : Prop where
  digest : ∀ t ∈ m.touched, t.preimageDigest = imageDigest (latest t.rel)
  unposted : ∀ t ∈ m.touched, t.postimageDigest = none
  bounded : ∀ t ∈ m.touched, Bounded (latest t.rel)
  sound : ∀ t ∈ m.touched, ∀ data, dir.backups[t.label]? = some data → latest t.rel = some data
  covered : (∀ t ∈ m.touched, ∀ data, latest t.rel = some data →
      dir.backups[t.label]? = some data) ∨ ∀ t ∈ m.touched, d.files t.rel = latest t.rel

/-- The directory `name` is that of the prepared transaction `m`, or what is left of it once
the artifacts are back at `latest`. -/
structure Pending (latest : RelPath → Option Bytes) (m : Manifest) (name : String)
    (d : Disk) : Prop where
  manifest : ∀ dir, d.tx[name]? = some dir → dir.manifest = none ∨ dir.manifest = some m
  restorable : ∀ dir, d.tx[name]? = some dir → dir.manifest = some m →
    Restorable latest d dir m
  restored : (∀ dir, d.tx[name]? = some dir → dir.manifest ≠ some m) →
    ∀ t ∈ m.touched, d.files t.rel = latest t.rel

/-- A write of `latest` at one of `paths`. -/
def RestoreWrite (latest : RelPath → Option Bytes) (paths : List RelPath) (op : FsOp) : Prop :=
  ∃ path ∈ paths, op = .store path (latest path)

/-- Every artifact is as it was, or at `latest`. -/
def Toward (latest : RelPath → Option Bytes) (paths : List RelPath) (d u : Disk) : Prop :=
  ∀ path, u.files path = d.files path ∨ path ∈ paths ∧ u.files path = latest path

theorem Toward.trans {paths : List RelPath} {d u v : Disk} (h : Toward latest paths d u)
    (h' : Toward latest paths u v) : Toward latest paths d v := by
  intro path
  rcases h' path with heq | hlatest
  · rw [heq]
    exact h path
  · exact Or.inr hlatest

theorem Toward.files_eq {paths : List RelPath} {d u : Disk} (h : Toward latest paths d u)
    {path : RelPath} (hpath : path ∉ paths) : u.files path = d.files path := by
  rcases h path with heq | ⟨hmem, -⟩
  · exact heq
  · exact absurd hmem hpath

/-- An artifact that is at `latest` stays there. -/
theorem Toward.latest_eq {paths : List RelPath} {d u : Disk} (h : Toward latest paths d u)
    {path : RelPath} (hpath : d.files path = latest path) : u.files path = latest path := by
  rcases h path with heq | ⟨-, hlatest⟩
  · rw [heq, hpath]
  · exact hlatest

theorem killed_restore {paths : List RelPath} {ops : List FsOp} {d u : Disk}
    (hops : ∀ op ∈ ops, RestoreWrite latest paths op) (h : Killed FsOp.apply ops d u) :
    u.tx = d.tx ∧ Toward latest paths d u := by
  refine Killed.invariant (I := fun u => u.tx = d.tx ∧ Toward latest paths d u)
    ⟨rfl, fun _ => Or.inl rfl⟩ ?_ h
  rintro op hop s ⟨htx, htoward⟩
  obtain ⟨path, hpath, rfl⟩ := hops op hop
  refine ⟨by rw [apply_store_tx, htx], htoward.trans fun q => ?_⟩
  by_cases hq : q = path
  · subst hq
    exact Or.inr ⟨hpath, by simp⟩
  · exact Or.inl (by simp [Function.update_of_ne hq])

/-- Restoring writes leave `latest` wherever one of them writes. -/
theorem runOps_restore {paths : List RelPath} {ops : List FsOp} {d : Disk}
    (hops : ∀ op ∈ ops, RestoreWrite latest paths op) {path : RelPath}
    (hpath : FsOp.store path (latest path) ∈ ops) :
    (runOps FsOp.apply ops d).files path = latest path := by
  obtain ⟨before, after, rfl⟩ := List.append_of_mem hpath
  rw [runOps_append, runOps_cons]
  have hafter : ∀ op ∈ after, RestoreWrite latest paths op := fun op hop =>
    hops op (List.mem_append_right _ (List.mem_cons_of_mem _ hop))
  exact (killed_restore hafter (Killed.full FsOp.apply after _)).2.latest_eq (by simp)

/-- Only what is at `latest` matters, and it has to stay there. -/
theorem Restorable.keep {d u : Disk} {dir : TxDir} (hr : Restorable latest d dir m)
    (h : ∀ t ∈ m.touched, d.files t.rel = latest t.rel → u.files t.rel = latest t.rel) :
    Restorable latest u dir m := by
  refine ⟨hr.digest, hr.unposted, hr.bounded, hr.sound, hr.covered.imp id fun hfiles t ht => ?_⟩
  exact h t ht (hfiles t ht)

theorem Pending.keep {d u : Disk} (hp : Pending latest m name d)
    (htx : u.tx[name]? = d.tx[name]?)
    (h : ∀ t ∈ m.touched, d.files t.rel = latest t.rel → u.files t.rel = latest t.rel) :
    Pending latest m name u := by
  refine ⟨fun dir hdir => hp.manifest dir (htx ▸ hdir), fun dir hdir hm => ?_, fun hnone t ht => ?_⟩
  · exact (hp.restorable dir (htx ▸ hdir) hm).keep h
  · exact h t ht (hp.restored (fun dir hdir => hnone dir (htx.trans hdir)) t ht)

theorem Pending.toward {d u : Disk} {paths : List RelPath} (hp : Pending latest m name d)
    (htx : u.tx[name]? = d.tx[name]?) (h : Toward latest paths d u) : Pending latest m name u :=
  hp.keep htx fun _ _ hfile => h.latest_eq hfile

/-- Once the artifacts are back, any part of the directory may be gone. -/
theorem Restorable.pending_of_residue {d u : Disk} {dir : TxDir} (hr : Restorable latest d dir m)
    (hm : dir.manifest = some m) (hback : ∀ t ∈ m.touched, u.files t.rel = latest t.rel)
    (hres : Residue dir u.tx[name]?) : Pending latest m name u := by
  refine ⟨fun dir' hdir' => ?_, fun dir' hdir' _ => ?_, fun _ => hback⟩
  · rw [← hm]
    exact (hres dir' hdir').1
  · refine ⟨hr.digest, hr.unposted, hr.bounded, fun t ht data hdata => ?_, Or.inr hback⟩
    exact hr.sound t ht data ((hres dir' hdir').2 t.label data hdata)

/-- The writes of a rollback are writes of `latest`. -/
theorem Restorable.rollback {d : Disk} {dir : TxDir} (hr : Restorable latest d dir m)
    {write : FsOp} (h : write ∈ (rollbackTx dir m.op m.touched).1) :
    RestoreWrite latest m.paths write := by
  obtain ⟨t, ht, hentry⟩ := rollbackTx_mem h
  obtain ⟨content, rfl, hdigest, hbackup⟩ := rollbackEntry_ok hentry
  refine ⟨t.rel, Manifest.mem_paths.mpr ⟨t, ht, rfl⟩, ?_⟩
  cases content with
  | none =>
      have hnone : imageDigest (latest t.rel) = none := by
        rw [← hr.digest t ht, ← hdigest]
        rfl
      rw [imageDigest_eq_none.mp hnone]
  | some data => rw [hr.sound t ht data (hbackup data rfl)]

/-- A rollback that completes has every artifact back. -/
theorem Restorable.runOps_rollback {d s : Disk} {dir : TxDir} (hr : Restorable latest d dir m)
    (h : (rollbackTx dir m.op m.touched).2 = none) {t : Touched} (ht : t ∈ m.touched) :
    (runOps FsOp.apply (rollbackTx dir m.op m.touched).1 s).files t.rel = latest t.rel := by
  obtain ⟨write, hmem, hentry⟩ := rollbackTx_complete h ht
  obtain ⟨content, rfl, -⟩ := rollbackEntry_ok hentry
  obtain ⟨path, -, heq⟩ := hr.rollback hmem
  cases heq
  exact runOps_restore (fun write => hr.rollback) hmem

/-- What `_reconcile_tx` does to a prepared transaction. -/
theorem Restorable.reconcile (hS : CollisionFree S) {d : Disk} {dir : TxDir}
    (hr : Restorable latest d dir m) (hprep : m.stage = .prepared)
    (hfiles : ∀ t ∈ m.touched, ImageIn S (d.files t.rel))
    (hlatest : ∀ t ∈ m.touched, ImageIn S (latest t.rel)) :
    (∀ write ∈ (reconcileTx d dir m).1, RestoreWrite latest m.paths write) ∧
      ∀ status, (reconcileTx d dir m).2 = .ok status → ∀ t ∈ m.touched,
        (runOps FsOp.apply (reconcileTx d dir m).1 d).files t.rel = latest t.rel := by
  unfold reconcileTx
  split
  · simp
  · rename_i states hstates
    obtain ⟨-, rfl⟩ := imageStates_ok.mp hstates
    have hunposted : ∀ t ∈ m.touched, classify t (d.files t.rel) ≠ .post := by
      intro t ht hpost
      exact (classify_eq_post.mp hpost).1 (by rw [hr.unposted t ht]; rfl)
    split
    · rename_i hpost
      obtain ⟨t, ht⟩ := List.exists_mem_of_ne_nil m.touched (by simpa using hpost.1)
      exact absurd (hpost.2 _ (List.mem_map_of_mem ht)) (hunposted t ht)
    · split
      · rename_i hpre
        refine ⟨by simp, fun status _ t ht => ?_⟩
        have hdigest := (classify_eq_pre.mp (hpre.2 _ (List.mem_map_of_mem ht))).2
        rw [hr.digest t ht] at hdigest
        exact imageDigest_inj hS (hfiles t ht) (hlatest t ht) hdigest
      · split
        · rename_i writes hrollback
          have hfst : writes = (rollbackTx dir m.op m.touched).1 := by rw [hrollback]
          subst hfst
          exact ⟨fun write => hr.rollback, fun status _ t ht =>
            hr.runOps_rollback (by rw [hrollback]) ht⟩
        · rename_i writes e hrollback
          have hfst : writes = (rollbackTx dir m.op m.touched).1 := by rw [hrollback]
          subst hfst
          exact ⟨fun write => hr.rollback, by simp⟩

/-- One artifact can be restored when the allow-list takes it and its backup is intact. -/
theorem rollbackEntry_total {dir : TxDir} {op : String} {t : Touched} {image : Option Bytes}
    (hpath : allowedRecoveryPath t.label t.rel op = .ok t.rel)
    (hdigest : t.preimageDigest = imageDigest image) (hbound : Bounded image)
    (hbackup : ∀ data, image = some data → dir.backups[t.label]? = some data) :
    rollbackEntry dir op t = .ok (.store t.rel image) := by
  refine bind_eq_ok.mpr ⟨t.rel, hpath, ?_⟩
  cases image with
  | none =>
      rw [hdigest]
      rfl
  | some data =>
      have hpre : t.preimageDigest = some (hexdigest data) := hdigest
      simp only [hpre]
      refine bind_eq_ok.mpr ⟨t.label, (allowedRecoveryPath_ok hpath).2.1, ?_⟩
      simp only [hbackup data rfl, bind_eq_ok, raiseIf_eq_ok, pure, Except.pure]
      exact ⟨⟨⟩, Nat.not_lt.mpr (hbound data rfl), ⟨⟩, by simp, trivial⟩

/-- A prepared transaction whose artifacts can be read back is settled. -/
theorem Restorable.reconcile_ok {d : Disk} {dir : TxDir} (hr : Restorable latest d dir m)
    (hprep : m.stage = .prepared)
    (hread : ∀ t ∈ m.touched,
      allowedRecoveryPath t.label t.rel m.op = .ok t.rel ∧ Bounded (d.files t.rel)) :
    ∃ status, (reconcileTx d dir m).2 = .ok status := by
  have hstates := imageStates_ok.mpr ⟨hread, rfl⟩
  unfold reconcileTx
  rw [hstates]
  by_cases hpost : (m.touched.map fun t => classify t (d.files t.rel)) ≠ [] ∧
      ∀ s ∈ m.touched.map fun t => classify t (d.files t.rel), s = .post
  · exact ⟨.committed, by simp only [if_pos hpost]⟩
  · by_cases hpre : (m.touched.map fun t => classify t (d.files t.rel)) ≠ [] ∧
        ∀ s ∈ m.touched.map fun t => classify t (d.files t.rel), s = .pre
    · exact ⟨.rolledBack, by simp only [if_neg hpost, if_pos hpre]⟩
    · have htotal : (rollbackTx dir m.op m.touched).2 = none := by
        apply rollbackTx_total
        intro t ht
        refine ⟨_, rollbackEntry_total (hread t ht).1 (hr.digest t ht) (hr.bounded t ht) ?_⟩
        rcases hr.covered with hbackups | hback
        · exact hbackups t ht
        · -- every artifact is back, so the classification was not mixed
          refine absurd ⟨?_, ?_⟩ hpre
          · exact List.ne_nil_of_mem (List.mem_map_of_mem ht)
          · intro s hs
            obtain ⟨t', ht', rfl⟩ := List.mem_map.mp hs
            refine classify_eq_pre.mpr ⟨fun h => ?_, by rw [hback t' ht', hr.digest t' ht']⟩
            exact (classify_eq_post.mp h).1 (by rw [hr.unposted t' ht']; rfl)
      refine ⟨.reconciledRollback, ?_⟩
      simp only [if_neg hpost, if_neg hpre, if_pos hprep]
      split
      · rfl
      · rename_i heq
        rw [heq] at htotal
        cases htotal

/-- A committed transaction is never rolled back. -/
theorem reconcileTx_committed {d : Disk} {dir : TxDir} (hstage : m.stage = .committed) :
    (reconcileTx d dir m).1 = [] := by
  unfold reconcileTx
  split
  · rfl
  · split
    · rfl
    · split
      · rfl
      · rw [if_neg (by simp [hstage])]

theorem killed_logs {ops : List FsOp} (hops : ∀ op ∈ ops, ∃ record, op = .appendLog record)
    {d u : Disk} (h : Killed FsOp.apply ops d u) : u.files = d.files ∧ u.tx = d.tx := by
  refine Killed.invariant (I := fun u => u.files = d.files ∧ u.tx = d.tx) ⟨rfl, rfl⟩ ?_ h
  rintro op hop s ⟨hfiles, htx⟩
  obtain ⟨record, rfl⟩ := hops op hop
  exact ⟨by rw [apply_appendLog_files, hfiles], by rw [apply_appendLog_tx, htx]⟩

theorem logRecoveryRecord_logs (env : FsEnv) (record : LogRecord) :
    ∀ op ∈ logRecoveryRecord env record, ∃ record, op = .appendLog record := by
  intro op hop
  unfold logRecoveryRecord at hop
  split at hop
  · exact ⟨record, List.mem_singleton.mp hop⟩
  · simp at hop

theorem txDir_eq {d : Disk} {dir : TxDir} (h : d.tx[name]? = some dir) : d.txDir name = dir := by
  rw [Disk.txDir, h]
  rfl

theorem exists_of_txDir_manifest {d : Disk} (h : (d.txDir name).manifest = some m) :
    d.tx[name]? = some (d.txDir name) := by
  unfold Disk.txDir at h ⊢
  cases hdir : d.tx[name]? with
  | none => simp [hdir, TxDir.empty] at h
  | some dir => rfl

/-- Reconciliation writes only artifacts that the manifest names. -/
theorem reconcileTx_stores {d : Disk} {dir : TxDir} {write : FsOp}
    (h : write ∈ (reconcileTx d dir m).1) : ∃ path ∈ m.paths, ∃ content, write = .store path content := by
  have hwrite : write ∈ (rollbackTx dir m.op m.touched).1 := by
    unfold reconcileTx at h
    split at h
    · simp at h
    · split at h
      · simp at h
      · split at h
        · simp at h
        · split at h
          · split at h <;> simp_all
          · simp at h
  obtain ⟨t, ht, hentry⟩ := rollbackTx_mem hwrite
  obtain ⟨content, rfl, -⟩ := rollbackEntry_ok hentry
  exact ⟨t.rel, Manifest.mem_paths.mpr ⟨t, ht, rfl⟩, content, rfl⟩

theorem killed_reconcile {d v : Disk} {dir : TxDir}
    (h : Killed FsOp.apply (reconcileTx d dir m).1 d v) :
    v.tx = d.tx ∧ ∀ path, path ∉ m.paths → v.files path = d.files path := by
  refine Killed.invariant (I := fun v => v.tx = d.tx ∧
    ∀ path, path ∉ m.paths → v.files path = d.files path) ⟨rfl, fun _ _ => rfl⟩ ?_ h
  rintro op hop s ⟨htx, hfiles⟩
  obtain ⟨path, hpath, content, rfl⟩ := reconcileTx_stores hop
  refine ⟨by rw [apply_store_tx, htx], fun q hq => ?_⟩
  have hne : q ≠ path := fun heq => hq (heq ▸ hpath)
  rw [apply_store_files, Function.update_of_ne hne, hfiles q hq]

/-- What holds of any disk that recovering one directory can leave, complete or killed: it
is the old one, or one inside the writes of the reconciliation, or, once these are done and
gave a status, one from which the directory is being removed. -/
theorem recoverEntry_rule {env : FsEnv} {vault : String} {d u : Disk} {I : Disk → Prop}
    (hsame : ∀ u : Disk, u.files = d.files → u.tx = d.tx → I u)
    (hwrite : ∀ dir m, d.tx[name]? = some dir → dir.manifest = some m → ∀ u v : Disk,
      Killed FsOp.apply (reconcileTx d dir m).1 d v → u.files = v.files → u.tx = d.tx → I u)
    (hremove : ∀ dir m status, d.tx[name]? = some dir → dir.manifest = some m →
      (reconcileTx d dir m).2 = .ok status → ∀ u : Disk,
      u.files = (runOps FsOp.apply (reconcileTx d dir m).1 d).files →
      (∀ k, k ≠ name → u.tx[k]? = d.tx[k]?) → Residue dir u.tx[name]? → I u)
    (h : Killed FsOp.apply (recoverEntry env vault d name).ops d u) : I u := by
  have hcase := recoverEntry_case env vault d name
  generalize recoverEntry env vault d name = run at h hcase
  cases hcase with
  | noManifest =>
      rw [Killed.nil_iff.mp h]
      exact hsame d rfl rfl
  | corrupt =>
      obtain ⟨hfiles, htx⟩ := killed_logs (logRecoveryRecord_logs env _) h
      exact hsame u hfiles htx
  | @failed m writes e record hm _ _ hrec =>
      have hfst : writes = (reconcileTx d (d.txDir name) m).1 := by rw [hrec]
      subst hfst
      have hdir := exists_of_txDir_manifest hm
      rcases h.append with h | h
      · exact hwrite _ m hdir hm u u h rfl (killed_reconcile h).1
      · obtain ⟨hfiles, htx⟩ := killed_logs (logRecoveryRecord_logs env _) h
        have hfull := Killed.full FsOp.apply (reconcileTx d (d.txDir name) m).1 d
        exact hwrite _ m hdir hm u _ hfull hfiles (htx.trans (killed_reconcile hfull).1)
  | @unlogged m writes status hm _ _ hrec _ =>
      have hfst : writes = (reconcileTx d (d.txDir name) m).1 := by rw [hrec]
      subst hfst
      exact hwrite _ m (exists_of_txDir_manifest hm) hm u u h rfl (killed_reconcile h).1
  | @settled m writes status record hm _ _ hrec _ =>
      have hfst : writes = (reconcileTx d (d.txDir name) m).1 := by rw [hrec]
      subst hfst
      have hdir := exists_of_txDir_manifest hm
      have hfull := Killed.full FsOp.apply (reconcileTx d (d.txDir name) m).1 d
      rw [List.append_assoc] at h
      rcases h.append with h | h
      · exact hwrite _ m hdir hm u u h rfl (killed_reconcile h).1
      · rw [List.singleton_append, Killed.cons_iff] at h
        rcases h with rfl | h
        · exact hwrite _ m hdir hm _ _ hfull rfl (killed_reconcile hfull).1
        · have hlogged : (FsOp.apply (.appendLog record) (runOps FsOp.apply
              (reconcileTx d (d.txDir name) m).1 d)).tx = d.tx := by
            rw [apply_appendLog_tx, (killed_reconcile hfull).1]
          obtain ⟨hfiles, htx, hres⟩ := killed_rmtree (by rw [hlogged]; exact hdir) h
          refine hremove _ m status hdir hm (by rw [hrec]) u hfiles (fun k hk => ?_) hres
          rw [htx k hk, hlogged]

/-- Recovering the directory of a prepared transaction keeps it pending, and every artifact
it changes goes back to `latest`. -/
theorem Pending.step (hS : CollisionFree S) {env : FsEnv} {vault : String} {d u : Disk}
    (hp : Pending latest m name d) (hprep : m.stage = .prepared)
    (hfiles : ∀ t ∈ m.touched, ImageIn S (d.files t.rel))
    (hlatest : ∀ t ∈ m.touched, ImageIn S (latest t.rel))
    (h : Killed FsOp.apply (recoverEntry env vault d name).ops d u) :
    Pending latest m name u ∧ Toward latest m.paths d u ∧
      ∀ k, k ≠ name → u.tx[k]? = d.tx[k]? := by
  refine recoverEntry_rule (I := fun u => Pending latest m name u ∧ Toward latest m.paths d u ∧
    ∀ k, k ≠ name → u.tx[k]? = d.tx[k]?) ?_ ?_ ?_ h
  · intro u hu htx
    have htoward : Toward latest m.paths d u := fun path => Or.inl (by rw [hu])
    exact ⟨hp.toward (by rw [htx]) htoward, htoward, fun k _ => by rw [htx]⟩
  · intro dir m' hdir hm' u v hv hu htx
    rcases hp.manifest dir hdir with hnone | hm
    · rw [hm'] at hnone
      cases hnone
    · rw [hm'] at hm
      cases hm
      have hwrites := ((hp.restorable dir hdir hm').reconcile hS hprep hfiles hlatest).1
      have htoward : Toward latest m.paths d u := by
        intro path
        rw [hu]
        exact (killed_restore hwrites hv).2 path
      exact ⟨hp.toward (by rw [htx]) htoward, htoward, fun k _ => by rw [htx]⟩
  · intro dir m' status hdir hm' hstatus u hu htx hres
    rcases hp.manifest dir hdir with hnone | hm
    · rw [hm'] at hnone
      cases hnone
    · rw [hm'] at hm
      cases hm
      have hr := hp.restorable dir hdir hm'
      obtain ⟨hwrites, hdone⟩ := hr.reconcile hS hprep hfiles hlatest
      have hback : ∀ t ∈ m.touched, u.files t.rel = latest t.rel := by
        intro t ht
        rw [hu]
        exact hdone status hstatus t ht
      have htoward : Toward latest m.paths d u := by
        intro path
        rw [hu]
        exact (killed_restore hwrites (Killed.full FsOp.apply _ d)).2 path
      exact ⟨hr.pending_of_residue hm' hback hres, htoward, htx⟩

/-- Recovering a directory that holds no prepared manifest changes no artifact. -/
theorem recoverEntry_idle {env : FsEnv} {vault : String} {d u : Disk}
    (hidle : ∀ dir m, d.tx[name]? = some dir → dir.manifest = some m → m.stage = .committed)
    (h : Killed FsOp.apply (recoverEntry env vault d name).ops d u) :
    u.files = d.files ∧ (∀ k, k ≠ name → u.tx[k]? = d.tx[k]?) ∧
      ∀ dir m, u.tx[name]? = some dir → dir.manifest = some m → m.stage = .committed := by
  refine recoverEntry_rule (I := fun u => u.files = d.files ∧
    (∀ k, k ≠ name → u.tx[k]? = d.tx[k]?) ∧
      ∀ dir m, u.tx[name]? = some dir → dir.manifest = some m → m.stage = .committed) ?_ ?_ ?_ h
  · intro u hu htx
    rw [htx]
    exact ⟨hu, fun _ _ => rfl, hidle⟩
  · intro dir m hdir hm u v hv hu htx
    rw [reconcileTx_committed (hidle dir m hdir hm), Killed.nil_iff] at hv
    rw [htx, hu, hv]
    exact ⟨rfl, fun _ _ => rfl, hidle⟩
  · intro dir m status hdir hm _ u hu htx hres
    rw [reconcileTx_committed (hidle dir m hdir hm)] at hu
    refine ⟨hu, htx, fun dir' m' hdir' hm' => hidle dir m' hdir ?_⟩
    rcases (hres dir' hdir').1 with hnone | hsame
    · rw [hm'] at hnone
      cases hnone
    · rw [← hsame, hm']

/-- The artifacts that the manifest in the directory `name` names. -/
def Disk.named (d : Disk) (name : String) : List RelPath :=
  ((d.txDir name).manifest.map Manifest.paths).getD []

/-- Recovering any directory changes only the artifacts its manifest names, and touches no
other directory. -/
theorem recoverEntry_frame {env : FsEnv} {vault : String} {d u : Disk}
    (h : Killed FsOp.apply (recoverEntry env vault d name).ops d u) :
    (∀ path, path ∉ d.named name → u.files path = d.files path) ∧
      (∀ k, k ≠ name → u.tx[k]? = d.tx[k]?) ∧
      ∀ dir m, u.tx[name]? = some dir → dir.manifest = some m →
        ∃ dir', d.tx[name]? = some dir' ∧ dir'.manifest = some m := by
  refine recoverEntry_rule (I := fun u =>
    (∀ path, path ∉ d.named name → u.files path = d.files path) ∧
      (∀ k, k ≠ name → u.tx[k]? = d.tx[k]?) ∧
      ∀ dir m, u.tx[name]? = some dir → dir.manifest = some m →
        ∃ dir', d.tx[name]? = some dir' ∧ dir'.manifest = some m) ?_ ?_ ?_ h
  · intro u hu htx
    rw [hu, htx]
    exact ⟨fun _ _ => rfl, fun _ _ => rfl, fun dir m hdir hm => ⟨dir, hdir, hm⟩⟩
  · intro dir m hdir hm u v hv hu htx
    rw [hu, htx]
    refine ⟨fun path hpath => ?_, fun _ _ => rfl, fun dir m hdir hm => ⟨dir, hdir, hm⟩⟩
    rw [Disk.named, txDir_eq hdir, hm] at hpath
    exact (killed_reconcile hv).2 path hpath
  · intro dir m status hdir hm _ u hu htx hres
    refine ⟨fun path hpath => ?_, htx, fun dir' m' hdir' hm' => ⟨dir, hdir, ?_⟩⟩
    · rw [Disk.named, txDir_eq hdir, hm] at hpath
      rw [hu]
      exact (killed_reconcile (Killed.full FsOp.apply _ d)).2 path hpath
    · rcases (hres dir' hdir').1 with hnone | hsame
      · rw [hm'] at hnone
        cases hnone
      · rw [← hsame, hm']

/-! ## The loop over the directories -/

section Loop

variable {env : FsEnv} {vault : String}

theorem recoverEntries_invariant {I : Disk → Prop}
    (hstep : ∀ name d u, I d → Killed FsOp.apply (recoverEntry env vault d name).ops d u → I u)
    {names : List String} {d u : Disk} (hd : I d)
    (h : Killed FsOp.apply (recoverEntries env vault names d).ops d u) : I u := by
  induction names generalizing d with
  | nil =>
      rw [Killed.nil_iff.mp h]
      exact hd
  | cons name names ih =>
      rcases h.append with h | h
      · exact hstep name d u hd h
      · exact ih (hstep name d _ hd (Killed.full FsOp.apply _ d)) h

/-- An invariant of the recovery of every directory is one of `recover`. -/
theorem recover_invariant {I : Disk → Prop}
    (hstep : ∀ name d u, I d → Killed FsOp.apply (recoverEntry env vault d name).ops d u → I u)
    {d u : Disk} (hd : I d) (h : Killed FsOp.apply (recover env vault d).ops d u) : I u :=
  recoverEntries_invariant hstep hd h

/-- A directory that does not block is removed. -/
theorem recoverEntry_unblocked {d : Disk}
    (h : (recoverEntry env vault d name).blocked = false) :
    (runOps FsOp.apply (recoverEntry env vault d name).ops d).tx[name]? = none := by
  have hcase := recoverEntry_case env vault d name
  generalize recoverEntry env vault d name = run at h hcase
  cases hcase with
  | noManifest => cases h
  | corrupt => cases h
  | failed => cases h
  | unlogged => cases h
  | settled =>
      rw [runOps_append]
      exact rmtree_removes env name _ _

theorem recoverEntries_unblocked {names : List String} {d : Disk}
    (h : (recoverEntries env vault names d).blocked = false) {k : String}
    (hk : k ∈ names ∨ d.tx[k]? = none) :
    (runOps FsOp.apply (recoverEntries env vault names d).ops d).tx[k]? = none := by
  induction names generalizing d with
  | nil => exact hk.resolve_left (by simp)
  | cons name names ih =>
      simp only [recoverEntries, Bool.or_eq_false_iff] at h
      simp only [recoverEntries, runOps_append]
      apply ih h.2
      by_cases hname : k = name
      · subst hname
        exact Or.inr (recoverEntry_unblocked h.1)
      · rcases hk with hk | hk
        · exact Or.inl ((List.mem_cons.mp hk).resolve_left hname)
        · obtain ⟨-, htx, -⟩ := recoverEntry_frame 
            (Killed.full FsOp.apply (recoverEntry env vault d name).ops d)
          exact Or.inr (by rw [htx k hname, hk])

/-- A call of `recover` that does not block leaves no transaction directory. -/
theorem recover_unblocked {d : Disk} (h : (recover env vault d).blocked = false) :
    (afterRecover env vault d).tx = ∅ := by
  apply Std.ExtTreeMap.ext_getElem?
  intro k
  rw [Std.ExtTreeMap.getElem?_empty]
  refine recoverEntries_unblocked h ?_
  by_cases hk : k ∈ d.tx
  · exact Or.inl ((env.iterdir_perm _).mem_iff.mpr (Std.ExtTreeMap.mem_keys.mpr hk))
  · exact Or.inr (Std.ExtTreeMap.getElem?_eq_none hk)

theorem recover_of_empty {d : Disk} (h : d.tx = ∅) : recover env vault d = ⟨[], false, []⟩ := by
  have hnames : env.iterdir d.tx.keys = [] := by
    apply List.Perm.eq_nil
    rw [h]
    exact env.iterdir_perm _
  rw [recover, hnames]
  rfl

end Loop

end PowerFramework.TaskStore
