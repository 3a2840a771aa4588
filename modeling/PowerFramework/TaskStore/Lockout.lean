import PowerFramework.TaskStore.CrashAtomicity
/-!
# When a crash locks the store out

Exactly which kill points of a transaction a fresh instance can recover from.  A directory
that exists without its manifest blocks recovery for good, both before the manifest is
durable and while the directory is being removed; so does a manifest that its reader
refuses, and a committed one whose artifacts are not all present.
-/

namespace PowerFramework.TaskStore

open Lib.Text Lib.Crash Lib.Failure Lib.Sha256

variable {env : FsEnv} {vault : String} {t : Transaction} {d u : Disk}

/-! ## The directory at a kill point -/

/-- The effect of one operation on the directory `name`. -/
def dirAfter (name : String) (ops : List FsOp) (dir : Option TxDir) : Option TxDir :=
  ops.foldl (fun dir op => match op with
    | .tx k op => if k = name then op.apply dir else dir
    | _ => dir) dir

theorem getElem?_runOps (name : String) (ops : List FsOp) (d : Disk) :
    (runOps FsOp.apply ops d).tx[name]? = dirAfter name ops d.tx[name]? := by
  induction ops generalizing d with
  | nil => rfl
  | cons op ops ih =>
      rw [runOps_cons, ih]
      cases op with
      | tx k op =>
          rw [getElem?_apply_tx]
          by_cases hk : k = name
          · subst hk
            simp [dirAfter]
          · simp [dirAfter, hk, Ne.symm hk]
      | store path content => rfl
      | appendLog record => rfl

/-- The directory `name` is on disk after `done`, which starts without it. -/
def DirectoryLeft (name : String) (done : List FsOp) : Prop := dirAfter name done none ≠ none

/-- The manifest that is durable after `done`, which starts without the directory. -/
def durableManifest (name : String) (done : List FsOp) : Option Manifest :=
  ((dirAfter name done none).getD .empty).manifest

/-! ## Recovering the rest of the store -/

theorem imageState_congr {d u : Disk} {op : String} {t : Touched}
    (h : u.files t.rel = d.files t.rel) : imageState u op t = imageState d op t := by
  unfold imageState
  cases hpath : allowedRecoveryPath t.label t.rel op with
  | error e => rfl
  | ok path =>
      obtain ⟨rfl, -, -⟩ := allowedRecoveryPath_ok hpath
      simp only [bind, Except.bind, readImage, h]

theorem mapM_imageState_congr {d u : Disk} {op : String} {ts : List Touched}
    (h : ∀ t ∈ ts, u.files t.rel = d.files t.rel) :
    ts.mapM (imageState u op) = ts.mapM (imageState d op) := by
  induction ts with
  | nil => rfl
  | cons t ts ih =>
      rw [List.mapM_cons, List.mapM_cons, imageState_congr (h t (by simp)),
        ih fun t' ht' => h t' (List.mem_cons_of_mem _ ht')]

/-- Recovering a directory reads that directory and the artifacts it names. -/
theorem recoverEntry_congr {name : String} (hdir : u.tx[name]? = d.tx[name]?)
    (hfiles : ∀ path ∈ d.named name, u.files path = d.files path) :
    recoverEntry env vault u name = recoverEntry env vault d name := by
  have hsame : u.txDir name = d.txDir name := by rw [Disk.txDir, hdir, Disk.txDir]
  have hrec : ∀ m, (d.txDir name).manifest = some m →
      reconcileTx u (d.txDir name) m = reconcileTx d (d.txDir name) m := by
    intro m hm
    unfold reconcileTx
    rw [mapM_imageState_congr fun t ht => hfiles t.rel ?_]
    rw [Disk.named, hm]
    exact Manifest.mem_paths.mpr ⟨t, ht, rfl⟩
  unfold recoverEntry
  simp only [hsame]
  cases hm : (d.txDir name).manifest with
  | none => rfl
  | some stored =>
      have hstored : ∀ m, readManifest vault stored name = .ok m → m = stored :=
        fun m hread => (readManifest_ok.mp hread).1
      dsimp only
      generalize readManifest vault stored name = read at hstored ⊢
      cases read with
      | error e => rfl
      | ok m =>
          cases hstored m rfl
          dsimp only
          rw [hrec stored hm]

/-- `u` is `d` outside the directory `name` and the artifacts `paths`. -/
def SameElsewhere (name : String) (paths : List RelPath) (d u : Disk) : Prop :=
  (∀ k, k ≠ name → u.tx[k]? = d.tx[k]?) ∧ ∀ path, path ∉ paths → u.files path = d.files path

theorem SameElsewhere.apply {name : String} {paths : List RelPath} (op : FsOp)
    (h : SameElsewhere name paths d u) :
    SameElsewhere name paths (op.apply d) (op.apply u) := by
  cases op with
  | tx k op =>
      refine ⟨fun k' hk' => ?_, h.2⟩
      rw [getElem?_apply_tx, getElem?_apply_tx]
      split
      · rename_i heq
        rw [h.1 k (heq ▸ hk')]
      · exact h.1 k' hk'
  | store path content =>
      refine ⟨h.1, fun q hq => ?_⟩
      rw [apply_store_files, apply_store_files]
      by_cases hpath : q = path
      · subst hpath
        simp
      · rw [Function.update_of_ne hpath, Function.update_of_ne hpath, h.2 q hq]
  | appendLog record => exact h

theorem SameElsewhere.runOps {name : String} {paths : List RelPath} (ops : List FsOp)
    (h : SameElsewhere name paths d u) :
    SameElsewhere name paths (runOps FsOp.apply ops d) (runOps FsOp.apply ops u) := by
  induction ops generalizing d u with
  | nil => exact h
  | cons op ops ih => exact ih (h.apply op)

theorem SameElsewhere.recoverEntry {name k : String} {paths : List RelPath} (env : FsEnv)
    (vault : String) (hsame : SameElsewhere name paths d u) (ho : Others name paths d) (hk : k ≠ name) :
    TaskStore.recoverEntry env vault u k = TaskStore.recoverEntry env vault d k :=
  recoverEntry_congr (hsame.1 k hk) fun path hpath => hsame.2 path (ho k hk path hpath)

/-- Away from the directory, recovery goes as it would have gone before. -/
theorem recoverEntries_elsewhere {name : String} {paths : List RelPath} {names : List String}
    (hname : name ∉ names) (hsame : SameElsewhere name paths d u) (ho : Others name paths d) :
    (recoverEntries env vault names u).blocked = (recoverEntries env vault names d).blocked := by
  induction names generalizing d u with
  | nil => rfl
  | cons k names ih =>
      rw [List.mem_cons, not_or] at hname
      have hrun := hsame.recoverEntry env vault ho (Ne.symm hname.1)
      simp only [recoverEntries, hrun]
      rw [ih hname.2 (hsame.runOps _) (ho.step (Killed.full FsOp.apply _ d))]

/-- Recovery is blocked when another directory blocks it or this one does. -/
theorem recoverEntries_blocked {name : String} {paths : List RelPath} {names : List String}
    {start : Disk} (hnodup : names.Nodup) (hname : name ∈ names)
    (hsame : SameElsewhere name paths d u) (ho : Others name paths d)
    (hdir : u.tx[name]? = start.tx[name]?) (hfiles : ∀ path ∈ paths, u.files path = start.files path)
    (hnamed : ∀ path ∈ start.named name, path ∈ paths) :
    (recoverEntries env vault names u).blocked =
      ((recoverEntry env vault start name).blocked ||
        (recoverEntries env vault (names.erase name) d).blocked) := by
  induction names generalizing d u with
  | nil => simp at hname
  | cons k names ih =>
      rw [List.nodup_cons] at hnodup
      by_cases hk : k = name
      · subst hk
        have hrun : recoverEntry env vault u k = recoverEntry env vault start k :=
          recoverEntry_congr hdir fun path hpath => hfiles path (hnamed path hpath)
        obtain ⟨hout, htx, -⟩ := recoverEntry_frame (Killed.full FsOp.apply (recoverEntry env vault u k).ops u)
        have hsame' : SameElsewhere k paths d
            (runOps FsOp.apply (recoverEntry env vault u k).ops u) := by
          refine ⟨fun k' hk' => by rw [htx k' hk', hsame.1 k' hk'], fun path hpath => ?_⟩
          rw [hout path fun hmem => hpath (hnamed path ?_), hsame.2 path hpath]
          rw [Disk.named, Disk.txDir, ← hdir]
          exact hmem
        rw [List.erase_cons_head]
        simp only [recoverEntries]
        rw [recoverEntries_elsewhere hnodup.1 hsame' ho, hrun]
      · have hmem : name ∈ names := (List.mem_cons.mp hname).resolve_left (Ne.symm hk)
        have hrun := hsame.recoverEntry env vault ho hk
        have ho' : Others name paths u := by
          intro k' hk' path hpath
          rw [Disk.named, Disk.txDir, hsame.1 k' hk'] at hpath
          exact ho k' hk' path hpath
        have hkill := Killed.full FsOp.apply (recoverEntry env vault u k).ops u
        have htx := (recoverEntry_frame hkill).2.1 name (Ne.symm hk)
        have hkept : ∀ path ∈ paths, (runOps FsOp.apply (recoverEntry env vault u k).ops u).files path =
            u.files path := fun path hpath => ho'.files_eq hk hkill hpath
        rw [hrun] at htx hkept
        rw [List.erase_cons_tail (by simpa using hk)]
        simp only [recoverEntries]
        rw [hrun, ih hnodup.2 hmem (hsame.runOps _) (ho.step (Killed.full FsOp.apply _ d))
          (by rw [htx, hdir]) fun path hpath => by rw [hkept path hpath, hfiles path hpath]]
        rw [← Bool.or_assoc, ← Bool.or_assoc, Bool.or_comm (recoverEntry env vault d k).blocked]

/-- The leftovers that are on disk settle by themselves, in whatever order they are listed. -/
def Settles (env : FsEnv) (vault : String) (d : Disk) : Prop :=
  ∀ names, names.Perm d.tx.keys → (recoverEntries env vault names d).blocked = false

/-- Recovery from a disk that differs from a settling one in one directory and its artifacts
hangs on that directory alone. -/
theorem recover_blocked_iff {name : String} {paths : List RelPath} (hsettles : Settles env vault d)
    (ho : Others name paths d) (hsame : SameElsewhere name paths d u) (hfresh : d.tx[name]? = none)
    (hnamed : ∀ path ∈ u.named name, path ∈ paths) :
    (recover env vault u).blocked = false ↔
      u.tx[name]? = none ∨ (recoverEntry env vault u name).blocked = false := by
  have hkeys : ∀ k, k ≠ name → (k ∈ u.tx.keys ↔ k ∈ d.tx.keys) := by
    intro k hk
    rw [Std.ExtTreeMap.mem_keys, Std.ExtTreeMap.mem_keys,
      Std.ExtTreeMap.mem_iff_isSome_getElem?, Std.ExtTreeMap.mem_iff_isSome_getElem?, hsame.1 k hk]
  have hnot : name ∉ d.tx.keys := by
    rw [Std.ExtTreeMap.mem_keys, Std.ExtTreeMap.mem_iff_isSome_getElem?, hfresh]
    simp
  have hperm := env.iterdir_perm u.tx.keys
  have hnodup : (env.iterdir u.tx.keys).Nodup := hperm.nodup_iff.mpr Std.ExtTreeMap.nodup_keys
  rw [recover]
  by_cases hmem : name ∈ u.tx.keys
  · have hothers : ((env.iterdir u.tx.keys).erase name).Perm d.tx.keys := by
      refine (List.perm_ext_iff_of_nodup (hnodup.erase name) Std.ExtTreeMap.nodup_keys).mpr ?_
      intro k
      rw [hnodup.mem_erase_iff, hperm.mem_iff]
      constructor
      · rintro ⟨hk, hmem⟩
        exact (hkeys k hk).mp hmem
      · intro hk
        have hne : k ≠ name := fun heq => hnot (heq ▸ hk)
        exact ⟨hne, (hkeys k hne).mpr hk⟩
    rw [recoverEntries_blocked hnodup (hperm.mem_iff.mpr hmem) hsame ho rfl (fun _ _ => rfl) hnamed,
      hsettles _ hothers, Bool.or_false]
    have hsome : u.tx[name]? ≠ none := by
      rw [Std.ExtTreeMap.mem_keys, Std.ExtTreeMap.mem_iff_isSome_getElem?] at hmem
      intro hnone
      simp [hnone] at hmem
    simp [hsome]
  · have hall : (env.iterdir u.tx.keys).Perm d.tx.keys := by
      refine (List.perm_ext_iff_of_nodup hnodup Std.ExtTreeMap.nodup_keys).mpr fun k => ?_
      rw [hperm.mem_iff]
      by_cases hk : k = name
      · subst hk
        exact iff_of_false hmem hnot
      · exact hkeys k hk
    have hnone : u.tx[name]? = none := by
      rw [Std.ExtTreeMap.mem_keys] at hmem
      exact Std.ExtTreeMap.getElem?_eq_none hmem
    rw [recoverEntries_elsewhere (fun h => hmem (hperm.mem_iff.mp h)) hsame ho, hsettles _ hall]
    simp [hnone]

/-! ## Recovering the transaction's own directory -/

/-- What the reader of the manifest demands of a transaction beyond its preparation. -/
structure Transaction.Admissible (t : Transaction) : Prop where
  operation : recoveryOperationLabels t.op ≠ none
  command : commandDigestOk t.commandSha256 = true
  short : t.touched.length ≤ 256

theorem imageDigestOk_imageDigest (image : Option Bytes) :
    imageDigestOk (imageDigest image) = true := by
  cases image with
  | none => rfl
  | some data =>
      have hhex : ∀ c ∈ (hexdigest data).toList, isHex c = true := fun c hc =>
        isHexDigit_of_mem_hexdigest hc
      simp only [imageDigest, Option.map_some, imageDigestOk, isDigestToken]
      simpa [length_hexdigest, List.all_eq_true] using hhex

theorem valid_iff {m : Manifest} (hop : m.op = t.op) (hcommand : m.commandSha256 = t.commandSha256)
    (hlength : m.touched.length = t.touched.length) (hbound : m.txId = t.txId)
    (hvault : m.vault = vault) (haware : m.createdAt = .utc t.createdAt)
    (hentries : ∀ e ∈ m.touched, validateEntry m e = .ok ⟨⟩) :
    m.Valid vault t.txId ↔ t.Admissible := by
  constructor
  · intro h
    exact ⟨hop ▸ h.operation, hcommand ▸ h.command, hlength ▸ h.short⟩
  · intro h
    refine ⟨hbound, hvault, hop ▸ h.operation, hcommand ▸ h.command, ?_, hlength ▸ h.short, hentries⟩
    rw [haware]
    simp [Timestamp.utc]

/-- A directory with a manifest is recovered when the manifest is accepted and reconciled. -/
theorem recoverEntry_unblocked_iff {name : String} {m : Manifest}
    (hm : (u.txDir name).manifest = some m) (hlog : env.logWritable name = true) :
    (recoverEntry env vault u name).blocked = false ↔
      m.readable = true ∧ m.Valid vault name ∧
        ∃ status, (reconcileTx u (u.txDir name) m).2 = .ok status := by
  have hcase := recoverEntry_case env vault u name
  generalize recoverEntry env vault u name = run at hcase
  cases hcase with
  | noManifest hnone => simp [hm] at hnone
  | corrupt hm' hfails =>
      cases hm.symm.trans hm'
      simp only [Bool.true_eq_false, false_iff]
      rintro ⟨hread, hvalid, -⟩
      exact hfails ⟨hread, hvalid⟩
  | failed hm' _ _ hrec =>
      cases hm.symm.trans hm'
      simp [hrec]
  | unlogged _ _ _ _ hnolog => simp [hlog] at hnolog
  | settled hm' hread hvalid hrec _ =>
      cases hm.symm.trans hm'
      simp [hread, hvalid, hrec]

/-- A prepared transaction that is pending is settled exactly when its artifacts can be
read. -/
theorem Restorable.reconcile_ok_iff {latest : RelPath → Option Bytes} {dir : TxDir} {m : Manifest}
    (hr : Restorable latest u dir m) (hprep : m.stage = .prepared)
    (hallowed : ∀ e ∈ m.touched, allowedRecoveryPath e.label e.rel m.op = .ok e.rel) :
    (∃ status, (reconcileTx u dir m).2 = .ok status) ↔
      ∀ path ∈ m.paths, Bounded (u.files path) := by
  constructor
  · rintro ⟨status, hstatus⟩ path hpath
    obtain ⟨e, he, rfl⟩ := Manifest.mem_paths.mp hpath
    by_contra hbound
    obtain ⟨err, herr⟩ := reconcileTx_unread dir (d := u) (m := m)
      fun hall => hbound (hall e he).2
    rw [herr] at hstatus
    cases hstatus
  · intro hbound
    refine hr.reconcile_ok hprep fun e he => ⟨hallowed e he, ?_⟩
    exact hbound e.rel (Manifest.mem_paths.mpr ⟨e, he, rfl⟩)

/-- The postimages a committed manifest can be told by: all of them there, or none of the
artifacts there before or after. -/
def Classifiable (d : Disk) (t : Transaction) : Prop :=
  t.touched ≠ [] ∧ ((∀ path ∈ t.paths, postimage d t path ≠ none) ∨
    ∀ path ∈ t.paths, d.files path = none ∧ postimage d t path = none)

theorem classify_committed (artifact : RelPath × String) (post : RelPath → Option Bytes) :
    (classify (committedEntry d post artifact) (post artifact.1) = .post ↔
        post artifact.1 ≠ none) ∧
      (classify (committedEntry d post artifact) (post artifact.1) = .pre ↔
        d.files artifact.1 = none ∧ post artifact.1 = none) := by
  have hpost : classify (committedEntry d post artifact) (post artifact.1) = .post ↔
      post artifact.1 ≠ none := by
    rw [classify_eq_post]
    change imageDigest (post artifact.1) ≠ none ∧
      imageDigest (post artifact.1) = imageDigest (post artifact.1) ↔ _
    simp [imageDigest_eq_none]
  refine ⟨hpost, ?_⟩
  rw [classify_eq_pre, Ne, hpost, not_not]
  change post artifact.1 = none ∧ imageDigest (post artifact.1) = imageDigest (d.files artifact.1) ↔ _
  constructor
  · rintro ⟨hnone, hdigest⟩
    rw [hnone] at hdigest
    exact ⟨imageDigest_eq_none.mp hdigest.symm, hnone⟩
  · rintro ⟨hpre, hnone⟩
    rw [hpre, hnone]
    exact ⟨rfl, rfl⟩

/-- A committed transaction is recognised exactly when its postimages are classifiable. -/
theorem reconcile_committed_ok_iff {dir : TxDir} (hfiles : u.files = postimage d t)
    (hread : ∀ e ∈ (t.committedManifest vault d).touched,
      allowedRecoveryPath e.label e.rel t.op = .ok e.rel ∧ Bounded (u.files e.rel)) :
    (∃ status, (reconcileTx u dir (t.committedManifest vault d)).2 = .ok status) ↔
      Classifiable d t := by
  have hstates := imageStates_ok.mpr ⟨hread, rfl⟩
  have hmap : ((t.committedManifest vault d).touched.map fun e => classify e (u.files e.rel)) =
      t.touched.map fun a => classify (committedEntry d (postimage d t) a) (postimage d t a.1) := by
    rw [hfiles]
    simp only [Transaction.committedManifest, Transaction.manifest, List.map_map]
    rfl
  rw [hmap] at hstates
  unfold reconcileTx
  have hstates' : (t.committedManifest vault d).touched.mapM
      (imageState u (t.committedManifest vault d).op) = .ok (t.touched.map fun a =>
        classify (committedEntry d (postimage d t) a) (postimage d t a.1)) := hstates
  rw [hstates']
  have hstage : ¬ (t.committedManifest vault d).stage = .prepared := by
    simp [Transaction.committedManifest]
  simp only [if_neg hstage]
  have hpost : (∀ s ∈ t.touched.map fun a =>
        classify (committedEntry d (postimage d t) a) (postimage d t a.1), s = .post) ↔
      ∀ path ∈ t.paths, postimage d t path ≠ none := by
    simp only [List.forall_mem_map, Transaction.paths]
    exact forall₂_congr fun a _ => (classify_committed a _).1
  have hpre : (∀ s ∈ t.touched.map fun a =>
        classify (committedEntry d (postimage d t) a) (postimage d t a.1), s = .pre) ↔
      ∀ path ∈ t.paths, d.files path = none ∧ postimage d t path = none := by
    simp only [List.forall_mem_map, Transaction.paths]
    exact forall₂_congr fun a _ => (classify_committed a _).2
  simp only [hpost, hpre, Classifiable, ne_eq, List.map_eq_nil_iff]
  by_cases hne : t.touched = []
  · simp [hne]
  · simp only [hne, not_false_eq_true, true_and]
    by_cases hall : ∀ path ∈ t.paths, ¬ postimage d t path = none
    · simp only [if_pos hall]
      exact iff_of_true ⟨_, rfl⟩ (Or.inl hall)
    · simp only [hall, false_or]
      by_cases hnone : ∀ path ∈ t.paths, d.files path = none ∧ postimage d t path = none
      · simp only [if_pos hnone]
        exact iff_of_true ⟨_, rfl⟩ hnone
      · simp only [if_neg hnone]
        exact iff_of_false (by simp) hnone

theorem manifest_valid_iff
    (hallowed : ∀ a ∈ t.touched, allowedRecoveryPath a.2 a.1 t.op = .ok a.1) :
    (t.manifest vault (t.touched.map (preparedEntry d))).Valid vault t.txId ↔ t.Admissible := by
  refine valid_iff rfl rfl (by simp [Transaction.manifest]) rfl rfl rfl fun e he => ?_
  obtain ⟨a, ha, rfl⟩ := List.mem_map.mp he
  refine validateEntry_ok.mpr ⟨by simp [Transaction.manifest], hallowed a ha, ?_, rfl⟩
  exact imageDigestOk_imageDigest _

theorem committedManifest_valid_iff
    (hallowed : ∀ a ∈ t.touched, allowedRecoveryPath a.2 a.1 t.op = .ok a.1) :
    (t.committedManifest vault d).Valid vault t.txId ↔ t.Admissible := by
  refine valid_iff rfl rfl (by simp [Transaction.committedManifest, Transaction.manifest])
    rfl rfl rfl fun e he => ?_
  obtain ⟨a, ha, rfl⟩ := List.mem_map.mp he
  refine validateEntry_ok.mpr ⟨by simp [committedEntry], hallowed a ha, ?_, ?_⟩
  · exact imageDigestOk_imageDigest _
  · exact imageDigestOk_imageDigest _

/-- The artifacts that the transaction names or that its body writes. -/
def Transaction.footprint (t : Transaction) : List RelPath := t.paths ++ t.body.map Prod.fst

theorem lock_fresh (env : FsEnv) (vault : String) (u : Disk) :
    (lock env vault u .fresh).failure = none ↔ (recover env vault u).blocked = false := by
  unfold lock
  cases hblocked : (recover env vault u).blocked with
  | true => simp [Instance.fresh, hblocked]
  | false => simp [Instance.fresh, hblocked]

/-- The transaction's own directory, at the disk a kill leaves. -/
theorem own_directory_iff (hfresh : d.tx[t.txId]? = none) (hlabels : t.labels.Nodup)
    (hlog : env.logWritable t.txId = true) {env' : FsEnv}
    (hkill : Killed FsOp.apply (runTransaction env' vault d t).ops d u)
    (hleft : u.tx[t.txId]? ≠ none) :
    (recoverEntry env vault u t.txId).blocked = false ↔
      ∃ m, (u.txDir t.txId).manifest = some m ∧ m.readable = true ∧ t.Admissible ∧
        (∀ path ∈ t.paths, Bounded (u.files path)) ∧
        (m.stage = .committed → Classifiable d t) := by
  have hdir : u.tx[t.txId]? = some (u.txDir t.txId) := by
    rw [Disk.txDir]
    cases hsome : u.tx[t.txId]? with
    | none => exact absurd hsome hleft
    | some dir => rfl
  cases hm : (u.txDir t.txId).manifest with
  | none =>
      have hcase := recoverEntry_case env vault u t.txId
      generalize recoverEntry env vault u t.txId = run at hcase
      cases hcase with
      | noManifest => simp
      | corrupt hm' => simp [hm] at hm'
      | failed hm' => simp [hm] at hm'
      | unlogged hm' => simp [hm] at hm'
      | settled hm' => simp [hm] at hm'
  | some m =>
      rw [recoverEntry_unblocked_iff hm hlog]
      simp only [Option.some.injEq, exists_eq_left']
      refine and_congr_right fun _ => ?_
      obtain ⟨_, hcase⟩ := killed_transaction hfresh hlabels hkill
      cases hcase with
      | unprepared _ hnone => simp [hnone _ hdir] at hm
      | pending entries hentries hpending =>
          obtain ⟨rfl, -, hprepared⟩ := prepareTouched_ok hentries
          have hmanifest := (hpending.manifest _ hdir).resolve_left (by simp [hm])
          cases hm.symm.trans hmanifest
          have hr := hpending.restorable _ hdir hm
          rw [manifest_valid_iff fun a ha => (hprepared a ha).1]
          refine and_congr_right fun _ => ?_
          rw [hr.reconcile_ok_iff rfl ?_]
          · simp [Transaction.manifest, Manifest.paths, Transaction.paths, preparedEntry]
          · intro e he
            obtain ⟨a, ha, rfl⟩ := List.mem_map.mp he
            exact (hprepared a ha).1
      | committed hentries hfiles hbounded hcommitted =>
          obtain ⟨-, -, hprepared⟩ := prepareTouched_ok hentries
          cases hcommitted _ m hdir hm
          rw [committedManifest_valid_iff fun a ha => (hprepared a ha).1]
          refine and_congr_right fun _ => ?_
          rw [reconcile_committed_ok_iff hfiles ?_]
          · rw [hfiles]
            simpa [Transaction.committedManifest] using fun _ => hbounded
          · intro e he
            obtain ⟨a, ha, rfl⟩ := List.mem_map.mp he
            refine ⟨(hprepared a ha).1, ?_⟩
            rw [hfiles]
            exact hbounded a.1 (List.mem_map_of_mem ha)

/-- The kill points that a fresh instance recovers from: the directory is not on disk, or
its manifest is durable and accepted, the artifacts can be read, and if the manifest is the
committed one its postimages are classifiable. -/
theorem lock_after_kill_iff {done : List FsOp} (hfresh : d.tx[t.txId]? = none)
    (hlabels : t.labels.Nodup) (hothers : Others t.txId t.footprint d)
    (hsettles : Settles env vault d) (hlog : env.logWritable t.txId = true) {env' : FsEnv}
    (hdone : done <+: (runTransaction env' vault d t).ops) :
    (lock env vault (runOps FsOp.apply done d) .fresh).failure = none ↔
      ¬ DirectoryLeft t.txId done ∨ ∃ m, durableManifest t.txId done = some m ∧
        m.readable = true ∧ t.Admissible ∧
        (∀ path ∈ t.paths, Bounded ((runOps FsOp.apply done d).files path)) ∧
        (m.stage = .committed → Classifiable d t) := by
  have hkill : Killed FsOp.apply (runTransaction env' vault d t).ops d
      (runOps FsOp.apply done d) := ⟨done, hdone, rfl⟩
  obtain ⟨hfiles, htx⟩ := killed_contents hfresh hlabels hkill
  have hsame : SameElsewhere t.txId t.footprint d (runOps FsOp.apply done d) := by
    refine ⟨htx, fun path hpath => (hfiles path).resolve_right fun hmem => hpath ?_⟩
    exact List.mem_append_right _ (List.mem_map.mpr ⟨_, hmem, rfl⟩)
  have hnamed : ∀ path ∈ (runOps FsOp.apply done d).named t.txId, path ∈ t.footprint := by
    intro path hpath
    exact List.mem_append_left _ (killed_named hfresh hlabels hkill path hpath)
  have hentry : (runOps FsOp.apply done d).tx[t.txId]? = dirAfter t.txId done none := by
    rw [getElem?_runOps, hfresh]
  rw [lock_fresh, recover_blocked_iff hsettles hothers hsame hfresh hnamed, DirectoryLeft,
    durableManifest, not_not, ← hentry]
  by_cases hleft : (runOps FsOp.apply done d).tx[t.txId]? = none
  · simp [hleft]
  · simp only [hleft, false_or]
    exact own_directory_iff hfresh hlabels hlog hkill hleft

theorem sample_settles : Settles .ordered "/vault" sampleVault := by
  intro names hperm
  have hkeys : sampleVault.tx.keys = [] := rfl
  have hnil : names = [] := List.Perm.eq_nil (hkeys ▸ hperm)
  rw [hnil]
  rfl

/-- The sample killed after the write of its body. -/
theorem lock_after_kill_sample :
    ¬ DirectoryLeft "0f" (sampleOps.take 4) ∨ ∃ m, durableManifest "0f" (sampleOps.take 4) = some m ∧
      m.readable = true ∧ sampleTransaction.Admissible ∧
      (∀ path ∈ sampleTransaction.paths,
        Bounded ((runOps FsOp.apply (sampleOps.take 4) sampleVault).files path)) ∧
      (m.stage = .committed → Classifiable sampleVault sampleTransaction) :=
  (lock_after_kill_iff (t := sampleTransaction)
    (by simp [sampleVault]) (by simp [sampleTransaction, Transaction.labels]) (sample_others _)
    sample_settles rfl (List.take_prefix 4 sampleOps)).mp (by decide +kernel)

/-- A kill right after the directory is made, and one while it is being removed, lock every
later instance out. -/
theorem crash_locks_out :
    ([FsOp.tx "0f" .mkdir] = sampleOps.take 1 ∧
        (lock .ordered "/vault" (runOps FsOp.apply (sampleOps.take 1) sampleVault) .fresh).failure =
          some recoveryBlockedError) ∧
      (lock .ordered "/vault" (runOps FsOp.apply (sampleOps.take 6) sampleVault) .fresh).failure =
        some recoveryBlockedError := by
  refine ⟨⟨rfl, ?_⟩, ?_⟩
  · decide +kernel
  · decide +kernel

end PowerFramework.TaskStore
