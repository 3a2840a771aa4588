import PowerFramework.TaskStore.Kill
/-!
# Crash atomicity

A transaction killed anywhere, followed by recoveries that may be killed too, ends in the
artifacts' old contents or in their new ones as soon as one recovery completes without
being blocked; and recovering again changes none of them.
-/

namespace PowerFramework.TaskStore

open Lib.Crash Lib.Failure Lib.Sha256

variable {S : Set Bytes} {env : FsEnv} {vault : String} {t : Transaction}
variable {image : RelPath → Option Bytes} {m : Manifest} {d u v : Disk}

/-- Fresh instances recover one after the other; each call may be killed, or complete and
find itself blocked. -/
inductive Recovering (vault : String) : Disk → Disk → Prop where
  | refl (d : Disk) : Recovering vault d d
  | step {d v u : Disk} (env : FsEnv) : Recovering vault d v →
      Killed FsOp.apply (recover env vault v).ops v u → Recovering vault d u

/-- Every artifact of `paths` has the content `image`. -/
def AllAt (paths : List RelPath) (image : RelPath → Option Bytes) (d : Disk) : Prop :=
  ∀ path ∈ paths, d.files path = image path

/-- No other leftover names an artifact of `paths`. -/
def Others (name : String) (paths : List RelPath) (d : Disk) : Prop :=
  ∀ k, k ≠ name → ∀ path ∈ d.named k, path ∉ paths

theorem named_subset {name : String}
    (h : Killed FsOp.apply (recoverEntry env vault d name).ops d u) (k : String) :
    ∀ path ∈ u.named k, path ∈ d.named k := by
  obtain ⟨-, htx, hmanifest⟩ := recoverEntry_frame h
  intro path hpath
  by_cases hk : k = name
  · subst hk
    cases hm : (u.txDir k).manifest with
    | none => simp [Disk.named, hm] at hpath
    | some m =>
        obtain ⟨dir', hdir', hm'⟩ := hmanifest _ m (exists_of_txDir_manifest hm) hm
        rw [Disk.named, hm] at hpath
        rw [Disk.named, txDir_eq hdir', hm']
        exact hpath
  · rw [Disk.named, Disk.txDir, htx k hk] at hpath
    exact hpath

theorem Others.step {name k : String} {paths : List RelPath} (ho : Others name paths d)
    (h : Killed FsOp.apply (recoverEntry env vault d k).ops d u) : Others name paths u :=
  fun k' hk' path hpath => ho k' hk' path (named_subset h k' path hpath)

/-- Recovering another directory leaves these artifacts alone. -/
theorem Others.files_eq {name k : String} {paths : List RelPath} (ho : Others name paths d)
    (hk : k ≠ name) (h : Killed FsOp.apply (recoverEntry env vault d k).ops d u)
    {path : RelPath} (hpath : path ∈ paths) : u.files path = d.files path :=
  (recoverEntry_frame h).1 path fun hmem => ho k hk path hmem hpath

/-- Nothing is left to roll back, and the artifacts have the content `image`. -/
structure Idle (name : String) (paths : List RelPath) (image : RelPath → Option Bytes)
    (d : Disk) : Prop where
  others : Others name paths d
  unprepared : ∀ dir m, d.tx[name]? = some dir → dir.manifest = some m → m.stage = .committed
  files : AllAt paths image d

/-- The prepared transaction `m` is pending for `image`. -/
structure Rolling (S : Set Bytes) (name : String) (image : RelPath → Option Bytes)
    (m : Manifest) (d : Disk) : Prop where
  others : Others name m.paths d
  prepared : m.stage = .prepared
  pending : Pending image m name d
  known : ∀ path ∈ m.paths, ImageIn S (d.files path) ∧ ImageIn S (image path)

theorem Idle.step {name k : String} {paths : List RelPath}
    (hd : Idle name paths image d)
    (h : Killed FsOp.apply (recoverEntry env vault d k).ops d u) : Idle name paths image u := by
  by_cases hk : k = name
  · subst hk
    obtain ⟨hfiles, -, hunprepared⟩ := recoverEntry_idle hd.unprepared h
    refine ⟨hd.others.step h, hunprepared, fun path hpath => ?_⟩
    rw [hfiles, hd.files path hpath]
  · have htx := (recoverEntry_frame h).2.1 name (Ne.symm hk)
    refine ⟨hd.others.step h, htx ▸ hd.unprepared, fun path hpath => ?_⟩
    rw [hd.others.files_eq hk h hpath, hd.files path hpath]

/-- A pending transaction stays pending, and its artifacts only go back to `image`. -/
theorem Rolling.step {name k : String} (hS : CollisionFree S) (hd : Rolling S name image m d)
    (h : Killed FsOp.apply (recoverEntry env vault d k).ops d u) :
    Rolling S name image m u ∧
      ∀ path ∈ m.paths, u.files path = d.files path ∨ u.files path = image path := by
  have hmem : ∀ t ∈ m.touched, t.rel ∈ m.paths := fun t ht => Manifest.mem_paths.mpr ⟨t, ht, rfl⟩
  have hstep : Pending image m name u ∧
      ∀ path ∈ m.paths, u.files path = d.files path ∨ u.files path = image path := by
    by_cases hk : k = name
    · subst hk
      obtain ⟨hpending, htoward, -⟩ := hd.pending.step hS hd.prepared
        (fun t ht => (hd.known t.rel (hmem t ht)).1)
        (fun t ht => (hd.known t.rel (hmem t ht)).2) h
      exact ⟨hpending, fun path _ => (htoward path).imp id And.right⟩
    · have hfiles : ∀ path ∈ m.paths, u.files path = d.files path := fun path hpath =>
        hd.others.files_eq hk h hpath
      have htx := (recoverEntry_frame h).2.1 name (Ne.symm hk)
      refine ⟨hd.pending.keep htx fun t ht hfile => ?_, fun path hpath => Or.inl (hfiles path hpath)⟩
      rw [hfiles t.rel (hmem t ht), hfile]
  refine ⟨⟨hd.others.step h, hd.prepared, hstep.1, fun path hpath => ⟨?_, (hd.known path hpath).2⟩⟩,
    hstep.2⟩
  rcases hstep.2 path hpath with heq | heq
  · rw [heq]
    exact (hd.known path hpath).1
  · rw [heq]
    exact (hd.known path hpath).2

/-! ## A second call -/

/-- Recovery gives up on the directory before it writes anything. -/
structure Stuck (vault name : String) (m : Manifest) (d : Disk) : Prop where
  others : Others name m.paths d
  manifest : (d.txDir name).manifest = some m
  fails : ¬ (m.readable = true ∧ m.Valid vault name ∧ ∀ t ∈ m.touched,
    allowedRecoveryPath t.label t.rel m.op = .ok t.rel ∧ Bounded (d.files t.rel))

theorem reconcileTx_unread (dir : TxDir)
    (h : ¬ ∀ t ∈ m.touched, allowedRecoveryPath t.label t.rel m.op = .ok t.rel ∧
      Bounded (d.files t.rel)) : ∃ e, reconcileTx d dir m = ([], .error e) := by
  cases hstates : m.touched.mapM (imageState d m.op) with
  | error e => exact ⟨e, by simp [reconcileTx, hstates]⟩
  | ok states => exact absurd (imageStates_ok.mp hstates).1 h

theorem Stuck.step {name k : String} (hd : Stuck vault name m d)
    (h : Killed FsOp.apply (recoverEntry env vault d k).ops d u) :
    Stuck vault name m u ∧ ∀ path ∈ m.paths, u.files path = d.files path := by
  have hsame : (u.txDir name).manifest = some m ∧ ∀ path ∈ m.paths, u.files path = d.files path := by
    by_cases hk : k = name
    · subst hk
      have hquiet : u.files = d.files ∧ u.tx = d.tx := by
        have hunread : ∀ m' writes status, (d.txDir k).manifest = some m' → m'.readable = true →
            m'.Valid vault k → reconcileTx d (d.txDir k) m' = (writes, .ok status) → False := by
          intro m' writes status hm' hread hvalid hrec
          rw [hd.manifest] at hm'
          cases hm'
          obtain ⟨e, he⟩ := reconcileTx_unread (d.txDir k) fun hall =>
            hd.fails ⟨hread, hvalid, hall⟩
          rw [he] at hrec
          cases hrec
        have hcase := recoverEntry_case env vault d k
        generalize recoverEntry env vault d k = run at h hcase
        cases hcase with
        | noManifest =>
            rw [Killed.nil_iff.mp h]
            exact ⟨rfl, rfl⟩
        | corrupt => exact killed_logs (logRecoveryRecord_logs env _) h
        | @failed m' writes e record hm' hread hvalid hrec =>
            rw [hd.manifest] at hm'
            cases hm'
            obtain ⟨e', he'⟩ := reconcileTx_unread (d.txDir k) fun hall =>
              hd.fails ⟨hread, hvalid, hall⟩
            rw [he'] at hrec
            cases hrec
            exact killed_logs (logRecoveryRecord_logs env _) h
        | unlogged hm' hread hvalid hrec _ => exact (hunread _ _ _ hm' hread hvalid hrec).elim
        | settled hm' hread hvalid hrec _ => exact (hunread _ _ _ hm' hread hvalid hrec).elim
      rw [Disk.txDir, hquiet.2]
      exact ⟨hd.manifest, fun path _ => by rw [hquiet.1]⟩
    · rw [Disk.txDir, (recoverEntry_frame h).2.1 name (Ne.symm hk)]
      exact ⟨hd.manifest, fun path hpath => hd.others.files_eq hk h hpath⟩
  refine ⟨⟨hd.others.step h, hsame.1, fun hall => hd.fails ?_⟩, hsame.2⟩
  refine ⟨hall.1, hall.2.1, fun t ht => ?_⟩
  rw [← hsame.2 t.rel (Manifest.mem_paths.mpr ⟨t, ht, rfl⟩)]
  exact hall.2.2 t ht

/-- A directory that one complete recovery has been through. -/
def Quiescent (S : Set Bytes) (vault name : String) (image : RelPath → Option Bytes)
    (m : Manifest) (d : Disk) : Prop :=
  Rolling S name image m d ∧ AllAt m.paths image d ∨ Stuck vault name m d

theorem Quiescent.step {name k : String} (hS : CollisionFree S)
    (hd : Quiescent S vault name image m d)
    (h : Killed FsOp.apply (recoverEntry env vault d k).ops d u) :
    Quiescent S vault name image m u ∧ ∀ path ∈ m.paths, u.files path = d.files path := by
  rcases hd with ⟨hrolling, hback⟩ | hstuck
  · obtain ⟨hrolling', hfiles⟩ := hrolling.step hS h
    have hsame : ∀ path ∈ m.paths, u.files path = d.files path := by
      intro path hpath
      rcases hfiles path hpath with heq | heq
      · exact heq
      · rw [heq, hback path hpath]
    exact ⟨Or.inl ⟨hrolling', fun path hpath => by rw [hsame path hpath, hback path hpath]⟩, hsame⟩
  · obtain ⟨hstuck', hsame⟩ := hstuck.step h
    exact ⟨Or.inr hstuck', hsame⟩

/-- Going through the directory of a pending transaction settles it or gets stuck. -/
theorem Rolling.quiescent {name : String} (hS : CollisionFree S)
    (hd : Rolling S name image m d) :
    Quiescent S vault name image m (runOps FsOp.apply (recoverEntry env vault d name).ops d) := by
  have hmem : ∀ t ∈ m.touched, t.rel ∈ m.paths := fun t ht => Manifest.mem_paths.mpr ⟨t, ht, rfl⟩
  have hfull := Killed.full FsOp.apply (recoverEntry env vault d name).ops d
  have hcase := recoverEntry_case env vault d name
  by_cases hm : (d.txDir name).manifest = some m
  · by_cases hread : m.readable = true ∧ m.Valid vault name ∧ ∀ t ∈ m.touched,
        allowedRecoveryPath t.label t.rel m.op = .ok t.rel ∧ Bounded (d.files t.rel)
    · refine Or.inl ⟨(hd.step hS hfull).1, fun path hpath => ?_⟩
      obtain ⟨t, ht, rfl⟩ := Manifest.mem_paths.mp hpath
      have hr := hd.pending.restorable _ (exists_of_txDir_manifest hm) hm
      obtain ⟨status, hstatus⟩ := hr.reconcile_ok hd.prepared hread.2.2
      have hback := (hr.reconcile hS hd.prepared (fun t ht => (hd.known t.rel (hmem t ht)).1)
        (fun t ht => (hd.known t.rel (hmem t ht)).2)).2 status hstatus t ht
      generalize recoverEntry env vault d name = run at hcase
      cases hcase with
      | noManifest hnone => simp [hm] at hnone
      | corrupt hm' hfails =>
          cases hm.symm.trans hm'
          exact absurd ⟨hread.1, hread.2.1⟩ hfails
      | failed hm' _ _ hrec =>
          cases hm.symm.trans hm'
          rw [hrec] at hstatus
          cases hstatus
      | unlogged hm' _ _ hrec _ =>
          cases hm.symm.trans hm'
          rw [hrec] at hback
          exact hback
      | settled hm' _ _ hrec _ =>
          cases hm.symm.trans hm'
          rw [hrec] at hback
          rw [List.append_assoc, runOps_append, List.singleton_append, runOps_cons, rmtree_files,
            apply_appendLog_files]
          exact hback
    · exact Or.inr ((Stuck.mk hd.others hm hread).step hfull).1
  · have hback : AllAt m.paths image d := by
      intro path hpath
      obtain ⟨t, ht, rfl⟩ := Manifest.mem_paths.mp hpath
      refine hd.pending.restored (fun dir hdir hdm => hm ?_) t ht
      rw [txDir_eq hdir, hdm]
    exact ((show Quiescent S vault name image m d from Or.inl ⟨hd, hback⟩).step hS hfull).1

theorem Rolling.recoverEntries {name : String} (hS : CollisionFree S) {names : List String}
    (hd : Rolling S name image m d ∧ name ∈ names ∨ Quiescent S vault name image m d) :
    Quiescent S vault name image m
      (runOps FsOp.apply (recoverEntries env vault names d).ops d) := by
  induction names generalizing d with
  | nil =>
      rcases hd with ⟨-, hmem⟩ | hd
      · simp at hmem
      · exact hd
  | cons k names ih =>
      simp only [TaskStore.recoverEntries, runOps_append]
      have hfull := Killed.full FsOp.apply (recoverEntry env vault d k).ops d
      apply ih
      rcases hd with ⟨hrolling, hmem⟩ | hd
      · by_cases hk : k = name
        · subst hk
          exact Or.inr (hrolling.quiescent hS)
        · exact Or.inl ⟨(hrolling.step hS hfull).1,
            (List.mem_cons.mp hmem).resolve_left (Ne.symm hk)⟩
      · exact Or.inr (hd.step hS hfull).1

/-- After a complete call, blocked or not, the directory of a pending transaction is
quiescent. -/
theorem Rolling.afterRecover {name : String} (hS : CollisionFree S)
    (hd : Rolling S name image m d) :
    Quiescent S vault name image m (afterRecover env vault d) := by
  apply Rolling.recoverEntries hS
  cases hdir : d.tx[name]? with
  | none =>
      refine Or.inr (Or.inl ⟨hd, fun path hpath => ?_⟩)
      obtain ⟨t, ht, rfl⟩ := Manifest.mem_paths.mp hpath
      exact hd.pending.restored (fun dir hdir' => by simp [hdir] at hdir') t ht
  | some dir =>
      refine Or.inl ⟨hd, (env.iterdir_perm _).mem_iff.mpr (Std.ExtTreeMap.mem_keys.mpr ?_)⟩
      exact Std.ExtTreeMap.mem_iff_isSome_getElem?.mpr (by simp [hdir])

theorem Idle.recover {name : String} {paths : List RelPath} (hd : Idle name paths image d)
    (h : Killed FsOp.apply (recover env vault d).ops d u) : Idle name paths image u :=
  recover_invariant (fun _ _ _ => Idle.step) hd h

theorem Rolling.recover {name : String} (hS : CollisionFree S) (hd : Rolling S name image m d)
    (h : Killed FsOp.apply (recover env vault d).ops d u) : Rolling S name image m u :=
  recover_invariant (fun _ _ _ hd h => (hd.step hS h).1) hd h

theorem Idle.second {name : String} {paths : List RelPath} (hd : Idle name paths image d) :
    ∀ path ∈ paths, (afterRecover env vault d).files path = d.files path := by
  intro path hpath
  have hafter : Idle name paths image (afterRecover env vault d) := hd.recover (Killed.full FsOp.apply _ d)
  rw [hafter.files path hpath, hd.files path hpath]

theorem Quiescent.second {name : String} (hS : CollisionFree S)
    (hd : Quiescent S vault name image m d) :
    ∀ path ∈ m.paths, (afterRecover env vault d).files path = d.files path := by
  refine (recover_invariant (I := fun u => Quiescent S vault name image m u ∧
    ∀ path ∈ m.paths, u.files path = d.files path) ?_ ⟨hd, fun _ _ => rfl⟩
    (Killed.full FsOp.apply (TaskStore.recover env vault d).ops d)).2
  rintro k v u ⟨hv, hsame⟩ h
  obtain ⟨hu, hfiles⟩ := hv.step hS h
  exact ⟨hu, fun path hpath => by rw [hfiles path hpath, hsame path hpath]⟩

/-! ## The transaction -/

/-- Where a killed transaction is while instances recover. -/
def Underway (S : Set Bytes) (d : Disk) (t : Transaction) (v : Disk) : Prop :=
  Idle t.txId t.paths d.files v ∨ Idle t.txId t.paths (postimage d t) v ∨
    ∃ m, m.paths = t.paths ∧ Rolling S t.txId d.files m v

theorem Underway.step {k : String} (hS : CollisionFree S) {v u : Disk} (hv : Underway S d t v)
    (h : Killed FsOp.apply (recoverEntry env vault v k).ops v u) : Underway S d t u := by
  rcases hv with hv | hv | ⟨m, hpaths, hv⟩
  · exact Or.inl (hv.step h)
  · exact Or.inr (Or.inl (hv.step h))
  · exact Or.inr (Or.inr ⟨m, hpaths, (hv.step hS h).1⟩)

theorem Underway.recovering (hS : CollisionFree S) {u v : Disk} (hu : Underway S d t u)
    (h : Recovering vault u v) : Underway S d t v := by
  induction h with
  | refl => exact hu
  | step env _ hkill ih => exact recover_invariant (fun k v u => Underway.step hS) ih hkill

section

variable (hfresh : d.tx[t.txId]? = none) (hlabels : t.labels.Nodup)
  (hothers : Others t.txId t.paths d)
  (hpre : ∀ path ∈ t.paths, ImageIn S (d.files path)) (hbody : ∀ w ∈ t.body, ImageIn S w.2)

include hfresh hlabels hothers hpre hbody

theorem underway_of_killed (h : Killed FsOp.apply (runTransaction env vault d t).ops d u) :
    Underway S d t u := by
  obtain ⟨hfiles, htx⟩ := killed_contents hfresh hlabels h
  have hothers' : Others t.txId t.paths u := by
    intro k hk path hpath
    rw [Disk.named, Disk.txDir, htx k hk] at hpath
    exact hothers k hk path hpath
  obtain ⟨_, hcase⟩ := killed_transaction hfresh hlabels h
  cases hcase with
  | unprepared hsame hnone =>
      refine Or.inl ⟨hothers', fun dir m hdir hm => ?_, fun path _ => by rw [hsame]⟩
      simp [hnone dir hdir] at hm
  | committed _ hpost _ hcommitted =>
      refine Or.inr (Or.inl ⟨hothers', fun dir m hdir hm => ?_, fun path _ => by rw [hpost]⟩)
      rw [hcommitted dir m hdir hm]
      rfl
  | pending entries hentries hpending =>
      have hpaths : (t.manifest vault entries).paths = t.paths := manifest_paths hentries
      refine Or.inr (Or.inr ⟨_, hpaths, hpaths ▸ hothers', rfl, hpending, fun path hpath => ?_⟩)
      rw [hpaths] at hpath
      refine ⟨?_, hpre path hpath⟩
      rcases hfiles path with heq | hmem
      · rw [heq]
        exact hpre path hpath
      · exact hbody _ hmem

/-- A transaction killed anywhere, and any number of recoveries killed or blocked after it:
a recovery that completes unblocked has every artifact at its preimage or every artifact at
its postimage, and a recovery after any complete one changes none of them. -/
theorem crash_atomic (hS : CollisionFree S)
    (hkill : Killed FsOp.apply (runTransaction env vault d t).ops d u)
    (hrecovering : Recovering vault u v) (env' env'' : FsEnv) :
    ((recover env' vault v).blocked = false →
        (AllAt t.paths d.files (afterRecover env' vault v) ∨
          AllAt t.paths (postimage d t) (afterRecover env' vault v)) ∧
        (recover env'' vault (afterRecover env' vault v)).ops = []) ∧
      ∀ path ∈ t.paths, (afterRecover env'' vault (afterRecover env' vault v)).files path =
        (afterRecover env' vault v).files path := by
  have hv := (underway_of_killed hfresh hlabels hothers hpre hbody hkill).recovering hS hrecovering
  have hfull := Killed.full FsOp.apply (recover env' vault v).ops v
  have hempty : (recover env' vault v).blocked = false →
      (recover env'' vault (afterRecover env' vault v)).ops = [] := fun hdone => by
    rw [recover_of_empty (recover_unblocked hdone)]
  rcases hv with hidle | hidle | ⟨m, hpaths, hrolling⟩
  · exact ⟨fun hdone => ⟨Or.inl (hidle.recover hfull).files, hempty hdone⟩,
      (hidle.recover hfull).second⟩
  · exact ⟨fun hdone => ⟨Or.inr (hidle.recover hfull).files, hempty hdone⟩,
      (hidle.recover hfull).second⟩
  · rw [← hpaths]
    refine ⟨fun hdone => ⟨Or.inl fun path hpath => ?_, hempty hdone⟩,
      (hrolling.afterRecover hS).second hS⟩
    obtain ⟨t', ht', rfl⟩ := Manifest.mem_paths.mp hpath
    refine (hrolling.recover hS hfull).pending.restored (fun dir hdir => ?_) t' ht'
    have hgone := recover_unblocked hdone
    rw [afterRecover] at hgone
    simp [hgone] at hdir

end

theorem sample_others (paths : List RelPath) : Others "0f" paths sampleVault := by
  intro k _ path hpath
  simp [Disk.named, Disk.txDir, sampleVault, TxDir.empty] at hpath

/-- The sample killed after the write of its body. -/
def sampleKilled : Disk := runOps FsOp.apply (sampleOps.take 4) sampleVault

theorem sample_collisionFree : CollisionFree {[1], [2]} := by
  have hne : hexdigest [1] ≠ hexdigest [2] := by decide +kernel
  rintro x (rfl | rfl) y (rfl | rfl) hxy
  · rfl
  · exact absurd hxy hne
  · exact absurd hxy.symm hne
  · rfl

theorem sample_files (path : RelPath) : ImageIn {[1], [2]} (sampleVault.files path) := by
  intro data hdata
  by_cases hpath : path = sampleFile
  · subst hpath
    have hone : data = [1] := by simpa [sampleVault, eq_comm] using hdata
    exact Or.inl hone
  · simp [sampleVault, Function.update_of_ne hpath] at hdata

theorem sample_body : ∀ w ∈ sampleTransaction.body, ImageIn {[1], [2]} w.2 := by
  intro w hw data hdata
  have hwrite : w = (sampleFile, some [2]) := by simpa [sampleTransaction] using hw
  subst hwrite
  exact Or.inr (Option.some.inj hdata).symm

theorem crash_atomic_sample :
    ((AllAt [sampleFile] sampleVault.files (afterRecover .ordered "/vault" sampleKilled) ∨
          AllAt [sampleFile] (postimage sampleVault sampleTransaction)
            (afterRecover .ordered "/vault" sampleKilled)) ∧
        (recover .ordered "/vault" (afterRecover .ordered "/vault" sampleKilled)).ops = []) ∧
      ∀ path ∈ [sampleFile],
        (afterRecover .ordered "/vault" (afterRecover .ordered "/vault" sampleKilled)).files path =
          (afterRecover .ordered "/vault" sampleKilled).files path := by
  have hkill : Killed FsOp.apply (runTransaction .ordered "/vault" sampleVault sampleTransaction).ops
      sampleVault sampleKilled := ⟨sampleOps.take 4, List.take_prefix 4 sampleOps, rfl⟩
  have hatomic := crash_atomic (by simp [sampleVault])
    (by simp [sampleTransaction, Transaction.labels]) (sample_others _)
    (fun path _ => sample_files path) sample_body sample_collisionFree hkill (.refl _)
    .ordered .ordered
  exact ⟨hatomic.1 (by decide +kernel), hatomic.2⟩

end PowerFramework.TaskStore
