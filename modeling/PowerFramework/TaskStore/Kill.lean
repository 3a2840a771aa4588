import PowerFramework.TaskStore.Pending
import PowerFramework.TaskStore.Transaction
/-!
# Where a transaction can be killed

The disk that a kill leaves, for every prefix of the operations of a transaction: nothing
durable yet, a pending transaction, or a committed one.
-/

namespace PowerFramework.TaskStore

open Lib.Crash Lib.Failure Lib.Sha256

/-- The manifest entry of one artifact, from its content before the transaction. -/
def preparedEntry (d : Disk) (artifact : RelPath × String) : Touched :=
  ⟨artifact.2, artifact.1, imageDigest (d.files artifact.1), none⟩

theorem prepareEntry_ok {d : Disk} {op label : String} {path : RelPath}
    {result : Touched × Option Bytes} :
    prepareEntry d op path label = .ok result ↔
      (allowedRecoveryPath label path op = .ok path ∧ Bounded (d.files path)) ∧
        result = (preparedEntry d (path, label), d.files path) := by
  simp only [prepareEntry, bind_eq_ok, readImage_ok, pure, Except.pure, Except.ok.injEq]
  constructor
  · rintro ⟨safeLabel, hlabel, path', hpath, pre, ⟨rfl, hbound⟩, rfl⟩
    obtain ⟨rfl, -⟩ := recoveryLabel_ok.mp hlabel
    obtain ⟨rfl, -, -⟩ := allowedRecoveryPath_ok hpath
    exact ⟨⟨hpath, hbound⟩, rfl⟩
  · rintro ⟨⟨hpath, hbound⟩, rfl⟩
    exact ⟨label, (allowedRecoveryPath_ok hpath).2.1, path, hpath, d.files path, ⟨rfl, hbound⟩, rfl⟩

/-- The preparation loop that completes. -/
theorem prepareTouched_ok {d : Disk} {txId op : String} {touched : List (RelPath × String)}
    {entries : List Touched} (h : (prepareTouched d txId op touched).2 = .ok entries) :
    entries = touched.map (preparedEntry d) ∧
      (prepareTouched d txId op touched).1 =
        touched.flatMap (fun a => backupOps txId a.2 (d.files a.1)) ∧
      ∀ a ∈ touched, allowedRecoveryPath a.2 a.1 op = .ok a.1 ∧ Bounded (d.files a.1) := by
  induction touched generalizing entries with
  | nil =>
      cases h
      exact ⟨rfl, rfl, by simp⟩
  | cons a touched ih =>
      obtain ⟨path, label⟩ := a
      cases hentry : prepareEntry d op path label with
      | error e => simp [prepareTouched, hentry] at h
      | ok result =>
          obtain ⟨hok, rfl⟩ := prepareEntry_ok.mp hentry
          simp only [prepareTouched, hentry] at h ⊢
          obtain ⟨rest, hrest, rfl⟩ := map_eq_ok.mp h
          obtain ⟨rfl, hops, hall⟩ := ih hrest
          refine ⟨rfl, by rw [hops]; rfl, ?_⟩
          rw [List.forall_mem_cons]
          exact ⟨hok, hall⟩

/-- Whether or not it completes, the preparation loop writes backups only. -/
theorem prepareTouched_backups {d : Disk} {txId op : String} {touched : List (RelPath × String)}
    {write : FsOp} (h : write ∈ (prepareTouched d txId op touched).1) :
    ∃ label data, write = .tx txId (.writeBackup label data) := by
  induction touched with
  | nil => simp [prepareTouched] at h
  | cons a touched ih =>
      obtain ⟨path, label⟩ := a
      cases hentry : prepareEntry d op path label with
      | error e => simp [prepareTouched, hentry] at h
      | ok result =>
          simp only [prepareTouched, hentry, List.mem_append] at h
          rcases h with h | h
          · cases hpre : result.2 with
            | none => simp [hpre, backupOps] at h
            | some pre =>
                rw [hpre, backupOps, List.mem_singleton] at h
                exact ⟨_, _, h⟩
          · exact ih h

/-- The backups that the preparation loop leaves in a directory. -/
theorem backups_written {d s : Disk} {txId : String} {touched : List (RelPath × String)}
    (hlabels : (touched.map Prod.snd).Nodup) {dir : TxDir} (hdir : s.tx[txId]? = some dir) :
    ∃ dir', (runOps FsOp.apply
        (touched.flatMap fun a => backupOps txId a.2 (d.files a.1)) s).tx[txId]? = some dir' ∧
      dir'.manifest = dir.manifest ∧
      (∀ a ∈ touched, dir'.backups[a.2]? = (d.files a.1).or dir.backups[a.2]?) ∧
      ∀ label, label ∉ touched.map Prod.snd → dir'.backups[label]? = dir.backups[label]? := by
  induction touched generalizing s dir with
  | nil => exact ⟨dir, hdir, rfl, by simp, fun _ _ => rfl⟩
  | cons a touched ih =>
      obtain ⟨path, label⟩ := a
      rw [List.map_cons, List.nodup_cons] at hlabels
      rw [List.flatMap_cons, runOps_append]
      cases hpre : d.files path with
      | none =>
          obtain ⟨dir', hdir', hmanifest, hin, hout⟩ := ih hlabels.2 hdir
          refine ⟨dir', hdir', hmanifest, ?_, fun label' hlabel' => ?_⟩
          · rw [List.forall_mem_cons]
            exact ⟨by simp [hpre, hout label hlabels.1], hin⟩
          · exact hout label' fun hmem => hlabel' (List.mem_cons_of_mem _ hmem)
      | some pre =>
          have hwritten : (FsOp.apply (.tx txId (.writeBackup label pre)) s).tx[txId]? =
              some { dir with backups := dir.backups.insert label pre } := by
            rw [getElem?_apply_tx_self, hdir]
            rfl
          have hother : ∀ label', label' ≠ label →
              (dir.backups.insert label pre)[label']? = dir.backups[label']? := by
            intro label' hne
            rw [Std.ExtTreeMap.getElem?_insert, if_neg]
            exact fun hcmp => hne (Std.LawfulEqCmp.eq_of_compare hcmp).symm
          obtain ⟨dir', hdir', hmanifest, hin, hout⟩ := ih hlabels.2 hwritten
          refine ⟨dir', hdir', hmanifest, ?_, fun label' hlabel' => ?_⟩
          · rw [List.forall_mem_cons]
            refine ⟨by simp [hpre, hout label hlabels.1], fun a ha => ?_⟩
            have hne : a.2 ≠ label := by
              rintro rfl
              exact hlabels.1 (List.mem_map.mpr ⟨a, ha, rfl⟩)
            rw [hin a ha, hother a.2 hne]
          · rw [List.map_cons, List.mem_cons, not_or] at hlabel'
            rw [hout label' hlabel'.2, hother label' hlabel'.1]

/-- The directory of a transaction whose prepared manifest is durable: the digests and the
backups are those of `latest`. -/
structure Armed (latest : RelPath → Option Bytes) (m : Manifest) (dir : TxDir) : Prop where
  manifest : dir.manifest = some m
  digest : ∀ t ∈ m.touched, t.preimageDigest = imageDigest (latest t.rel)
  unposted : ∀ t ∈ m.touched, t.postimageDigest = none
  bounded : ∀ t ∈ m.touched, Bounded (latest t.rel)
  backups : ∀ t ∈ m.touched, dir.backups[t.label]? = latest t.rel

section

variable {latest : RelPath → Option Bytes} {m : Manifest} {name : String} {dir : TxDir}

theorem Armed.restorable (h : Armed latest m dir) (d : Disk) : Restorable latest d dir m :=
  ⟨h.digest, h.unposted, h.bounded, fun t ht data hdata => by rw [← h.backups t ht, hdata],
    Or.inl fun t ht data hdata => by rw [h.backups t ht, hdata]⟩

theorem Armed.pending (h : Armed latest m dir) {d : Disk} (hdir : d.tx[name]? = some dir) :
    Pending latest m name d := by
  refine ⟨fun dir' hdir' => ?_, fun dir' hdir' _ => ?_, fun hnone => ?_⟩
  · rw [hdir] at hdir'
    cases hdir'
    exact Or.inr h.manifest
  · rw [hdir] at hdir'
    cases hdir'
    exact h.restorable d
  · exact absurd h.manifest (hnone dir hdir)

end

variable {env : FsEnv} {vault : String} {d u : Disk} {t : Transaction}

/-- The content of the artifacts after the body. -/
def postimage (d : Disk) (t : Transaction) : RelPath → Option Bytes :=
  (runOps FsOp.apply t.bodyOps d).files

theorem runOps_body {xs : List (RelPath × Option Bytes)} {s s' : Disk} (h : s.files = s'.files) :
    (runOps FsOp.apply (xs.map fun w => .store w.1 w.2) s).files =
      (runOps FsOp.apply (xs.map fun w => .store w.1 w.2) s').files := by
  induction xs generalizing s s' with
  | nil => exact h
  | cons w xs ih =>
      rw [List.map_cons, runOps_cons, runOps_cons]
      apply ih
      rw [apply_store_files, apply_store_files, h]

theorem killed_body {s : Disk} (h : Killed FsOp.apply t.bodyOps s u) : u.tx = s.tx := by
  refine Killed.invariant (I := fun u => u.tx = s.tx) rfl ?_ h
  intro op hop v hv
  obtain ⟨w, -, rfl⟩ := List.mem_map.mp hop
  rw [apply_store_tx, hv]

/-- Up to the manifest, a transaction with a fresh directory changes no artifact and has no
manifest. -/
theorem killed_prepare (hfresh : d.tx[t.txId]? = none)
    (h : Killed FsOp.apply (prepareOps d t) d u) :
    u.files = d.files ∧ (∀ k, k ≠ t.txId → u.tx[k]? = d.tx[k]?) ∧
      ∀ dir, u.tx[t.txId]? = some dir → dir.manifest = none := by
  refine Killed.invariant (I := fun u => u.files = d.files ∧
    (∀ k, k ≠ t.txId → u.tx[k]? = d.tx[k]?) ∧
    ∀ dir, u.tx[t.txId]? = some dir → dir.manifest = none)
    ⟨rfl, fun _ _ => rfl, fun dir hdir => by simp [hfresh] at hdir⟩ ?_ h
  rintro op hop s ⟨hfiles, htx, hnone⟩
  rw [prepareOps, List.mem_cons] at hop
  rcases hop with rfl | hop
  · refine ⟨hfiles, fun k hk => by rw [getElem?_apply_tx_of_ne _ _ hk, htx k hk], ?_⟩
    intro dir hdir
    rw [getElem?_apply_tx_self] at hdir
    cases hs : s.tx[t.txId]? with
    | none =>
        rw [hs] at hdir
        cases hdir
        rfl
    | some dir' =>
        rw [hs] at hdir
        cases hdir
        exact hnone dir' hs
  · obtain ⟨label, data, rfl⟩ := prepareTouched_backups hop
    refine ⟨hfiles, fun k hk => by rw [getElem?_apply_tx_of_ne _ _ hk, htx k hk], ?_⟩
    intro dir hdir
    rw [getElem?_apply_tx_self] at hdir
    cases hs : s.tx[t.txId]? with
    | none =>
        rw [hs] at hdir
        cases hdir
        rfl
    | some dir' =>
        rw [hs] at hdir
        cases hdir
        exact hnone dir' hs

/-- When the preparation loop completes and the manifest is written, the transaction is
armed with the contents from before it. -/
theorem armed_of_prepared (vault : String) (hfresh : d.tx[t.txId]? = none) (hlabels : t.labels.Nodup)
    {entries : List Touched} (h : (prepareTouched d t.txId t.op t.touched).2 = .ok entries) :
    ∃ dir, (FsOp.apply (.tx t.txId (.writeManifest (t.manifest vault entries)))
        (runOps FsOp.apply (prepareOps d t) d)).tx[t.txId]? = some dir ∧
      Armed d.files (t.manifest vault entries) dir := by
  obtain ⟨hentries, hops, hall⟩ := prepareTouched_ok h
  have hmk : (FsOp.apply (.tx t.txId .mkdir) d).tx[t.txId]? = some .empty := by
    rw [getElem?_apply_tx_self, hfresh]
    rfl
  obtain ⟨dir, hdir, -, hin, -⟩ := backups_written (d := d) hlabels hmk
  refine ⟨{ dir with manifest := some (t.manifest vault entries) }, ?_, rfl, ?_, ?_, ?_, ?_⟩
  · rw [getElem?_apply_tx_self, prepareOps, runOps_cons, hops, hdir]
    rfl
  all_goals
    intro e he
    obtain ⟨a, ha, rfl⟩ := List.mem_map.mp (hentries ▸ he)
  · rfl
  · rfl
  · exact (hall a ha).2
  · change dir.backups[a.2]? = d.files a.1
    rw [hin a ha]
    simp [TxDir.empty]

/-- Through the body, a transaction whose preparation completes is armed once its manifest
is written. -/
theorem killed_throughBody (hfresh : d.tx[t.txId]? = none) (hlabels : t.labels.Nodup)
    {entries : List Touched} (h : (prepareTouched d t.txId t.op t.touched).2 = .ok entries)
    (hkill : Killed FsOp.apply (throughBody vault d t entries) d u) :
    (u.files = d.files ∧ ∀ dir, u.tx[t.txId]? = some dir → dir.manifest = none) ∨
      ∃ dir, u.tx[t.txId]? = some dir ∧ Armed d.files (t.manifest vault entries) dir := by
  rcases hkill.append with hkill | hkill
  · obtain ⟨hfiles, -, hnone⟩ := killed_prepare hfresh hkill
    exact Or.inl ⟨hfiles, hnone⟩
  · obtain ⟨hfiles, -, hnone⟩ :=
      killed_prepare hfresh (Killed.full FsOp.apply (prepareOps d t) d)
    rcases Killed.cons_iff.mp hkill with rfl | hkill
    · exact Or.inl ⟨hfiles, hnone⟩
    · obtain ⟨dir, hdir, harmed⟩ := armed_of_prepared vault hfresh hlabels h
      exact Or.inr ⟨dir, by rw [killed_body hkill, hdir], harmed⟩

/-- The disk after the body. -/
theorem after_throughBody (vault : String) (hfresh : d.tx[t.txId]? = none) (hlabels : t.labels.Nodup)
    {entries : List Touched} (h : (prepareTouched d t.txId t.op t.touched).2 = .ok entries) :
    (runOps FsOp.apply (throughBody vault d t entries) d).files = postimage d t ∧
      ∃ dir, (runOps FsOp.apply (throughBody vault d t entries) d).tx[t.txId]? = some dir ∧
        Armed d.files (t.manifest vault entries) dir := by
  obtain ⟨hfiles, -, -⟩ :=
    killed_prepare hfresh (Killed.full FsOp.apply (prepareOps d t) d)
  obtain ⟨dir, hdir, harmed⟩ := armed_of_prepared vault hfresh hlabels h
  rw [throughBody, runOps_append, runOps_cons]
  refine ⟨runOps_body ?_, dir, ?_, harmed⟩
  · rw [apply_tx_files, hfiles]
  · rw [killed_body (Killed.full FsOp.apply t.bodyOps _), hdir]

/-- The manifest entry of one artifact once the postimages are read. -/
def committedEntry (d : Disk) (post : RelPath → Option Bytes) (artifact : RelPath × String) :
    Touched :=
  { preparedEntry d artifact with postimageDigest := some (imageDigest (post artifact.1)) }

/-- The committed manifest. -/
def Transaction.committedManifest (t : Transaction) (vault : String) (d : Disk) : Manifest :=
  { t.manifest vault (t.touched.map (committedEntry d (postimage d t))) with stage := .committed }

theorem finishTouched_ok {s : Disk} {posts : List Touched} (hfiles : s.files = postimage d t)
    (h : finishTouched s t (t.touched.map (preparedEntry d)) = .ok posts) :
    posts = t.touched.map (committedEntry d (postimage d t)) ∧
      ∀ path ∈ t.paths, Bounded (postimage d t path) := by
  unfold finishTouched at h
  split at h
  · cases h
  · have hentry : ∀ e e', finishEntry s t.op e = .ok e' ↔
        (allowedRecoveryPath e.label e.rel t.op = .ok e.rel ∧ Bounded (s.files e.rel)) ∧
          e' = { e with postimageDigest := some (imageDigest (s.files e.rel)) } := by
      intro e e'
      simp only [finishEntry, bind_eq_ok, readImage_ok, pure, Except.pure, Except.ok.injEq]
      constructor
      · rintro ⟨path, hpath, post, ⟨rfl, hbound⟩, rfl⟩
        obtain ⟨rfl, -, -⟩ := allowedRecoveryPath_ok hpath
        exact ⟨⟨hpath, hbound⟩, rfl⟩
      · rintro ⟨⟨hpath, hbound⟩, rfl⟩
        exact ⟨e.rel, hpath, s.files e.rel, ⟨rfl, hbound⟩, rfl⟩
    obtain ⟨hall, rfl⟩ := (mapM_eq_ok hentry).mp h
    rw [hfiles] at hall ⊢
    refine ⟨by rw [List.map_map]; rfl, fun path hpath => ?_⟩
    obtain ⟨a, ha, rfl⟩ := List.mem_map.mp hpath
    exact (hall _ (List.mem_map_of_mem ha)).2

/-- The disk that a kill of a transaction leaves, after the commit or before it. -/
inductive KillCase (vault : String) (d : Disk) (t : Transaction) : Bool → Disk → Prop where
  | unprepared {u : Disk} (files : u.files = d.files)
      (manifest : ∀ dir, u.tx[t.txId]? = some dir → dir.manifest = none) :
      KillCase vault d t false u
  | pending {u : Disk} (entries : List Touched)
      (prepared : (prepareTouched d t.txId t.op t.touched).2 = .ok entries)
      (pending : Pending d.files (t.manifest vault entries) t.txId u) :
      KillCase vault d t false u
  | committed {u : Disk} (prepared : (prepareTouched d t.txId t.op t.touched).2 =
        .ok (t.touched.map (preparedEntry d)))
      (files : u.files = postimage d t)
      (bounded : ∀ path ∈ t.paths, Bounded (postimage d t path))
      (manifest : ∀ dir m, u.tx[t.txId]? = some dir → dir.manifest = some m →
        m = t.committedManifest vault d) :
      KillCase vault d t true u

/-- The commit, from the disk after the body. -/
theorem killed_commit {s : Disk} {m : Manifest} {dir : TxDir} (hdir : s.tx[m.txId]? = some dir)
    (h : Killed FsOp.apply (rmtreeOps env m.txId ((FsOp.apply (.tx m.txId (.writeManifest m)) s).txDir
      m.txId)) (FsOp.apply (.tx m.txId (.writeManifest m)) s) u) :
    u.files = s.files ∧ ∀ dir' m', u.tx[m.txId]? = some dir' → dir'.manifest = some m' → m' = m := by
  have hwritten : (FsOp.apply (.tx m.txId (.writeManifest m)) s).tx[m.txId]? =
      some { dir with manifest := some m } := by
    rw [getElem?_apply_tx_self, hdir]
    rfl
  rw [txDir_eq hwritten] at h
  obtain ⟨hfiles, -, hres⟩ := killed_rmtree hwritten h
  refine ⟨hfiles, fun dir' m' hdir' hm' => ?_⟩
  rcases (hres dir' hdir').1 with hnone | hsame
  · rw [hm'] at hnone
    cases hnone
  · rw [hm'] at hsame
    exact Option.some.inj hsame

theorem commitDurable_false {ops done : List FsOp} (hdone : done ⊆ ops)
    (hops : ∀ op ∈ ops, op.commits t.txId = false) : commitDurable t.txId done = false := by
  rw [commitDurable, List.any_eq_false]
  intro op hop
  simp [hops op (hdone hop)]

theorem throughBody_uncommitted {entries : List Touched} :
    ∀ op ∈ throughBody vault d t entries, op.commits t.txId = false := by
  intro op hop
  rw [throughBody, prepareOps, List.mem_append, List.mem_cons, List.mem_cons] at hop
  rcases hop with (rfl | hop) | rfl | hop
  · rfl
  · obtain ⟨label, data, rfl⟩ := prepareTouched_backups hop
    rfl
  · simp [FsOp.commits, Transaction.manifest]
  · obtain ⟨w, -, rfl⟩ := List.mem_map.mp hop
    rfl

theorem rmtree_uncommitted {name : String} {dir : TxDir} :
    ∀ op ∈ rmtreeOps env name dir, op.commits t.txId = false := by
  intro op hop
  rw [rmtreeOps, List.mem_append, List.mem_map, List.mem_singleton] at hop
  rcases hop with ⟨entry, -, rfl⟩ | rfl
  · cases entry <;> rfl
  · rfl

/-- Every kill point of a transaction with a fresh directory and distinct labels. -/
theorem kill_case {done : List FsOp} (hfresh : d.tx[t.txId]? = none) (hlabels : t.labels.Nodup)
    (h : done <+: (runTransaction env vault d t).ops) :
    KillCase vault d t (commitDurable t.txId done) (runOps FsOp.apply done d) := by
  unfold runTransaction at h
  split at h
  · have hprepare : ∀ op ∈ prepareOps d t, op.commits t.txId = false := by
      intro op hop
      rw [prepareOps, List.mem_cons] at hop
      rcases hop with rfl | hop
      · rfl
      · obtain ⟨label, data, rfl⟩ := prepareTouched_backups hop
        rfl
    obtain ⟨hfiles, -, hnone⟩ := killed_prepare hfresh ⟨done, h, rfl⟩
    rw [commitDurable_false h.subset hprepare]
    exact .unprepared hfiles hnone
  · rename_i entries hentries
    have hbefore : done <+: throughBody vault d t entries →
        KillCase vault d t (commitDurable t.txId done) (runOps FsOp.apply done d) := by
      intro hdone
      rw [commitDurable_false hdone.subset throughBody_uncommitted]
      rcases killed_throughBody hfresh hlabels hentries ⟨done, hdone, rfl⟩ with
        ⟨hfiles, hnone⟩ | ⟨dir, hdir, harmed⟩
      · exact .unprepared hfiles hnone
      · exact .pending entries hentries (harmed.pending hdir)
    obtain ⟨hpost, dir, hdir, harmed⟩ := after_throughBody vault hfresh hlabels hentries
    simp only [txDir_eq hdir] at h
    split at h
    · rename_i posts hposts
      rcases prefix_append_cases h with hdone | ⟨tail, htail, rfl⟩
      · exact hbefore hdone
      · rcases List.prefix_cons_iff.mp htail with rfl | ⟨removed, rfl, hremoved⟩
        · exact hbefore (by simp)
        · obtain ⟨rfl, -, -⟩ := prepareTouched_ok hentries
          obtain ⟨rfl, hbounded⟩ := finishTouched_ok hpost hposts
          have hdurable : commitDurable t.txId (throughBody vault d t (t.touched.map (preparedEntry d)) ++
              .tx t.txId (.writeManifest (t.committedManifest vault d)) :: removed) = true := by
            simp [commitDurable, FsOp.commits, Transaction.committedManifest]
          have hcommit := killed_commit (m := t.committedManifest vault d) hdir
            ⟨removed, hremoved, rfl⟩
          rw [← runOps_cons, ← runOps_append] at hcommit
          have hcase := KillCase.committed hentries (hcommit.1.trans hpost) hbounded hcommit.2
          rw [← hdurable] at hcase
          exact hcase
    · rename_i e _
      have hr := harmed.restorable (runOps FsOp.apply (throughBody vault d t entries) d)
      have hwrites : ∀ op ∈ (rollbackTx dir t.op entries).1, op.commits t.txId = false := by
        intro op hop
        obtain ⟨path, -, rfl⟩ := hr.rollback hop
        rfl
      have hrolling : ∀ tail, tail <+: (rollbackTx dir t.op entries).1 →
          KillCase vault d t (commitDurable t.txId (throughBody vault d t entries ++ tail))
            (runOps FsOp.apply (throughBody vault d t entries ++ tail) d) := by
        intro tail htail
        obtain ⟨htx, -⟩ := killed_restore (fun write => hr.rollback)
          (show Killed FsOp.apply _ (runOps FsOp.apply (throughBody vault d t entries) d) _ from
            ⟨tail, htail, rfl⟩)
        rw [commitDurable, List.any_append, ← commitDurable, ← commitDurable,
          commitDurable_false (List.Subset.refl _) throughBody_uncommitted,
          commitDurable_false htail.subset hwrites, runOps_append]
        exact .pending entries hentries (harmed.pending (htx ▸ hdir))
      split at h
      · rename_i writes hrollback
        have hfst : writes = (rollbackTx dir t.op entries).1 := by rw [hrollback]
        subst hfst
        rcases prefix_append_cases h with hdone | ⟨tail, htail, rfl⟩
        · exact hbefore hdone
        · rcases prefix_append_cases htail with htail | ⟨removed, hremoved, rfl⟩
          · exact hrolling tail htail
          · have htx := (killed_restore (fun write => hr.rollback)
              (Killed.full FsOp.apply (rollbackTx dir t.op entries).1
                (runOps FsOp.apply (throughBody vault d t entries) d))).1
            obtain ⟨hfiles, -, hres⟩ := killed_rmtree (htx ▸ hdir) ⟨removed, hremoved, rfl⟩
            rw [← List.append_assoc, commitDurable, List.any_append, List.any_append,
              ← commitDurable, ← commitDurable, ← commitDurable,
              commitDurable_false (List.Subset.refl _) throughBody_uncommitted,
              commitDurable_false (List.Subset.refl _) hwrites,
              commitDurable_false hremoved.subset rmtree_uncommitted, runOps_append, runOps_append]
            refine .pending entries hentries (hr.pending_of_residue harmed.manifest ?_ hres)
            intro e he
            rw [hfiles]
            exact hr.runOps_rollback (congrArg Prod.snd hrollback) he
      · rename_i writes e' hrollback
        have hfst : writes = (rollbackTx dir t.op entries).1 := by rw [hrollback]
        subst hfst
        rcases prefix_append_cases h with hdone | ⟨tail, htail, rfl⟩
        · exact hbefore hdone
        · exact hrolling tail htail

theorem killed_transaction (hfresh : d.tx[t.txId]? = none) (hlabels : t.labels.Nodup)
    (h : Killed FsOp.apply (runTransaction env vault d t).ops d u) :
    ∃ committed, KillCase vault d t committed u := by
  obtain ⟨done, hdone, rfl⟩ := h
  exact ⟨_, kill_case hfresh hlabels hdone⟩

/-- What a transaction writes: its own directory, the artifacts of its body, and in a
rollback the contents from before it. -/
def TxWrite (d : Disk) (t : Transaction) : FsOp → Prop
  | .tx name _ => name = t.txId
  | .store path content => (path, content) ∈ t.body ∨ path ∈ t.paths ∧ content = d.files path
  | .appendLog _ => False

theorem rmtreeOps_txWrite {op : FsOp} {dir : TxDir} (h : op ∈ rmtreeOps env t.txId dir) :
    TxWrite d t op := by
  rw [rmtreeOps, List.mem_append, List.mem_map, List.mem_singleton] at h
  rcases h with ⟨entry, -, rfl⟩ | rfl
  · rfl
  · rfl

theorem throughBody_txWrite {entries : List Touched} {op : FsOp}
    (h : op ∈ throughBody vault d t entries) : TxWrite d t op := by
  rw [throughBody, prepareOps, List.mem_append, List.mem_cons, List.mem_cons] at h
  rcases h with (rfl | h) | rfl | h
  · rfl
  · obtain ⟨label, data, rfl⟩ := prepareTouched_backups h
    rfl
  · rfl
  · obtain ⟨w, hw, rfl⟩ := List.mem_map.mp h
    exact Or.inl hw

theorem runTransaction_txWrite (hfresh : d.tx[t.txId]? = none) (hlabels : t.labels.Nodup)
    {op : FsOp} (h : op ∈ (runTransaction env vault d t).ops) : TxWrite d t op := by
  unfold runTransaction at h
  split at h
  · rw [prepareOps, List.mem_cons] at h
    rcases h with rfl | h
    · rfl
    · obtain ⟨label, data, rfl⟩ := prepareTouched_backups h
      rfl
  · rename_i entries hentries
    obtain ⟨-, dir, hdir, harmed⟩ := after_throughBody vault hfresh hlabels hentries
    have hrollback : ∀ write ∈ (rollbackTx dir t.op entries).1, TxWrite d t write := by
      intro write hwrite
      obtain ⟨path, hpath, rfl⟩ := (harmed.restorable d).rollback hwrite
      obtain ⟨e, he, rfl⟩ := Manifest.mem_paths.mp hpath
      obtain ⟨a, ha, rfl⟩ := List.mem_map.mp ((prepareTouched_ok hentries).1 ▸ he)
      exact Or.inr ⟨List.mem_map.mpr ⟨a, ha, rfl⟩, rfl⟩
    simp only [txDir_eq hdir] at h
    split at h
    · rcases List.mem_append.mp h with h | h
      · exact throughBody_txWrite h
      · rcases List.mem_cons.mp h with rfl | h
        · rfl
        · exact rmtreeOps_txWrite h
    · split at h
      · rename_i writes heq
        have hfst : writes = (rollbackTx dir t.op entries).1 := by rw [heq]
        subst hfst
        rcases List.mem_append.mp h with h | h
        · exact throughBody_txWrite h
        · rcases List.mem_append.mp h with h | h
          · exact hrollback op h
          · exact rmtreeOps_txWrite h
      · rename_i writes e' heq
        have hfst : writes = (rollbackTx dir t.op entries).1 := by rw [heq]
        subst hfst
        rcases List.mem_append.mp h with h | h
        · exact throughBody_txWrite h
        · exact hrollback op h

/-- A kill leaves every artifact at its old content or at one the body wrote, and the other
directories alone. -/
theorem killed_contents (hfresh : d.tx[t.txId]? = none) (hlabels : t.labels.Nodup)
    (h : Killed FsOp.apply (runTransaction env vault d t).ops d u) :
    (∀ path, u.files path = d.files path ∨ (path, u.files path) ∈ t.body) ∧
      ∀ k, k ≠ t.txId → u.tx[k]? = d.tx[k]? := by
  refine Killed.invariant (I := fun u =>
    (∀ path, u.files path = d.files path ∨ (path, u.files path) ∈ t.body) ∧
      ∀ k, k ≠ t.txId → u.tx[k]? = d.tx[k]?) ⟨fun _ => Or.inl rfl, fun _ _ => rfl⟩ ?_ h
  rintro op hop s ⟨hfiles, htx⟩
  have hwrite := runTransaction_txWrite hfresh hlabels hop
  cases op with
  | tx name op =>
      have hname : name = t.txId := hwrite
      subst hname
      exact ⟨hfiles, fun k hk => by rw [getElem?_apply_tx_of_ne _ _ hk, htx k hk]⟩
  | store path content =>
      refine ⟨fun q => ?_, htx⟩
      rw [apply_store_files]
      by_cases hq : q = path
      · subst hq
        rw [Function.update_self]
        exact hwrite.symm.imp And.right id
      · rw [Function.update_of_ne hq]
        exact hfiles q
  | appendLog record => exact absurd hwrite id

/-- The manifest that a kill leaves names the transaction's artifacts. -/
theorem killed_named (hfresh : d.tx[t.txId]? = none) (hlabels : t.labels.Nodup)
    (hkill : Killed FsOp.apply (runTransaction env vault d t).ops d u) :
    ∀ path ∈ u.named t.txId, path ∈ t.paths := by
  intro path hpath
  cases hm : (u.txDir t.txId).manifest with
  | none => simp [Disk.named, hm] at hpath
  | some m =>
      have hdir := exists_of_txDir_manifest hm
      rw [Disk.named, hm] at hpath
      obtain ⟨e, he, rfl⟩ := Manifest.mem_paths.mp hpath
      obtain ⟨_, hcase⟩ := killed_transaction hfresh hlabels hkill
      cases hcase with
      | unprepared _ hnone => simp [hnone _ hdir] at hm
      | pending entries hentries hpending =>
          obtain ⟨rfl, -, -⟩ := prepareTouched_ok hentries
          cases hm.symm.trans ((hpending.manifest _ hdir).resolve_left (by simp [hm]))
          obtain ⟨a, ha, rfl⟩ := List.mem_map.mp he
          exact List.mem_map_of_mem ha
      | committed _ _ _ hcommitted =>
          cases hcommitted _ m hdir hm
          obtain ⟨a, ha, rfl⟩ := List.mem_map.mp he
          exact List.mem_map_of_mem ha

/-- The prepared manifest names exactly the transaction's artifacts. -/
theorem manifest_paths {entries : List Touched}
    (h : (prepareTouched d t.txId t.op t.touched).2 = .ok entries) :
    (t.manifest vault entries).paths = t.paths := by
  rw [(prepareTouched_ok h).1]
  simp [Transaction.manifest, Manifest.paths, Transaction.paths, preparedEntry]

end PowerFramework.TaskStore
