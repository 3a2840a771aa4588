import PowerFramework.TaskStore.CrashAtomicity
/-!
# Durability across instances

Several instances share one vault.  Steps interleave wherever the writer lock is free, and a
process may be killed between any two file operations.  The ghost `latest` is the content
of every artifact after the last transaction that committed it.
-/

namespace PowerFramework.TaskStore

open Lib.Crash Lib.Failure Lib.Sha256

structure World where
  disk : Disk
  instances : Nat → Option Instance
  holder : Option Nat
  latest : RelPath → Option Bytes

/-- A vault without leftovers, before any instance starts. -/
def World.initial (files : RelPath → Option Bytes) : World :=
  ⟨⟨files, ∅, []⟩, fun _ => none, none, files⟩

inductive Action where
  | start (i : Nat)
  | acquire (i : Nat) (env : FsEnv)
  | killedAcquire (i : Nat) (env : FsEnv) (ops : Nat)
  | recover (i : Nat) (env : FsEnv)
  | transaction (i : Nat) (env : FsEnv) (t : Transaction)
  | killedTransaction (i : Nat) (env : FsEnv) (t : Transaction) (ops : Nat)
  | release (i : Nat)

def World.setInstance (w : World) (i : Nat) (inst : Option Instance) : World :=
  { w with instances := Function.update w.instances i inst }

/-- The first `n` operations of the transaction are performed; a commit among them makes its
postimages the latest contents. -/
def World.perform (vault : String) (env : FsEnv) (t : Transaction) (n : Nat) (w : World) : World :=
  let done := (runTransaction env vault w.disk t).ops.take n
  { w with
    disk := runOps FsOp.apply done w.disk
    latest :=
      if commitDurable t.txId done then fun path =>
        if path ∈ t.paths then postimage w.disk t path else w.latest path
      else w.latest }

/-- The transaction's directory is new, its labels are distinct, and its body leaves the
artifacts it does not name as they are. -/
def Transaction.WellFormed (d : Disk) (t : Transaction) : Prop :=
  d.tx[t.txId]?.isNone = true ∧ t.labels.Nodup ∧ ∀ w ∈ t.body, w.1 ∈ t.paths ∨ w.2 = d.files w.1

instance (d : Disk) (t : Transaction) : Decidable (t.WellFormed d) :=
  inferInstanceAs (Decidable (_ ∧ _ ∧ _))

/-- One step of one instance; `none` where the instance cannot take it. -/
def World.step (vault : String) (w : World) : Action → Option World
  | .start i =>
      match w.instances i with
      | none => some (w.setInstance i (some .fresh))
      | some _ => none
  | .acquire i env =>
      match w.instances i, w.holder with
      | some inst, none =>
          let run := lock env vault w.disk inst
          some { w.setInstance i (some run.inst) with
            disk := runOps FsOp.apply run.ops w.disk
            holder := if run.failure = none then some i else none }
      | _, _ => none
  | .killedAcquire i env n =>
      match w.instances i, w.holder with
      | some inst, none =>
          some { w.setInstance i none with
            disk := runOps FsOp.apply ((lock env vault w.disk inst).ops.take n) w.disk }
      | _, _ => none
  | .recover i env =>
      match w.instances i with
      | some inst =>
          if w.holder = none ∨ w.holder = some i then
            let run := TaskStore.recover env vault w.disk
            some { w.setInstance i (some { inst with
                recoveryBlocked := inst.recoveryBlocked || run.blocked }) with
              disk := runOps FsOp.apply run.ops w.disk }
          else none
      | none => none
  | .transaction i env t =>
      match w.instances i with
      | some inst =>
          if w.holder = some i ∧ inst.recoveryBlocked = false ∧ t.WellFormed w.disk then
            let run := runTransaction env vault w.disk t
            some ((w.perform vault env t run.ops.length).setInstance i
              (some { inst with recoveryBlocked := run.outcome.blocks }))
          else none
      | none => none
  | .killedTransaction i env t n =>
      match w.instances i with
      | some inst =>
          if w.holder = some i ∧ inst.recoveryBlocked = false ∧ t.WellFormed w.disk then
            some { (w.perform vault env t n).setInstance i none with holder := none }
          else none
      | none => none
  | .release i =>
      if w.holder = some i then some { w with holder := none } else none

/-- A transaction is begun only while no prepared leftover names one of its artifacts. -/
def Action.Clear (w : World) : Action → Prop
  | .transaction _ _ t | .killedTransaction _ _ t _ =>
      ∀ name m, (w.disk.txDir name).manifest = some m → m.stage = .prepared →
        ∀ path ∈ t.paths, path ∉ m.paths
  | _ => True

/-- The contents that the action writes are among `S`. -/
def Action.ContentsIn (S : Set Bytes) : Action → Prop
  | .transaction _ _ t | .killedTransaction _ _ t _ => ∀ w ∈ t.body, ImageIn S w.2
  | _ => True

inductive Run (S : Set Bytes) (vault : String) : World → World → Prop where
  | refl (w : World) : Run S vault w w
  | step {w v u : World} (a : Action) : Run S vault w v → a.ContentsIn S → a.Clear v →
      v.step vault a = some u → Run S vault w u

/-- Whatever recovery does from here, complete or killed, an artifact it changes goes to the
content of the last transaction that committed it. -/
def NoUndo (vault : String) (w : World) : Prop :=
  ∀ env u, Killed FsOp.apply (recover env vault w.disk).ops w.disk u →
    ∀ path, u.files path = w.disk.files path ∨ u.files path = w.latest path

variable {S : Set Bytes} {vault : String} {latest : RelPath → Option Bytes} {d u : Disk}

/-- Every prepared leftover is pending for `latest`, and an artifact that none of them names
holds `latest`. -/
structure Durable (S : Set Bytes) (latest : RelPath → Option Bytes) (d : Disk) : Prop where
  known : ∀ path, ImageIn S (d.files path) ∧ ImageIn S (latest path)
  pending : ∀ name m, (d.txDir name).manifest = some m → m.stage = .prepared →
    Pending latest m name d
  settled : ∀ path, (∀ name m, (d.txDir name).manifest = some m → m.stage = .prepared →
    path ∉ m.paths) → d.files path = latest path

theorem txDir_congr {name : String} (h : u.tx[name]? = d.tx[name]?) :
    u.txDir name = d.txDir name := by
  rw [Disk.txDir, h, Disk.txDir]

/-- One directory of a recovery. -/
theorem Durable.step (hS : CollisionFree S) (hd : Durable S latest d) {env : FsEnv}
    {name : String} (h : Killed FsOp.apply (recoverEntry env vault d name).ops d u) :
    Durable S latest u ∧ ∀ path, u.files path = d.files path ∨ u.files path = latest path := by
  by_cases hprep : ∃ m, (d.txDir name).manifest = some m ∧ m.stage = .prepared
  · obtain ⟨m, hm, hstage⟩ := hprep
    obtain ⟨hpending, htoward, htx⟩ := (hd.pending name m hm hstage).step hS hstage
      (fun t _ => (hd.known t.rel).1) (fun t _ => (hd.known t.rel).2) h
    have hpath : ∀ path, u.files path = d.files path ∨ u.files path = latest path :=
      fun path => (htoward path).imp id And.right
    refine ⟨⟨fun path => ⟨?_, (hd.known path).2⟩, fun k m' hm' hstage' => ?_, fun path hfree => ?_⟩,
      hpath⟩
    · rcases hpath path with heq | heq
      · exact heq ▸ (hd.known path).1
      · exact heq ▸ (hd.known path).2
    · by_cases hk : k = name
      · subst hk
        have hsame := (hpending.manifest _ (exists_of_txDir_manifest hm')).resolve_left
          (by simp [hm'])
        cases hm'.symm.trans hsame
        exact hpending
      · rw [txDir_congr (htx k hk)] at hm'
        exact (hd.pending k m' hm' hstage').toward (htx k hk) htoward
    · by_cases hmem : path ∈ m.paths
      · obtain ⟨t, ht, rfl⟩ := Manifest.mem_paths.mp hmem
        refine hpending.restored (fun dir hdir hdm => ?_) t ht
        exact hfree name m (by rw [txDir_eq hdir, hdm]) hstage hmem
      · refine htoward.latest_eq (hd.settled path fun k m' hm' hstage' => ?_)
        by_cases hk : k = name
        · subst hk
          cases hm.symm.trans hm'
          exact hmem
        · exact hfree k m' (by rw [txDir_congr (htx k hk), hm']) hstage'
  · have hidle : ∀ dir m, d.tx[name]? = some dir → dir.manifest = some m → m.stage = .committed := by
      intro dir m hdir hm
      cases hstage : m.stage with
      | committed => rfl
      | prepared => exact absurd ⟨m, by rw [txDir_eq hdir, hm], hstage⟩ hprep
    obtain ⟨hfiles, htx, hidle'⟩ := recoverEntry_idle hidle h
    have hback : ∀ k m, (u.txDir k).manifest = some m → m.stage = .prepared →
        k ≠ name ∧ (d.txDir k).manifest = some m := by
      intro k m hm hstage
      have hk : k ≠ name := by
        rintro rfl
        rw [hidle' _ m (exists_of_txDir_manifest hm) hm] at hstage
        cases hstage
      exact ⟨hk, by rw [← txDir_congr (htx k hk), hm]⟩
    have htoward : Toward latest [] d u := fun path => Or.inl (by rw [hfiles])
    refine ⟨⟨fun path => hfiles ▸ hd.known path, fun k m hm hstage => ?_, fun path hfree => ?_⟩,
      fun path => Or.inl (by rw [hfiles])⟩
    · obtain ⟨hk, hm'⟩ := hback k m hm hstage
      exact (hd.pending k m hm' hstage).toward (htx k hk) htoward
    · rw [hfiles]
      refine hd.settled path fun k m hm hstage => ?_
      by_cases hk : k = name
      · subst hk
        exact absurd ⟨m, hm, hstage⟩ hprep
      · exact hfree k m (by rw [txDir_congr (htx k hk), hm]) hstage

theorem Durable.recover (hS : CollisionFree S) (hd : Durable S latest d) {env : FsEnv}
    (h : Killed FsOp.apply (recover env vault d).ops d u) :
    Durable S latest u ∧ ∀ path, u.files path = d.files path ∨ u.files path = latest path := by
  refine recover_invariant (I := fun u => Durable S latest u ∧
    ∀ path, u.files path = d.files path ∨ u.files path = latest path) ?_
    ⟨hd, fun _ => Or.inl rfl⟩ h
  rintro name v u ⟨hv, htoward⟩ hkill
  obtain ⟨hu, hpath⟩ := hv.step hS hkill
  refine ⟨hu, fun path => ?_⟩
  rcases hpath path with heq | heq
  · rw [heq]
    exact htoward path
  · exact Or.inr heq

theorem Pending.congr {latest' : RelPath → Option Bytes} {m : Manifest} {name : String}
    (hp : Pending latest m name d) (h : ∀ t ∈ m.touched, latest t.rel = latest' t.rel) :
    Pending latest' m name d := by
  refine ⟨hp.manifest, fun dir hdir hm => ?_, fun hnone t ht => ?_⟩
  · have hr := hp.restorable dir hdir hm
    refine ⟨fun t ht => ?_, hr.unposted, fun t ht => ?_, fun t ht data hdata => ?_, ?_⟩
    · rw [hr.digest t ht, h t ht]
    · rw [← h t ht]
      exact hr.bounded t ht
    · rw [← h t ht]
      exact hr.sound t ht data hdata
    · refine hr.covered.imp (fun hall t ht data hdata => ?_) fun hall t ht => ?_
      · exact hall t ht data (by rw [h t ht, hdata])
      · rw [← h t ht, hall t ht]
  · rw [← h t ht]
    exact hp.restored hnone t ht

section

variable {env : FsEnv} {t : Transaction} {done : List FsOp}

/-- A transaction begun over no prepared leftover of its artifacts, performed up to any of
its operations. -/
theorem Durable.perform (hd : Durable S latest d) (hwf : t.WellFormed d)
    (hbody : ∀ w ∈ t.body, ImageIn S w.2)
    (hclear : ∀ name m, (d.txDir name).manifest = some m → m.stage = .prepared →
      ∀ path ∈ t.paths, path ∉ m.paths)
    (hdone : done <+: (runTransaction env vault d t).ops) :
    Durable S (if commitDurable t.txId done then fun path =>
        if path ∈ t.paths then postimage d t path else latest path else latest)
      (runOps FsOp.apply done d) := by
  obtain ⟨hnew, hlabels, hwithin⟩ := hwf
  have hfresh : d.tx[t.txId]? = none := Option.isNone_iff_eq_none.mp hnew
  have hkill : Killed FsOp.apply (runTransaction env vault d t).ops d (runOps FsOp.apply done d) :=
    ⟨done, hdone, rfl⟩
  obtain ⟨hcontents, htx⟩ := killed_contents hfresh hlabels hkill
  have hcase := kill_case hfresh hlabels hdone
  have hown := killed_named hfresh hlabels hkill
  generalize runOps FsOp.apply done d = u at hcontents htx hcase hown
  have hout : ∀ path, path ∉ t.paths → u.files path = d.files path := by
    intro path hpath
    rcases hcontents path with heq | hmem
    · exact heq
    · exact (hwithin _ hmem).resolve_left hpath
  have hin : ∀ path ∈ t.paths, d.files path = latest path := fun path hpath =>
    hd.settled path fun name m hm hstage => hclear name m hm hstage path hpath
  have hknown : ∀ path, ImageIn S (u.files path) := by
    intro path
    rcases hcontents path with heq | hmem
    · exact heq ▸ (hd.known path).1
    · exact hbody _ hmem
  have hother : ∀ name m, name ≠ t.txId → (u.txDir name).manifest = some m → m.stage = .prepared →
      (d.txDir name).manifest = some m ∧ Pending latest m name u := by
    intro name m hname hm hstage
    rw [txDir_congr (htx name hname)] at hm
    refine ⟨hm, (hd.pending name m hm hstage).keep (htx name hname) fun e he hfile => ?_⟩
    have hmem : e.rel ∈ m.paths := Manifest.mem_paths.mpr ⟨e, he, rfl⟩
    rw [hout e.rel fun hpath => hclear name m hm hstage e.rel hpath hmem, hfile]
  have hfree : ∀ path, path ∉ t.paths → (∀ name m, (u.txDir name).manifest = some m →
      m.stage = .prepared → path ∉ m.paths) → u.files path = latest path := by
    intro path hpath hnone
    rw [hout path hpath]
    refine hd.settled path fun name m hm hstage => ?_
    by_cases hname : name = t.txId
    · subst hname
      simp [Disk.txDir, hfresh, TxDir.empty] at hm
    · exact hnone name m (by rw [txDir_congr (htx name hname), hm]) hstage
  generalize commitDurable t.txId done = committed at hcase ⊢
  cases hcase with
  | unprepared hfiles hnone =>
      refine ⟨fun path => ⟨hknown path, (hd.known path).2⟩, fun name m hm hstage => ?_,
        fun path hnamed => ?_⟩
      · by_cases hname : name = t.txId
        · subst hname
          simp [hnone _ (exists_of_txDir_manifest hm)] at hm
        · exact (hother name m hname hm hstage).2
      · by_cases hpath : path ∈ t.paths
        · rw [hfiles]
          exact hin path hpath
        · exact hfree path hpath hnamed
  | pending entries hentries hpending =>
      have hpaths : (t.manifest vault entries).paths = t.paths := manifest_paths hentries
      have hpending' : Pending latest (t.manifest vault entries) t.txId u :=
        hpending.congr fun e he => hin e.rel (hpaths ▸ Manifest.mem_paths.mpr ⟨e, he, rfl⟩)
      refine ⟨fun path => ⟨hknown path, (hd.known path).2⟩, fun name m hm hstage => ?_,
        fun path hnamed => ?_⟩
      · by_cases hname : name = t.txId
        · subst hname
          cases hm.symm.trans ((hpending.manifest _ (exists_of_txDir_manifest hm)).resolve_left
            (by simp [hm]))
          exact hpending'
        · exact (hother name m hname hm hstage).2
      · by_cases hpath : path ∈ t.paths
        · obtain ⟨e, he, rfl⟩ := Manifest.mem_paths.mp (hpaths ▸ hpath)
          refine hpending'.restored (fun dir hdir hdm => ?_) e he
          exact hnamed t.txId _ (by rw [txDir_eq hdir, hdm]) rfl (hpaths ▸ hpath)
        · exact hfree path hpath hnamed
  | committed hentries hfiles hbounded hcommitted =>
      refine ⟨fun path => ⟨hknown path, ?_⟩, fun name m hm hstage => ?_, fun path hnamed => ?_⟩
      · by_cases hpath : path ∈ t.paths
        · simp only [if_true, if_pos hpath, ← hfiles]
          exact hknown path
        · simp only [if_true, if_neg hpath]
          exact (hd.known path).2
      · by_cases hname : name = t.txId
        · subst hname
          rw [hcommitted _ m (exists_of_txDir_manifest hm) hm] at hstage
          cases hstage
        · obtain ⟨hm', hpending⟩ := hother name m hname hm hstage
          refine hpending.congr fun e he => ?_
          have hmem : e.rel ∈ m.paths := Manifest.mem_paths.mpr ⟨e, he, rfl⟩
          simp only [if_true, if_neg fun hpath => hclear name m hm' hstage e.rel hpath hmem]
      · by_cases hpath : path ∈ t.paths
        · simp only [if_true, if_pos hpath, hfiles]
        · simp only [if_true, if_neg hpath]
          exact hfree path hpath hnamed

end

theorem lock_killed (env : FsEnv) (vault : String) (d : Disk) (inst : Instance) (n : Nat) :
    Killed FsOp.apply (recover env vault d).ops d
      (runOps FsOp.apply ((lock env vault d inst).ops.take n) d) := by
  have hops : (lock env vault d inst).ops = [] ∨
      (lock env vault d inst).ops = (recover env vault d).ops := by
    unfold lock
    split
    · exact Or.inl rfl
    · split
      · exact Or.inl rfl
      · right
        simp only
        split <;> rfl
  rcases hops with hnil | hall
  · rw [hnil, List.take_nil]
    exact Killed.refl FsOp.apply _ d
  · rw [hall]
    exact ⟨_, List.take_prefix n _, rfl⟩

/-- Every step that meets the condition keeps the vault durable. -/
theorem World.step_durable (hS : CollisionFree S) {v w : World} {a : Action}
    (hv : Durable S v.latest v.disk) (hcontents : a.ContentsIn S) (hclear : a.Clear v)
    (h : v.step vault a = some w) : Durable S w.latest w.disk := by
  cases a with
  | start i =>
      simp only [World.step] at h
      split at h
      · cases h
        exact hv
      · cases h
  | acquire i env =>
      simp only [World.step] at h
      split at h
      · rename_i inst _ _
        cases h
        have hkill := lock_killed env vault v.disk inst
          (lock env vault v.disk inst).ops.length
        rw [List.take_length] at hkill
        exact (hv.recover hS hkill).1
      · cases h
  | killedAcquire i env n =>
      simp only [World.step] at h
      split at h
      · cases h
        exact (hv.recover hS (lock_killed env vault v.disk _ n)).1
      · cases h
  | recover i env =>
      simp only [World.step] at h
      split at h
      · split at h
        · cases h
          exact (hv.recover hS (Killed.full FsOp.apply _ _)).1
        · cases h
      · cases h
  | transaction i env t =>
      simp only [World.step] at h
      split at h
      · split at h
        · rename_i hguard
          cases h
          exact hv.perform hguard.2.2 hcontents hclear (List.take_prefix _ _)
        · cases h
      · cases h
  | killedTransaction i env t n =>
      simp only [World.step] at h
      split at h
      · split at h
        · rename_i hguard
          cases h
          exact hv.perform hguard.2.2 hcontents hclear (List.take_prefix _ _)
        · cases h
      · cases h
  | release i =>
      simp only [World.step] at h
      split at h
      · cases h
        exact hv
      · cases h

theorem Run.durable (hS : CollisionFree S) {v w : World} (hv : Durable S v.latest v.disk)
    (h : Run S vault v w) : Durable S w.latest w.disk := by
  induction h with
  | refl => exact hv
  | step a _ hcontents hclear hstep ih => exact World.step_durable hS ih hcontents hclear hstep

theorem initial_durable {files : RelPath → Option Bytes} (h : ∀ path, ImageIn S (files path)) :
    Durable S (World.initial files).latest (World.initial files).disk := by
  have hnone : ∀ name, ((World.initial files).disk.txDir name).manifest = none := by
    intro name
    simp [Disk.txDir, World.initial, TxDir.empty]
  refine ⟨fun path => ⟨h path, h path⟩, fun name m hm => ?_, fun _ _ => rfl⟩
  rw [hnone name] at hm
  cases hm

/-- In every run whose transactions are each begun over no prepared leftover of their
artifacts, recovery never takes an artifact back behind its last commit. -/
theorem no_undo (hS : CollisionFree S) {files : RelPath → Option Bytes} {w : World}
    (hfiles : ∀ path, ImageIn S (files path)) (hrun : Run S vault (World.initial files) w) :
    NoUndo vault w := by
  intro env u hkill
  exact ((hrun.durable hS (initial_durable hfiles)).recover hS hkill).2

/-- Instance 0 recovers, and dies inside its transaction after the write of its body. -/
def sampleRun : List Action :=
  [.start 0, .acquire 0 .ordered, .killedTransaction 0 .ordered sampleTransaction 4]

/-- The actions in order; `none` once one of them cannot be taken. -/
def World.steps (vault : String) (w : World) : List Action → Option World
  | [] => some w
  | a :: rest => (w.step vault a).bind fun v => v.steps vault rest

theorem no_undo_sample : ∃ w, (World.initial sampleVault.files).steps "/vault" sampleRun = some w ∧
    NoUndo "/vault" w := by
  refine ⟨_, rfl, no_undo sample_collisionFree sample_files ?_⟩
  refine .step (.killedTransaction 0 .ordered sampleTransaction 4)
    (.step (.acquire 0 .ordered) (.step (.start 0) (.refl _) trivial trivial rfl) trivial trivial rfl)
    sample_body ?_ rfl
  intro name m hm
  have hops : (lock .ordered "/vault" ⟨sampleVault.files, ∅, []⟩ .fresh).ops = [] := rfl
  exact absurd hm (by simp [Disk.txDir, World.setInstance, hops, World.initial, TxDir.empty])

/-- A second transaction on the sample's artifact. -/
def laterTransaction : Transaction :=
  { sampleTransaction with txId := "1f", body := [(sampleFile, some [3])] }

/-- Instance 0 has recovered; instance 1 dies inside a transaction; instance 0 commits over
its leftover; the next recovery takes the committed content back. -/
def undoneRun : List Action :=
  [.start 0, .acquire 0 .ordered, .release 0, .start 1, .acquire 1 .ordered,
    .killedTransaction 1 .ordered sampleTransaction 3, .acquire 0 .ordered,
    .transaction 0 .ordered laterTransaction, .release 0]

theorem undoneRun_contents :
    ((World.initial sampleVault.files).steps "/vault" undoneRun).map
      (fun w => (w.disk.files sampleFile, w.latest sampleFile,
        (afterRecover .ordered "/vault" w.disk).files sampleFile)) =
      some (some [3], some [3], some [1]) := by
  decide +kernel

theorem commit_undone : ∃ w, (World.initial sampleVault.files).steps "/vault" undoneRun = some w ∧
    ¬ NoUndo "/vault" w := by
  obtain ⟨w, hw, hcontents⟩ := Option.map_eq_some_iff.mp undoneRun_contents
  simp only [Prod.mk.injEq] at hcontents
  obtain ⟨hfile, hlatest, hrecovered⟩ := hcontents
  refine ⟨w, hw, fun hsafe => ?_⟩
  have hpath := hsafe .ordered (afterRecover .ordered "/vault" w.disk)
    (Killed.full FsOp.apply (recover .ordered "/vault" w.disk).ops w.disk) sampleFile
  rw [hrecovered, hfile, hlatest] at hpath
  simp at hpath

end PowerFramework.TaskStore
