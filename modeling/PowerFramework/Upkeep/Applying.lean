import PowerFramework.Upkeep.Maintenance
/-!
# Applying maintenance plans

A plan that fails at an action leaves every file as it was: each copy goes to a fresh path, so that
restoring them from the last to the first undoes the writes.  A plan that is applied to the vault it
was made for goes through exactly when no note it touches has line ends that reading it changes
(`maintenance_iff`): the plan is bound to the text that was read, and the precondition looks at the
bytes.
-/

namespace PowerFramework.Upkeep

open Lib Lib.Failure TaskStore
open Memory (decodeText encodeText)

/-! ## Rolling back -/

section
variable {files other initial : VaultFiles} {key target backup : RelPath} {data : Bytes}
  {pairs : List (RelPath × RelPath)}

/-- A file that is neither restored nor a copy makes no difference. -/
theorem rollBack_congr (hsame : ∀ rel, rel ≠ key → files.lookup rel = other.lookup rel)
    (hpairs : ∀ pair ∈ pairs, pair.1 ≠ key ∧ pair.2 ≠ key) :
    (rollBack pairs files).2 = (rollBack pairs other).2 ∧
      ∀ rel, rel ≠ key →
        (rollBack pairs files).1.lookup rel = (rollBack pairs other).1.lookup rel := by
  induction pairs generalizing files other with
  | nil => exact ⟨rfl, hsame⟩
  | cons pair pairs ih =>
    obtain ⟨target, backup⟩ := pair
    rw [List.forall_mem_cons] at hpairs
    unfold rollBack
    rw [hsame backup hpairs.1.2]
    cases other.lookup backup with
    | none => exact ⟨rfl, hsame⟩
    | some data =>
      apply ih ?_ hpairs.2
      intro rel hrel
      by_cases htarget : rel = target
      · rw [htarget, AList.lookup_insert, AList.lookup_insert]
      · rw [AList.lookup_insert_ne htarget, AList.lookup_insert_ne htarget]
        exact hsame rel hrel

theorem lookup_ne_none : files.lookup key ≠ none ↔ key ∈ files := by
  rw [ne_eq, AList.lookup_eq_none, not_not]

/-- The copies made so far undo the writes made so far. -/
structure Undoable (initial : VaultFiles) (s : Applying) : Prop where
  kept : ∀ rel ∈ initial, rel ∈ s.files
  copied : ∀ pair ∈ s.backups, pair.1 ∈ initial ∧ pair.2 ∉ initial ∧ pair.2 ∈ s.files
  restored : (rollBack s.backups.reverse s.files).2 = none ∧
    ∀ rel ∈ initial, (rollBack s.backups.reverse s.files).1.lookup rel = initial.lookup rel

theorem Undoable.start (files : VaultFiles) : Undoable files ⟨files, [], []⟩ :=
  ⟨fun _ h => h, by simp, rfl, fun _ _ => rfl⟩

/-- A file at a fresh path makes no difference. -/
theorem Undoable.insert {s : Applying} (h : Undoable initial s) (hfresh : key ∉ s.files) :
    Undoable initial { s with files := s.files.insert key data } := by
  have hpairs : ∀ pair ∈ s.backups.reverse, pair.1 ≠ key ∧ pair.2 ≠ key := by
    intro pair hpair
    obtain ⟨htarget, -, hbackup⟩ := h.copied pair (List.mem_reverse.mp hpair)
    exact ⟨fun heq => hfresh (heq ▸ h.kept _ htarget), fun heq => hfresh (heq ▸ hbackup)⟩
  have hsame : ∀ rel, rel ≠ key → (s.files.insert key data).lookup rel = s.files.lookup rel :=
    fun rel hrel => AList.lookup_insert_ne hrel
  obtain ⟨hnone, hrolled⟩ := rollBack_congr hsame hpairs
  refine ⟨fun rel hrel => ?_, fun pair hpair => ?_, ?_, fun rel hrel => ?_⟩
  · exact (AList.mem_insert _).mpr (.inr (h.kept rel hrel))
  · obtain ⟨htarget, hbackup, hmem⟩ := h.copied pair hpair
    exact ⟨htarget, hbackup, (AList.mem_insert _).mpr (.inr hmem)⟩
  · exact hnone.trans h.restored.1
  · have hne : rel ≠ key := fun heq => hfresh (heq ▸ h.kept rel hrel)
    exact (hrolled rel hne).trans (h.restored.2 rel hrel)

/-- A copy at a fresh path undoes whatever becomes of its source. -/
theorem Undoable.copy {s : Applying} (h : Undoable initial s) (hfresh : backup ∉ s.files)
    (htarget : target ∈ initial) (hdata : s.files.lookup target = some data)
    {files : VaultFiles} {applied : List String} (hmem : target ∈ files)
    (hbackup : files.lookup backup = some data)
    (hother : ∀ rel, rel ≠ target → rel ≠ backup → files.lookup rel = s.files.lookup rel) :
    Undoable initial ⟨files, s.backups ++ [(target, backup)], applied⟩ := by
  have hpairs : ∀ pair ∈ s.backups.reverse, pair.1 ≠ backup ∧ pair.2 ≠ backup := by
    intro pair hpair
    obtain ⟨htarget, -, hcopy⟩ := h.copied pair (List.mem_reverse.mp hpair)
    exact ⟨fun heq => hfresh (heq ▸ h.kept _ htarget), fun heq => hfresh (heq ▸ hcopy)⟩
  have hsame : ∀ rel, rel ≠ backup →
      (files.insert target data).lookup rel = s.files.lookup rel := by
    intro rel hrel
    by_cases heq : rel = target
    · rw [heq, AList.lookup_insert, hdata]
    · rw [AList.lookup_insert_ne heq, hother rel heq hrel]
  have hroll : rollBack (s.backups ++ [(target, backup)]).reverse files =
      rollBack s.backups.reverse (files.insert target data) := by
    rw [List.reverse_append, List.reverse_singleton, List.singleton_append, rollBack, hbackup]
  have hkept : ∀ rel ∈ s.files, rel ∈ files := by
    intro rel hrel
    by_cases heq : rel = target
    · exact heq ▸ hmem
    · have hne : rel ≠ backup := fun heq => hfresh (heq ▸ hrel)
      rw [← lookup_ne_none, hother rel heq hne]
      exact lookup_ne_none.mpr hrel
  obtain ⟨hnone, hrolled⟩ := rollBack_congr hsame hpairs
  refine ⟨fun rel hrel => hkept rel (h.kept rel hrel), fun pair hpair => ?_, ?_,
    fun rel hrel => ?_⟩
  · rcases List.mem_append.mp hpair with hpair | hpair
    · obtain ⟨htarget, hbackup, hmem⟩ := h.copied pair hpair
      exact ⟨htarget, hbackup, hkept _ hmem⟩
    · rw [List.mem_singleton] at hpair
      rw [hpair]
      exact ⟨htarget, fun hin => hfresh (h.kept _ hin),
        lookup_ne_none.mp (by rw [hbackup]; exact Option.some_ne_none _)⟩
  · show (rollBack (s.backups ++ [(target, backup)]).reverse files).2 = none
    rw [hroll]
    exact hnone.trans h.restored.1
  · have hne : rel ≠ backup := fun heq => hfresh (heq ▸ h.kept rel hrel)
    show (rollBack (s.backups ++ [(target, backup)]).reverse files).1.lookup rel = _
    rw [hroll, hrolled rel hne]
    exact h.restored.2 rel hrel

end

/-! ## Actions -/

section
variable {root : List String} {turn : Turn} {turns : Stream' Turn} {files initial : VaultFiles}
  {action : MaintenanceAction} {actions : List MaintenanceAction} {target : RelPath} {data : Bytes}
  {healed : String} {s next : Applying} {exn : Exn}

theorem readBytes_eq_ok {rel : RelPath} : readBytes files rel = .ok data ↔
    files.lookup rel = some data := by
  unfold readBytes
  cases files.lookup rel <;> simp

theorem verifyPreconditions_ok_iff : verifyPreconditions root files actions = .ok () ↔
    ∀ action ∈ actions, ∃ target data, insideVault root action.path = .ok target ∧
      files.lookup target = some data ∧ Sha256.hexdigest data = action.beforeSha256 := by
  unfold verifyPreconditions
  rw [forM_eq_ok]
  apply forall₂_congr
  intro action _
  rw [bind_eq_ok]
  apply exists_congr
  intro target
  cases hdata : files.lookup target with
  | none => simp
  | some data => simp

variable [PythonClock]

/-- The copy goes to a fresh path. -/
theorem backupPath_not_mem (files : VaultFiles) (target : RelPath) (now : Int) :
    backupPath files target now ∉ files := by
  intro hmem
  have hname : fileName (backupPath files target now) ∈
      namesIn files (target.dropLast ++ [".backups"]) := by
    refine List.mem_filterMap.mpr ⟨_, AList.mem_keys.mp hmem, ?_⟩
    unfold backupPath fileName
    simp
  unfold backupPath fileName at hname
  simp only [List.getLast?_append, List.getLast?_singleton, Option.some_or,
    Option.getD_some] at hname
  exact freshName_not_mem _ _ _ _ hname

variable [Healer]

omit [PythonClock] in
theorem prepare_ok (h : prepare root turn files action = .ok (target, data, healed)) :
    insideVault root action.path = .ok target ∧ files.lookup target = some data := by
  unfold prepare at h
  obtain ⟨target', htarget, h⟩ := bind_eq_ok.mp h
  cases hread : turn.read with
  | some exn =>
    rw [hread] at h
    cases h
  | none =>
    rw [hread] at h
    obtain ⟨data', hdata, h⟩ := bind_eq_ok.mp h
    obtain ⟨content, -, h⟩ := bind_eq_ok.mp h
    obtain ⟨now, -, h⟩ := bind_eq_ok.mp h
    obtain ⟨⟨healed', changes⟩, -, h⟩ := bind_eq_ok.mp h
    obtain ⟨_, -, h⟩ := bind_eq_ok.mp h
    cases h
    exact ⟨htarget, readBytes_eq_ok.mp hdata⟩

/-- Whatever goes wrong at an action, the copies undo it. -/
theorem Undoable.applyAction (h : Undoable initial s)
    (htarget : ∀ target, insideVault root action.path = .ok target → target ∈ initial) :
    Undoable initial (applyAction root turn action s).1 := by
  unfold Upkeep.applyAction
  cases hprepare : prepare root turn s.files action with
  | error exn => exact h
  | ok prepared =>
    obtain ⟨target, data, healed⟩ := prepared
    obtain ⟨hinside, hdata⟩ := prepare_ok hprepare
    have hmem := htarget target hinside
    have hfresh := backupPath_not_mem s.files target turn.now
    have hne : target ≠ backupPath s.files target turn.now :=
      fun heq => hfresh (heq ▸ h.kept _ hmem)
    cases turn.backup with
    | some fault =>
      obtain ⟨exn, left⟩ := fault
      cases left with
      | none => exact h
      | some part => exact h.insert hfresh
    | none =>
      cases turn.write with
      | some exn =>
        refine h.copy hfresh hmem hdata ?_ (AList.lookup_insert _) ?_
        · exact (AList.mem_insert _).mpr (.inr (h.kept _ hmem))
        · exact fun rel _ hrel => AList.lookup_insert_ne hrel
      | none =>
        refine h.copy hfresh hmem hdata ((AList.mem_insert _).mpr (.inl rfl)) ?_ ?_
        · rw [AList.lookup_insert_ne hne.symm, AList.lookup_insert]
        · intro rel htarget hrel
          rw [AList.lookup_insert_ne htarget, AList.lookup_insert_ne hrel]

theorem Undoable.applyActions (h : Undoable initial s)
    (htarget : ∀ action ∈ actions, ∀ target, insideVault root action.path = .ok target →
      target ∈ initial) :
    Undoable initial (applyActions root turns actions s).1 := by
  induction actions generalizing turns s with
  | nil => exact h
  | cons action actions ih =>
    rw [List.forall_mem_cons] at htarget
    have hstep : Undoable initial (Upkeep.applyAction root turns.head action s).1 :=
      h.applyAction htarget.1
    unfold Upkeep.applyActions
    cases hresult : Upkeep.applyAction root turns.head action s with
    | mk next failure =>
      rw [hresult] at hstep
      cases failure with
      | some exn => exact hstep
      | none => exact ih hstep htarget.2

end

/-! ## Calls that raise -/

section
variable [PythonClock] [Healer] {vault : Vault} {plan : MaintenancePlan} {approved : Bool}
  {turns : Stream' Turn} {s : Applying}

/-- The plan is for this vault and approved, its actions are automatic ones, and the files are those
that it was made for. -/
structure Admitted (vault : Vault) (plan : MaintenancePlan) (approved : Bool) : Prop where
  same : vault.text = plan.vault
  approved : approved = true
  automatic : ∀ action ∈ plan.actions, action.actionClass = .safeAuto
  verified : verifyPreconditions vault.root vault.files plan.actions = .ok ()

omit [PythonClock] [Healer] in
theorem admitPlan_ok_iff : admitPlan vault plan approved = .ok () ↔ Admitted vault plan approved := by
  have hautomatic : (¬ ∃ action ∈ plan.actions, action.actionClass ≠ .safeAuto) ↔
      ∀ action ∈ plan.actions, action.actionClass = .safeAuto := by simp
  unfold admitPlan
  simp only [bind_eq_ok, raiseIf_eq_ok, hautomatic, exists_const, not_not, Bool.not_eq_false]
  constructor
  · rintro ⟨hsame, happroved, hsafe, hverified⟩
    exact ⟨hsame, happroved, hsafe, hverified⟩
  · rintro ⟨hsame, happroved, hsafe, hverified⟩
    exact ⟨hsame, happroved, hsafe, hverified⟩

theorem applyMaintenancePlan_of_not (h : ¬ Admitted vault plan approved) :
    ∃ exn, applyMaintenancePlan vault plan approved turns = (vault.files, .error exn) := by
  unfold applyMaintenancePlan
  cases hadmit : admitPlan vault plan approved with
  | error exn => exact ⟨exn, rfl⟩
  | ok _ => exact absurd (admitPlan_ok_iff.mp hadmit) h

theorem applyMaintenancePlan_none (h : Admitted vault plan approved)
    (hrun : applyActions vault.root turns plan.actions ⟨vault.files, [], []⟩ = (s, none)) :
    ∃ receipt, applyMaintenancePlan vault plan approved turns = (s.files, .ok receipt) := by
  unfold applyMaintenancePlan
  rw [admitPlan_ok_iff.mpr h, hrun]
  exact ⟨_, rfl⟩

theorem applyMaintenancePlan_some {exn : Exn} (h : Admitted vault plan approved)
    (hrun : applyActions vault.root turns plan.actions ⟨vault.files, [], []⟩ = (s, some exn)) :
    (applyMaintenancePlan vault plan approved turns).1 =
      (rollBack s.backups.reverse s.files).1 := by
  unfold applyMaintenancePlan
  rw [admitPlan_ok_iff.mpr h, hrun]

omit [PythonClock] [Healer] in
/-- The targets of an admitted plan are files of the vault. -/
theorem Admitted.target_mem (h : Admitted vault plan approved) :
    ∀ action ∈ plan.actions, ∀ target, insideVault vault.root action.path = .ok target →
      target ∈ vault.files := by
  intro action haction target htarget
  obtain ⟨target', data, htarget', hdata, -⟩ :=
    verifyPreconditions_ok_iff.mp h.verified action haction
  rw [htarget] at htarget'
  cases htarget'
  exact lookup_ne_none.mp (by rw [hdata]; exact Option.some_ne_none _)

/-- A call that raises leaves every file with the bytes it had. -/
def Atomic (vault : Vault) : Prop :=
  ∀ plan approved turns files exn,
    applyMaintenancePlan vault plan approved turns = (files, .error exn) →
      ∀ rel ∈ vault.files, files.lookup rel = vault.files.lookup rel

theorem applyMaintenancePlan_atomic (vault : Vault) : Atomic vault := by
  intro plan approved turns files exn h rel hrel
  by_cases hadmitted : Admitted vault plan approved
  · have hundoable : Undoable vault.files
        (applyActions vault.root turns plan.actions ⟨vault.files, [], []⟩).1 :=
      (Undoable.start vault.files).applyActions hadmitted.target_mem
    cases hrun : applyActions vault.root turns plan.actions ⟨vault.files, [], []⟩ with
    | mk s failure =>
      rw [hrun] at hundoable
      cases failure with
      | none =>
        obtain ⟨receipt, hok⟩ := applyMaintenancePlan_none hadmitted hrun
        rw [hok] at h
        cases h
      | some fault =>
        have hfiles := applyMaintenancePlan_some hadmitted hrun
        rw [h] at hfiles
        show files.lookup rel = _
        rw [show files = _ from hfiles]
        exact hundoable.restored.2 rel hrel
  · obtain ⟨other, hother⟩ := @applyMaintenancePlan_of_not _ _ _ _ _ turns hadmitted
    rw [hother] at h
    cases h
    rfl

end

/-! ## Plans for a vault as it is -/

section
variable [Healer] {root : List String} {turn : Turn} {turns : Stream' Turn} {files : VaultFiles}
  {action : MaintenanceAction} {actions : List MaintenanceAction} {rel : RelPath} {data : Bytes}
  {content healed : String} {changes : List String} {s : Applying} {plannedAt : Int}

/-- The healer changes the text of a note. -/
structure Heals (files : VaultFiles) (plannedAt : Int) (rel : RelPath) (data : Bytes)
    (content healed : String) (changes : List String) : Prop where
  found : files.lookup rel = some data
  decoded : decodeText data = .ok content
  result : Healer.heal content rel plannedAt = .ok (healed, changes)
  changed : ¬ (changes = [] ∨ healed = content)

theorem repair_eq_some : repair files plannedAt rel = .ok (some action) ↔
    ∃ data content healed changes, Heals files plannedAt rel data content healed changes ∧
      action = healAction plannedAt rel content healed changes := by
  unfold repair
  constructor
  · intro h
    obtain ⟨data, hdata, h⟩ := bind_eq_ok.mp h
    obtain ⟨content, hcontent, h⟩ := bind_eq_ok.mp h
    obtain ⟨⟨healed, changes⟩, hhealed, h⟩ := bind_eq_ok.mp h
    by_cases hsame : changes = [] ∨ healed = content
    · simp only [if_pos hsame] at h
      cases h
    · simp only [if_neg hsame] at h
      exact ⟨data, content, healed, changes,
        ⟨readBytes_eq_ok.mp hdata, hcontent, hhealed, hsame⟩, (Option.some.inj (Except.ok.inj h)).symm⟩
  · rintro ⟨data, content, healed, changes, h, rfl⟩
    refine bind_eq_ok.mpr ⟨data, readBytes_eq_ok.mpr h.found, ?_⟩
    refine bind_eq_ok.mpr ⟨content, h.decoded, ?_⟩
    refine bind_eq_ok.mpr ⟨(healed, changes), h.result, ?_⟩
    simp only [if_neg h.changed]
    rfl

omit [Healer] in
theorem insideVault_asPosix {vault : Vault} (hrel : rel ∈ vault.files) :
    insideVault vault.root (asPosix rel) = .ok rel := by
  obtain ⟨hne, hnames⟩ := vault.proper rel hrel
  unfold insideVault asPosix
  simp only
  rw [PosixPath.absolute_intercalate hnames hne, if_pos (by simp), List.drop_left]

omit [Healer] in
theorem asPosix_injective {vault : Vault} {a b : RelPath} (ha : a ∈ vault.files) (hb : b ∈ vault.files)
    (h : asPosix a = asPosix b) : a = b := by
  have hinside := insideVault_asPosix ha
  rw [h, insideVault_asPosix hb] at hinside
  exact (Except.ok.inj hinside).symm

/-- The actions of a plan name their notes in the order of the vault. -/
theorem map_path_sublist {files : VaultFiles} {rels : List RelPath}
    {repairs : List (Option MaintenanceAction)}
    (h : rels.mapM (repair files plannedAt) = .ok repairs) :
    ((repairs.filterMap id).map MaintenanceAction.path).Sublist (rels.map asPosix) := by
  induction rels generalizing repairs with
  | nil =>
    cases h
    exact List.Sublist.refl _
  | cons rel rels ih =>
    rw [List.mapM_cons] at h
    obtain ⟨found, hfound, h⟩ := bind_eq_ok.mp h
    obtain ⟨rest, hrest, h⟩ := bind_eq_ok.mp h
    cases h
    cases found with
    | none => exact (ih hrest).cons _
    | some action =>
      obtain ⟨data, content, healed, changes, -, rfl⟩ := repair_eq_some.mp hfound
      exact (ih hrest).cons_cons _

/-- The action heals a note as it is in the files. -/
structure Ready (root : List String) (files : VaultFiles) (action : MaintenanceAction)
    (rel : RelPath) : Prop where
  inside : insideVault root action.path = .ok rel
  heals : ∃ plannedAt data content healed changes,
    Heals files plannedAt rel data content healed changes ∧
      action.transformTimestamp = some (.ok plannedAt) ∧
      action.afterSha256 = some (Sha256.hexdigest (encodeText healed))

variable [PythonClock]

/-- An action that is ready is taken, and changes its note and no other file. -/
theorem applyAction_ready (h : Ready root s.files action rel) (hsmooth : turn.Smooth) :
    ∃ next, applyAction root turn action s = (next, none) ∧
      (next.files.lookup rel).map Sha256.hexdigest = action.afterSha256 ∧
      ∀ other ∈ s.files, other ≠ rel → next.files.lookup other = s.files.lookup other := by
  obtain ⟨hinside, plannedAt, data, content, healed, changes, hheals, htime, hafter⟩ := h
  obtain ⟨hread, hbackup, hwrite⟩ := hsmooth
  have hprepare : prepare root turn s.files action = .ok (rel, data, healed) := by
    unfold prepare
    refine bind_eq_ok.mpr ⟨rel, hinside, ?_⟩
    rw [hread, htime, hafter]
    refine bind_eq_ok.mpr ⟨data, readBytes_eq_ok.mpr hheals.found, ?_⟩
    refine bind_eq_ok.mpr ⟨content, hheals.decoded, ?_⟩
    refine bind_eq_ok.mpr ⟨plannedAt, rfl, ?_⟩
    refine bind_eq_ok.mpr ⟨(healed, changes), hheals.result, ?_⟩
    exact bind_eq_ok.mpr ⟨⟨⟩, raiseIf_eq_ok.mpr (not_not.mpr rfl), rfl⟩
  unfold applyAction
  rw [hprepare, hbackup, hwrite]
  refine ⟨_, rfl, ?_, ?_⟩
  · dsimp only
    rw [AList.lookup_insert, hafter]
    rfl
  · intro other hother hne
    have hfresh : other ≠ backupPath s.files rel turn.now :=
      fun heq => backupPath_not_mem s.files rel turn.now (heq ▸ hother)
    dsimp only
    rw [AList.lookup_insert_ne hne, AList.lookup_insert_ne hfresh]

/-- Actions for different notes, all of them ready, are all taken. -/
theorem applyActions_ready (hready : ∀ action ∈ actions, ∃ rel, Ready root s.files action rel)
    (hdistinct : actions.Pairwise fun a b => ∀ rel, insideVault root a.path = .ok rel →
      insideVault root b.path ≠ .ok rel)
    (hsmooth : ∀ call, (turns.get call).Smooth) :
    ∃ next, applyActions root turns actions s = (next, none) ∧
      (∀ action ∈ actions, ∀ rel, insideVault root action.path = .ok rel →
        (next.files.lookup rel).map Sha256.hexdigest = action.afterSha256) ∧
      ∀ other ∈ s.files, (∀ action ∈ actions, insideVault root action.path ≠ .ok other) →
        next.files.lookup other = s.files.lookup other := by
  induction actions generalizing turns s with
  | nil => exact ⟨s, rfl, by simp, fun _ _ _ => rfl⟩
  | cons action actions ih =>
    rw [List.forall_mem_cons] at hready
    rw [List.pairwise_cons] at hdistinct
    obtain ⟨rel, hrel⟩ := hready.1
    obtain ⟨mid, hstep, hafter, hother⟩ := applyAction_ready hrel (hsmooth 0)
    have hmem : ∀ file ∈ s.files, file ≠ rel → file ∈ mid.files := by
      intro file hfile hne
      rw [← lookup_ne_none, hother file hfile hne]
      exact lookup_ne_none.mpr hfile
    have hrest : ∀ later ∈ actions, ∃ rel, Ready root mid.files later rel := by
      intro later hlater
      obtain ⟨target, hinside, plannedAt, data, content, healed, changes, hheals, hlast⟩ :=
        hready.2 later hlater
      have hne : target ≠ rel := by
        rintro rfl
        exact hdistinct.1 later hlater _ hrel.inside hinside
      have htarget : target ∈ s.files :=
        lookup_ne_none.mp (by rw [hheals.found]; exact Option.some_ne_none _)
      refine ⟨target, hinside, plannedAt, data, content, healed, changes,
        ⟨?_, hheals.decoded, hheals.result, hheals.changed⟩, hlast⟩
      rw [hother target htarget hne]
      exact hheals.found
    have hlater : ∀ call, (turns.tail.get call).Smooth := fun call => hsmooth (call + 1)
    obtain ⟨next, hrun, hafters, hothers⟩ := ih hrest hdistinct.2 hlater
    have hsame : ∀ other ∈ mid.files, (∀ later ∈ actions,
        insideVault root later.path ≠ .ok other) →
        next.files.lookup other = mid.files.lookup other := hothers
    refine ⟨next, ?_, ?_, ?_⟩
    · unfold applyActions
      have hhead : applyAction root turns.head action s = (mid, none) := hstep
      rw [hhead]
      exact hrun
    · rw [List.forall_mem_cons]
      refine ⟨fun target htarget => ?_, hafters⟩
      have heq : target = rel := Except.ok.inj (htarget.symm.trans hrel.inside)
      rw [heq, ← hafter]
      have hrelmem : rel ∈ mid.files := by
        rw [← lookup_ne_none]
        intro hnone
        rw [hnone] at hafter
        obtain ⟨plannedAt, data, content, healed, changes, -, -, hsome⟩ := hrel.heals
        rw [hsome] at hafter
        cases hafter
      rw [hsame rel hrelmem fun later hlater => hdistinct.1 later hlater rel hrel.inside]
    · intro other hfile hnone
      rw [List.forall_mem_cons] at hnone
      have hne : other ≠ rel := by
        rintro rfl
        exact hnone.1 hrel.inside
      rw [hsame other (hmem other hfile hne) hnone.2, hother other hfile hne]

end

/-! ## What a plan promises -/

section
variable [PythonPatterns] [Healer] {rules : List IgnoreRule} {vault : Vault} {plannedAt : Int}
  {plan : MaintenancePlan} {action : MaintenanceAction} {rel : RelPath}

/-- Every note can be read and healed, or needs no healing. -/
def Plannable (rules : List IgnoreRule) (vault : Vault) (plannedAt : Int) : Prop :=
  ∀ rel ∈ candidateNotes rules vault.files, ∃ found, repair vault.files plannedAt rel = .ok found

/-- No note that the healer changes has other bytes, by their digest, than the text that is read. -/
def BoundToBytes (rules : List IgnoreRule) (vault : Vault) (plannedAt : Int) : Prop :=
  ∀ rel ∈ candidateNotes rules vault.files, ∀ data content healed changes,
    Heals vault.files plannedAt rel data content healed changes →
      Sha256.hexdigest data = Sha256.hexdigest (encodeText content)

/-- A plan for a vault without overdue backups is applied when it is approved and nothing goes
wrong, and the notes it touches then have the planned digests. -/
def Applicable [PythonClock] (rules : List IgnoreRule) (vault : Vault) (plannedAt : Int) : Prop :=
  ∀ plan, buildMaintenancePlan rules vault plannedAt [] = .ok plan →
    ∀ turns : Stream' Turn, (∀ call, (turns.get call).Smooth) →
      ∃ files receipt, applyMaintenancePlan vault plan true turns = (files, .ok receipt) ∧
        ∀ action ∈ plan.actions, ∀ rel, insideVault vault.root action.path = .ok rel →
          (files.lookup rel).map Sha256.hexdigest = action.afterSha256

omit [Healer] in
theorem candidateNotes_mem (hrel : rel ∈ candidateNotes rules vault.files) : rel ∈ vault.files :=
  AList.mem_keys.mpr (List.mem_filter.mp hrel).1

theorem exists_plan_iff : (∃ plan, buildMaintenancePlan rules vault plannedAt [] = .ok plan) ↔
    Plannable rules vault plannedAt := by
  unfold buildMaintenancePlan
  rw [exists_bind_eq_ok]
  constructor
  · rintro ⟨repairs, hrepairs, -⟩ rel hrel
    obtain ⟨found, -, hfound⟩ := exists_of_mapM hrepairs hrel
    exact ⟨found, hfound⟩
  · intro h
    obtain ⟨repairs, hrepairs⟩ := exists_mapM h
    exact ⟨repairs, hrepairs, _, rfl⟩

/-- The actions of a plan heal the notes that the healer changes, each note once. -/
theorem buildMaintenancePlan_ok (h : buildMaintenancePlan rules vault plannedAt [] = .ok plan) :
    plan.vault = vault.text ∧
      (∀ action, action ∈ plan.actions ↔ ∃ rel ∈ candidateNotes rules vault.files,
        repair vault.files plannedAt rel = .ok (some action)) ∧
      (plan.actions.map MaintenanceAction.path).Nodup := by
  unfold buildMaintenancePlan at h
  obtain ⟨repairs, hrepairs, h⟩ := bind_eq_ok.mp h
  obtain ⟨findings, hfindings, h⟩ := bind_eq_ok.mp h
  have hnil : findings = [] := (Except.ok.inj hfindings).symm
  subst hnil
  rw [List.append_nil] at h
  cases h
  refine ⟨rfl, ?_, ?_⟩
  · intro action
    rw [List.mem_insertionSort, List.mem_filterMap]
    constructor
    · rintro ⟨found, hfound, hsome⟩
      obtain ⟨rel, hrel, heq⟩ := mem_of_mapM hrepairs hfound
      rw [show found = some action from hsome] at heq
      exact ⟨rel, hrel, heq⟩
    · rintro ⟨rel, hrel, heq⟩
      obtain ⟨found, hmem, hfound⟩ := exists_of_mapM hrepairs hrel
      rw [heq] at hfound
      cases hfound
      exact ⟨some action, hmem, rfl⟩
  · rw [((List.perm_insertionSort _ _).map _).nodup_iff]
    refine (map_path_sublist hrepairs).nodup (List.Nodup.map_on ?_ ?_)
    · intro a ha b hb heq
      exact asPosix_injective (candidateNotes_mem ha) (candidateNotes_mem hb) heq
    · exact vault.files.keys_nodup.filter _

/-- The digest a planned action is bound to. -/
theorem verified_iff (h : buildMaintenancePlan rules vault plannedAt [] = .ok plan) :
    verifyPreconditions vault.root vault.files plan.actions = .ok () ↔
      BoundToBytes rules vault plannedAt := by
  obtain ⟨-, hactions, -⟩ := buildMaintenancePlan_ok h
  rw [verifyPreconditions_ok_iff]
  constructor
  · intro hverified rel hrel data content healed changes hheals
    obtain ⟨target, bytes, htarget, hbytes, hdigest⟩ := hverified _ ((hactions _).mpr
      ⟨rel, hrel, repair_eq_some.mpr ⟨data, content, healed, changes, hheals, rfl⟩⟩)
    have heq : target = rel :=
      Except.ok.inj (htarget.symm.trans (insideVault_asPosix (candidateNotes_mem hrel)))
    rw [heq, hheals.found] at hbytes
    rw [Option.some.inj hbytes, hdigest]
    rfl
  · intro hbound action haction
    obtain ⟨rel, hrel, hrepair⟩ := (hactions action).mp haction
    obtain ⟨data, content, healed, changes, hheals, rfl⟩ := repair_eq_some.mp hrepair
    exact ⟨rel, data, insideVault_asPosix (candidateNotes_mem hrel), hheals.found,
      hbound rel hrel data content healed changes hheals⟩

/-- The actions of a plan are ready, each for a note of its own. -/
theorem ready_of_plan (h : buildMaintenancePlan rules vault plannedAt [] = .ok plan) :
    (∀ action ∈ plan.actions, ∃ rel, Ready vault.root vault.files action rel) ∧
      plan.actions.Pairwise fun a b => ∀ rel, insideVault vault.root a.path = .ok rel →
        insideVault vault.root b.path ≠ .ok rel := by
  obtain ⟨-, hactions, hnodup⟩ := buildMaintenancePlan_ok h
  have hnote : ∀ action ∈ plan.actions, ∃ rel ∈ vault.files, action.path = asPosix rel ∧
      Ready vault.root vault.files action rel := by
    intro action haction
    obtain ⟨rel, hrel, hrepair⟩ := (hactions action).mp haction
    obtain ⟨data, content, healed, changes, hheals, rfl⟩ := repair_eq_some.mp hrepair
    exact ⟨rel, candidateNotes_mem hrel, rfl, insideVault_asPosix (candidateNotes_mem hrel),
      plannedAt, data, content, healed, changes, hheals, rfl, rfl⟩
  refine ⟨fun action haction => ?_, ?_⟩
  · obtain ⟨rel, -, -, hready⟩ := hnote action haction
    exact ⟨rel, hready⟩
  · refine (List.pairwise_map.mp hnodup).imp_of_mem ?_
    intro a b ha hb hne rel hrel hsame
    obtain ⟨rela, -, hpatha, hreadya⟩ := hnote a ha
    obtain ⟨relb, -, hpathb, hreadyb⟩ := hnote b hb
    have heqa : rel = rela := Except.ok.inj (hrel.symm.trans hreadya.inside)
    have heqb : rel = relb := Except.ok.inj (hsame.symm.trans hreadyb.inside)
    exact hne (by rw [hpatha, hpathb, ← heqa, ← heqb])

theorem automatic_of_plan (h : buildMaintenancePlan rules vault plannedAt [] = .ok plan) :
    ∀ action ∈ plan.actions, action.actionClass = .safeAuto := by
  intro action haction
  obtain ⟨rel, -, hrepair⟩ := ((buildMaintenancePlan_ok h).2.1 action).mp haction
  obtain ⟨_, _, _, _, -, rfl⟩ := repair_eq_some.mp hrepair
  rfl

/-- A plan goes through when it is bound to the bytes of the notes, and a call that raises leaves
every file in any case. -/
theorem maintenance_iff [PythonClock] (rules : List IgnoreRule) (vault : Vault) (plannedAt : Int) :
    (Applicable rules vault plannedAt ∧ Atomic vault) ↔
      (Plannable rules vault plannedAt → BoundToBytes rules vault plannedAt) := by
  constructor
  · rintro ⟨happlicable, -⟩ hplannable
    obtain ⟨plan, hplan⟩ := exists_plan_iff.mpr hplannable
    obtain ⟨files, receipt, hok, -⟩ :=
      happlicable plan hplan (Stream'.const ⟨0, none, none, none⟩) fun _ => ⟨rfl, rfl, rfl⟩
    by_contra hbound
    have hadmitted : ¬ Admitted vault plan true :=
      fun hadmitted => hbound ((verified_iff hplan).mp hadmitted.verified)
    obtain ⟨exn, herror⟩ := applyMaintenancePlan_of_not hadmitted
    rw [herror] at hok
    cases hok
  · intro hbound
    refine ⟨fun plan hplan turns hsmooth => ?_, applyMaintenancePlan_atomic vault⟩
    have hverified := (verified_iff hplan).mpr (hbound (exists_plan_iff.mp ⟨plan, hplan⟩))
    have hadmitted : Admitted vault plan true :=
      ⟨(buildMaintenancePlan_ok hplan).1.symm, rfl, automatic_of_plan hplan, hverified⟩
    obtain ⟨hready, hdistinct⟩ := ready_of_plan hplan
    obtain ⟨next, hrun, hafter, -⟩ :=
      @applyActions_ready _ _ _ _ ⟨vault.files, [], []⟩ _ hready hdistinct hsmooth
    obtain ⟨receipt, hok⟩ := applyMaintenancePlan_none hadmitted hrun
    exact ⟨next.files, receipt, hok, hafter⟩

/-- Notes without carriage returns are as they are read. -/
theorem boundToBytes_of_newlines (h : ∀ rel ∈ candidateNotes rules vault.files, ∀ data,
    vault.files.lookup rel = some data → Memory.carriageReturn ∉ data) :
    BoundToBytes rules vault plannedAt := by
  intro rel hrel data content healed changes hheals
  rw [(Memory.restored_eq_self_iff hheals.decoded).mpr (h rel hrel data hheals.found)]

end

/-- The healer on a note in the projects without a frontmatter, called `a.md`, that says `x`. -/
abbrev plainHealer : Healer where
  heal content _ _ := .ok ("---\ntype: Project\ntitle: \"A\"\ndescription: \"x\"\n" ++
      "timestamp: 2026-01-01T00:00:00+00:00\n---\n\n" ++ content,
    ["No frontmatter found — created minimal frontmatter", "Added missing type: Project",
      "Added missing title: 'A'", "Added missing description: 'x...'", "Added missing timestamp"])

/-- A note with one line, which ends as on another system. -/
def foreignNote : Vault where
  root := ["vault"]
  files := AList.singleton ["01_Projects", "a.md"] (encodeText "x\r\n")
  proper := by
    intro rel hrel
    rw [AList.mem_keys, AList.keys_singleton, List.mem_singleton] at hrel
    rw [hrel]
    decide

/-- The plan for the note is stale as soon as it is made. -/
theorem foreignNote_not_applicable : ¬ ∀ (rules : List IgnoreRule) (vault : Vault) (plannedAt : Int),
    @Applicable plainPatterns plainHealer ⟨fun _ => "20260101_000000_000000"⟩ rules vault plannedAt ∧
      @Atomic ⟨fun _ => "20260101_000000_000000"⟩ plainHealer vault := by
  let _ := plainPatterns
  let _ := plainHealer
  let _ : PythonClock := ⟨fun _ => "20260101_000000_000000"⟩
  intro h
  have hnote : foreignNote.files.lookup ["01_Projects", "a.md"] = some (encodeText "x\r\n") := by
    decide +kernel
  have hcandidates : candidateNotes [] foreignNote.files = [["01_Projects", "a.md"]] := by
    decide +kernel
  have htext : decodeText (encodeText "x\r\n") = .ok "x\n" := by decide +kernel
  have hheals := @Heals.mk plainHealer foreignNote.files 1767225600000000 ["01_Projects", "a.md"] _
    "x\n" _ _ hnote htext rfl (by decide +kernel)
  have hplannable : Plannable [] foreignNote 1767225600000000 := by
    intro rel hrel
    rw [hcandidates, List.mem_singleton] at hrel
    rw [hrel]
    exact ⟨_, repair_eq_some.mpr ⟨_, _, _, _, hheals, rfl⟩⟩
  obtain ⟨plan, hplan⟩ := exists_plan_iff.mpr hplannable
  obtain ⟨files, receipt, hok, -⟩ := (h [] foreignNote 1767225600000000).1 plan hplan
    (Stream'.const ⟨0, none, none, none⟩) fun _ => ⟨rfl, rfl, rfl⟩
  have hadmitted : ¬ Admitted foreignNote plan true := by
    intro hadmitted
    have hdigest := (verified_iff hplan).mp hadmitted.verified _
      (by rw [hcandidates]; exact List.mem_singleton.mpr rfl) _ _ _ _ hheals
    have hdiffer : Sha256.hexdigest (encodeText "x\r\n") ≠ Sha256.hexdigest (encodeText "x\n") := by
      decide +kernel
    exact hdiffer hdigest
  obtain ⟨exn, herror⟩ := applyMaintenancePlan_of_not hadmitted
  rw [herror] at hok
  cases hok

end PowerFramework.Upkeep
