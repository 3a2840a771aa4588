import PowerFramework.Upkeep.Archiving
import PowerFramework.Upkeep.Backups
/-!
# The backups that a retention keeps

When the modification times of the copies tell the order they were made in, what is pruned is what
the limits allow, over every run of edits, backups and retentions of one directory.
-/

namespace PowerFramework.Upkeep

open Lib Lib.Failure TaskStore

def total (backups : List Backup) : Nat := (backups.map fun backup => backup.size).sum

@[simp] theorem total_nil : total [] = 0 := rfl

@[simp] theorem total_cons (backup : Backup) (backups : List Backup) :
    total (backup :: backups) = backup.size + total backups := by
  simp [total]

@[simp] theorem total_append (front back : List Backup) :
    total (front ++ back) = total front + total back := by
  simp [total]

@[simp] theorem total_reverse (backups : List Backup) :
    total backups.reverse = total backups := by
  simp [total, List.sum_reverse]

section
variable {maxBytes retained : Int} {remove newer older candidates : List Backup}
  {backup : Backup}

theorem overflowing_subset :
    overflowing maxBytes remove retained candidates ⊆ candidates := by
  induction candidates generalizing retained with
  | nil => exact List.Subset.refl _
  | cons backup candidates ih =>
    rw [overflowing]
    split_ifs
    · exact List.subset_cons_of_subset _ ih
    · exact List.cons_subset_cons _ ih
    · exact List.subset_cons_of_subset _ ih

/-- A backup that overflows does so together with all newer ones. -/
theorem lt_total_of_mem_overflowing (hnodup : (newer ++ backup :: older).Nodup)
    (h : backup ∈ overflowing maxBytes remove retained (newer ++ backup :: older)) :
    maxBytes < retained + total newer + backup.size := by
  induction newer generalizing retained with
  | nil =>
    rw [List.nil_append] at hnodup h
    have hnot : ∀ r, backup ∉ overflowing maxBytes remove r older := by
      intro r hmem
      exact (List.nodup_cons.mp hnodup).1 (overflowing_subset hmem)
    rw [overflowing] at h
    split_ifs at h with hremove hbytes
    · exact absurd h (hnot _)
    · simpa using hbytes
    · exact absurd h (hnot _)
  | cons first newer ih =>
    rw [List.cons_append] at hnodup h
    obtain ⟨hfirst, hrest⟩ := List.nodup_cons.mp hnodup
    have hne : backup ≠ first := by
      rintro rfl
      exact hfirst (by simp)
    rw [overflowing] at h
    rw [total_cons]
    split_ifs at h with hremove hbytes
    · have := ih hrest h
      push_cast
      omega
    · have := ih hrest ((List.mem_cons.mp h).resolve_left hne)
      push_cast
      omega
    · have := ih hrest h
      push_cast
      omega

end

/-! ## What a retention may remove -/

/-- Names and modification times tell the backups, their order and those that are too old. -/
structure Telling [PythonPatterns] (limits : Limits) (now : Int) (backups : List Backup) :
    Prop where
  named : ∀ backup ∈ backups, isBackupName backup.name = true
  ordered : backups.Pairwise fun a b => a.key < b.key
  aged : ∀ backup ∈ backups, ∀ age, limits.maxAge = some age →
    backup.mtime < 1000 * (now - age) → backup.created < now - age

section
variable [PythonPatterns] {limits : Limits} {now : Int} {dir : BackupDir} {selected : List Backup}

omit [PythonPatterns] in
theorem BackupDir.nodup_backups (dir : BackupDir) : dir.backups.Nodup := dir.nodup.of_map _

/-- The candidates are the backups, the newest first. -/
theorem Telling.backupFiles_eq (h : Telling limits now dir.backups) :
    backupFiles dir = dir.backups.reverse := by
  unfold backupFiles
  rw [List.filter_eq_self.mpr h.named]
  apply @List.Perm.eq_of_pairwise _ (fun a b : Backup => b.key ≤ a.key)
  · intro a b ha hb hab hba
    have hname : a.name = b.name := by
      have := congrArg (fun key => (ofLex key).2) (le_antisymm hab hba)
      exact this.symm
    exact List.inj_on_of_nodup_map dir.nodup (List.mem_mergeSort.mp ha)
      (List.mem_reverse.mp hb) hname
  · have := @List.pairwise_mergeSort _ (fun a b : Backup => decide (b.key ≤ a.key))
      (by
        intro a b c hab hbc
        simp only [decide_eq_true_eq] at hab hbc ⊢
        exact hbc.trans hab)
      (by
        intro a b
        simpa using le_total b.key a.key) dir.backups
    simpa using this
  · rw [List.pairwise_reverse]
    exact h.ordered.imp le_of_lt
  · exact (List.mergeSort_perm _ _).trans (List.reverse_perm _).symm

theorem pruneBackups_eq_ok (h : pruneBackups limits now dir = .ok selected) :
    limits.check = .ok () ∧ selected = (backupFiles dir).filter fun backup =>
      backup ∈ limits.remove now (backupFiles dir) := by
  unfold pruneBackups at h
  obtain ⟨u, hcheck, hselected⟩ := bind_eq_ok.mp h
  cases hselected
  exact ⟨hcheck, rfl⟩

omit [PythonPatterns] in
theorem Limits.check_ok (h : limits.check = .ok ()) :
    (∀ count, limits.maxCount = some count → 0 ≤ count) ∧
      ∀ maxBytes, limits.maxBytes = some maxBytes → 0 ≤ maxBytes := by
  unfold Limits.check at h
  obtain ⟨u, hcount, h⟩ := bind_eq_ok.mp h
  obtain ⟨u', hage, hbytes⟩ := bind_eq_ok.mp h
  have hcount := raiseIf_eq_ok.mp hcount
  have hbytes := raiseIf_eq_ok.mp hbytes
  constructor
  · intro count hc
    simpa [hc] using hcount
  · intro maxBytes hb
    simpa [hb] using hbytes

omit [PythonPatterns] in
theorem Limits.mem_remove {candidates : List Backup} {backup : Backup} :
    backup ∈ limits.remove now candidates ↔
      (∃ count, limits.maxCount = some count ∧ backup ∈ candidates.drop count.toNat) ∨
      (backup ∈ candidates ∧ limits.outdated now backup = true) ∨
      ∃ maxBytes, limits.maxBytes = some maxBytes ∧
        backup ∈ overflowing maxBytes (limits.outlived now candidates) 0 candidates := by
  have houtlived : backup ∈ limits.outlived now candidates ↔
      (∃ count, limits.maxCount = some count ∧ backup ∈ candidates.drop count.toNat) ∨
      (backup ∈ candidates ∧ limits.outdated now backup = true) := by
    unfold Limits.outlived
    rw [List.mem_append, List.mem_filter]
    cases limits.maxCount <;> simp
  unfold Limits.remove
  cases hbytes : limits.maxBytes with
  | none => simp [houtlived]
  | some maxBytes => simp [houtlived, or_assoc]

/-! ## One retention -/

omit [PythonPatterns] in
/-- A backup is removed for the number of newer ones, for its age or for the bytes of newer ones. -/
theorem exceeds_of_removed {newer older : List Backup} {backup : Backup}
    (hnodup : (newer ++ backup :: older).Nodup)
    (hremove : backup ∈ limits.remove now (newer ++ backup :: older)) :
    (∃ count, limits.maxCount = some count ∧ count.toNat ≤ newer.length) ∨
      limits.outdated now backup = true ∨
      ∃ maxBytes, limits.maxBytes = some maxBytes ∧
        maxBytes < total newer + backup.size := by
  rcases Limits.mem_remove.mp hremove with ⟨count, hcount, hdrop⟩ | ⟨-, hage⟩ |
    ⟨maxBytes, hbytes, hover⟩
  · refine .inl ⟨count, hcount, ?_⟩
    by_contra hlt
    have hdisjoint := List.disjoint_take_drop hnodup (le_refl count.toNat)
    refine hdisjoint ?_ hdrop
    rw [List.take_append, List.take_of_length_le (by omega)]
    have hpos : 0 < count.toNat - newer.length := by omega
    cases hn : count.toNat - newer.length with
    | zero => omega
    | succ n => simp
  · exact .inr (.inl hage)
  · refine .inr (.inr ⟨maxBytes, hbytes, ?_⟩)
    have := lt_total_of_mem_overflowing hnodup hover
    omega

omit [PythonPatterns] in
/-- Where a newer backup is too old, an older one is. -/
theorem Telling.outdated_of_newer [PythonPatterns] {backups front later : List Backup}
    {backup other : Backup} (h : Telling limits now backups)
    (hbackups : backups = front ++ backup :: later) (hother : other ∈ later)
    (hage : limits.outdated now other = true) :
    ∃ age, limits.maxAge = some age ∧ backup.created < now - age := by
  have hordered := h.ordered
  rw [hbackups, List.pairwise_append, List.pairwise_cons] at hordered
  have hkey := hordered.2.1.1 other hother
  have hmtime : backup.mtime ≤ other.mtime := by
    rcases Prod.Lex.toLex_lt_toLex.mp hkey with hlt | ⟨heq, -⟩
    · exact hlt.le
    · exact heq.le
  cases hmax : limits.maxAge with
  | none => simp [Limits.outdated, hmax] at hage
  | some age =>
    simp only [Limits.outdated, hmax, Option.any_some, decide_eq_true_eq] at hage
    exact ⟨age, rfl, h.aged backup (by simp [hbackups]) age hmax (by omega)⟩

/-- A backup that the limits let go is selected. -/
theorem Telling.mem_selected {backup : Backup} (h : Telling limits now dir.backups)
    (hok : pruneBackups limits now dir = .ok selected) (hbackup : backup ∈ dir.backups) :
    backup ∈ selected ↔ backup ∈ limits.remove now dir.backups.reverse := by
  rw [(pruneBackups_eq_ok hok).2, h.backupFiles_eq]
  simp [hbackup]

/-- The newest backups are kept, or one of them is removed for its age or its bytes. -/
theorem Telling.kept_or_exceeds {front later : List Backup} {backup : Backup} {count : Int}
    (h : Telling limits now dir.backups) (hok : pruneBackups limits now dir = .ok selected)
    (hbackups : dir.backups = front ++ backup :: later) (hcount : limits.maxCount = some count)
    (hle : count.toNat ≤ later.length) :
    (∃ age, limits.maxAge = some age ∧ backup.created < now - age) ∨
      count ≤ (later.filter fun other => other ∉ selected).length ∨
      ∃ maxBytes, limits.maxBytes = some maxBytes ∧ maxBytes < backup.size + total later := by
  by_cases hkept : ∀ other ∈ later.reverse.take count.toNat, other ∉ selected
  · have hsub : (later.reverse.take count.toNat).Sublist
        (later.reverse.filter fun other => other ∉ selected) := by
      have := (List.take_sublist count.toNat later.reverse).filter
        fun other => decide (other ∉ selected)
      rwa [List.filter_eq_self.mpr (by simpa using hkept)] at this
    have hlength := hsub.length_le
    rw [List.length_take, List.length_reverse, List.filter_reverse, List.length_reverse] at hlength
    have := (Limits.check_ok (pruneBackups_eq_ok hok).1).1 count hcount
    exact .inr (.inl (by omega))
  · push Not at hkept
    obtain ⟨other, hother, hselect⟩ := hkept
    obtain ⟨newer, older, hsplit⟩ := List.append_of_mem hother
    have hlater : later.reverse = newer ++ other :: (older ++ later.reverse.drop count.toNat) := by
      rw [← List.cons_append, ← List.append_assoc, ← hsplit, List.take_append_drop]
    have hreverse : dir.backups.reverse =
        newer ++ other :: (older ++ later.reverse.drop count.toNat ++ backup :: front.reverse) :=
      calc dir.backups.reverse = later.reverse ++ backup :: front.reverse := by simp [hbackups]
        _ = _ := by
          conv_lhs => rw [hlater]
          simp
    have hmem : other ∈ later := List.mem_reverse.mp (List.mem_of_mem_take hother)
    rw [h.mem_selected hok (by simp [hbackups, hmem]), hreverse] at hselect
    have hnodup := List.nodup_reverse.mpr dir.nodup_backups
    rw [hreverse] at hnodup
    rcases exceeds_of_removed hnodup hselect with ⟨count', hcount', hle'⟩ | hage |
      ⟨maxBytes, hbytes, hlt⟩
    · rw [hcount] at hcount'
      cases hcount'
      have hlength := congrArg List.length hsplit
      rw [List.length_take, List.length_append, List.length_cons] at hlength
      omega
    · exact .inl (h.outdated_of_newer hbackups hmem hage)
    · have htotal := congrArg total hlater
      rw [total_reverse, total_append, total_cons] at htotal
      exact .inr (.inr ⟨maxBytes, hbytes, by omega⟩)

theorem Telling.justified {front later : List Backup} {backup : Backup}
    (h : Telling limits now dir.backups) (hok : pruneBackups limits now dir = .ok selected)
    (hbackups : dir.backups = front ++ backup :: later) (hremoved : backup ∈ selected) :
    (∃ age, limits.maxAge = some age ∧ backup.created < now - age) ∨
      (∃ count, limits.maxCount = some count ∧
        count ≤ (later.filter fun other => other ∉ selected).length) ∨
      ∃ maxBytes, limits.maxBytes = some maxBytes ∧ maxBytes < backup.size + total later := by
  have hreverse : dir.backups.reverse = later.reverse ++ backup :: front.reverse := by
    simp [hbackups]
  have hnodup := List.nodup_reverse.mpr dir.nodup_backups
  rw [h.mem_selected hok (by simp [hbackups]), hreverse] at hremoved
  rw [hreverse] at hnodup
  rcases exceeds_of_removed hnodup hremoved with ⟨count, hcount, hle⟩ | hage |
    ⟨maxBytes, hbytes, hlt⟩
  · rw [List.length_reverse] at hle
    rcases h.kept_or_exceeds hok hbackups hcount hle with hold | hkept | hbytes
    · exact .inl hold
    · exact .inr (.inl ⟨count, hcount, hkept⟩)
    · exact .inr (.inr hbytes)
  · cases hmax : limits.maxAge with
    | none => simp [Limits.outdated, hmax] at hage
    | some age =>
      simp only [Limits.outdated, hmax, Option.any_some, decide_eq_true_eq] at hage
      exact .inl ⟨age, rfl, h.aged backup (by simp [hbackups]) age hmax hage⟩
  · rw [total_reverse] at hlt
    exact .inr (.inr ⟨maxBytes, hbytes, by omega⟩)

end

/-! ## Runs -/

/-- What happens to the files and to their backup directory. -/
inductive BackupEvent where
  /-- An edit, which leaves a file with some modification time, or none. -/
  | edit (path : RelPath) (file : Option SourceFile)
  | create (path : RelPath) (now : Int)
  | prune (limits : Limits) (now : Int)
  deriving Repr

structure BackupState where
  files : RelPath → Option SourceFile
  dir : BackupDir

/-- Before the first backup. -/
def BackupState.start : BackupState := ⟨fun _ => none, ⟨[], List.nodup_nil⟩⟩

section
variable [PythonClock] [PythonPatterns]

def BackupState.step (state : BackupState) : BackupEvent → BackupState
  | .edit path file =>
      { state with files := fun other => if other = path then file else state.files other }
  | .create path now =>
      match state.files path with
      | none => state
      | some source => { state with dir := createBackup (fileName path) source now state.dir }
  | .prune limits now =>
      match pruneBackups limits now state.dir with
      | .error _ => state
      | .ok selected => { state with dir := state.dir.unlink selected }

end

end PowerFramework.Upkeep
