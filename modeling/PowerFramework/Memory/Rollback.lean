import PowerFramework.Memory.Commit
/-!
# Failed commits

What a commit that raises leaves of the note, the history, the log and the catalog pages: each of
them as a text file that was read and written again.
-/

namespace PowerFramework.Memory

open Lib Lib.Crash Lib.Failure Lib.Text Lib.Writes TaskStore

set_option linter.unusedSectionVars false

section
variable [Site] {env : CommitEnv} {d : Disk} {files : Files} {request : CommitRequest}
  {admission : Admission} {path : RelPath} {exn : Exn}

/-! ## Captures -/

/-- The snapshots of an admission are captures of the files. -/
structure Captured (env : CommitEnv) (files : Files) (admission : Admission) : Prop where
  target : captureFile files admission.target = .ok admission.targetSnapshot
  pages : (projectionPaths (env.catalogs files)).mapM (captureFile files) = .ok admission.snapshots
  history : captureFile files historyPath = .ok admission.historySnapshot
  log : captureFile files logPath = .ok admission.logSnapshot

theorem capture_ok {target : RelPath} (h : capture env files request target = .ok admission) :
    admission.target = target ∧ Captured env files admission ∧
      admission.beforeSha256 = contentDigest admission.targetSnapshot.content ∧
      ∀ expected, request.expectedBeforeSha256 = some expected →
        expected = admission.beforeSha256 := by
  obtain ⟨targetSnapshot, htarget, h⟩ := bind_eq_ok.mp h
  obtain ⟨⟨⟩, -, h⟩ := bind_eq_ok.mp h
  obtain ⟨⟨⟩, hexpected, h⟩ := bind_eq_ok.mp h
  obtain ⟨⟨⟩, -, h⟩ := bind_eq_ok.mp h
  obtain ⟨snapshots, hsnapshots, h⟩ := bind_eq_ok.mp h
  obtain ⟨historySnapshot, hhistory, h⟩ := bind_eq_ok.mp h
  obtain ⟨logSnapshot, hlog, h⟩ := bind_eq_ok.mp h
  cases h
  refine ⟨rfl, ⟨htarget, hsnapshots, hhistory, hlog⟩, rfl, fun expected hsome => ?_⟩
  rw [raiseIf_eq_ok, hsome] at hexpected
  simpa using hexpected

theorem enterMutation_fresh (h : enterMutation env files request = .ok (.fresh admission)) :
    Site.resolvePathInVault request.allowedDirectories request.relPath = .ok admission.target ∧
      idempotentReplay files request = .ok none ∧
      capture env files request admission.target = .ok admission := by
  obtain ⟨target, hresolve, h⟩ := bind_eq_ok.mp h
  obtain ⟨prior, hprior, h⟩ := bind_eq_ok.mp h
  cases prior with
  | some receipt => cases h
  | none =>
    obtain ⟨other, hcapture, heq⟩ := map_eq_ok.mp h
    cases heq
    obtain ⟨rfl, -⟩ := capture_ok hcapture
    exact ⟨hresolve, hprior, hcapture⟩

/-! ## The restorations -/

/-- A write puts a file back as it was captured. -/
def PutsBack (files : Files) (write : RelPath × Option Bytes) : Prop :=
  ∃ snapshot, captureFile files write.1 = .ok snapshot ∧ write.2 = snapshot.restoration.2

theorem putsBack_of_none (h : files path = none) : PutsBack files (path, none) := by
  refine ⟨⟨path, false, ""⟩, ?_, rfl⟩
  simp [captureFile, h]

theorem restoration_of_capture {snapshot : FileSnapshot}
    (h : captureFile files path = .ok snapshot) :
    snapshot.restoration.1 = path ∧ PutsBack files snapshot.restoration := by
  have hpath : snapshot.restoration.1 = path := captureFile_path h
  refine ⟨hpath, snapshot, ?_, rfl⟩
  rw [hpath]
  exact h

theorem mem_snapshots (h : Captured env files admission) {snapshot : FileSnapshot}
    (hsnapshot : snapshot ∈ admission.snapshots) :
    ∃ path ∈ projectionPaths (env.catalogs files), captureFile files path = .ok snapshot :=
  mem_of_mapM h.pages hsnapshot

/-- The pages that were captured are the map page and the catalog pages there were. -/
theorem mem_before (h : Captured env files admission) :
    path ∈ admission.snapshots.map FileSnapshot.path ↔
      path ∈ projectionPaths (env.catalogs files) := by
  constructor
  · intro hmem
    obtain ⟨snapshot, hsnapshot, rfl⟩ := List.mem_map.mp hmem
    obtain ⟨path, hpath, hcapture⟩ := mem_snapshots h hsnapshot
    rw [captureFile_path hcapture]
    exact hpath
  · intro hmem
    obtain ⟨snapshot, hsnapshot, hcapture⟩ := exists_of_mapM h.pages hmem
    exact List.mem_map.mpr ⟨snapshot, hsnapshot, captureFile_path hcapture⟩

/-- Every restoration puts its file back. -/
theorem putsBack_of_mem (hcaptured : Captured env files admission)
    (hbefore : Lists files (env.catalogs files)) {catalogs : List RelPath}
    (hcatalogs : ∀ path ∈ catalogs, isCatalog path = true) {write : RelPath × Option Bytes}
    (h : write ∈ restoreProjection catalogs admission.snapshots ++
      [admission.historySnapshot.restoration, admission.logSnapshot.restoration]) :
    PutsBack files write := by
  unfold restoreProjection at h
  simp only [List.mem_append, List.mem_map, List.mem_filter, List.mem_cons, List.not_mem_nil,
    or_false, decide_eq_true_eq] at h
  rcases h with (⟨path, ⟨hpath, hnot⟩, rfl⟩ | ⟨snapshot, hsnapshot, rfl⟩) | rfl | rfl
  · -- a page that was not captured was not there
    refine putsBack_of_none ?_
    have hnew : path ∉ projectionPaths (env.catalogs files) := by
      rw [← mem_before hcaptured, List.mem_map]
      exact hnot
    rw [projectionPaths, List.mem_cons, not_or] at hnew
    rw [projectionPaths, List.mem_cons] at hpath
    have hcatalog := hcatalogs path (hpath.resolve_left hnew.1)
    by_contra hsome
    exact hnew.2 ((hbefore path).mpr ⟨hcatalog, hsome⟩)
  · obtain ⟨path, -, hcapture⟩ := mem_snapshots hcaptured hsnapshot
    exact (restoration_of_capture hcapture).2
  · exact (restoration_of_capture hcaptured.history).2
  · exact (restoration_of_capture hcaptured.log).2

/-- Files put back over any state are as they were captured. -/
theorem perform_putsBack {writes : List (RelPath × Option Bytes)} {snapshot : FileSnapshot}
    {content : Option Bytes} (hwrites : ∀ write ∈ writes, PutsBack files write)
    (hmem : (path, content) ∈ writes) (hcapture : captureFile files path = .ok snapshot)
    (state : Files) : perform writes state path = snapshot.restoration.2 := by
  have hcontent : ∀ write ∈ writes, write.1 = path → write.2 = snapshot.restoration.2 := by
    intro write hwrite hpath
    obtain ⟨other, hother, heq⟩ := hwrites write hwrite
    rw [hpath, hcapture] at hother
    cases hother
    exact heq
  have hsame := hcontent _ hmem rfl
  simp only at hsame
  subst hsame
  exact perform_of_mem hmem hcontent state

/-! ## A commit that raises -/

/-- The disk when the handler starts. -/
def failedDisk (env : CommitEnv) (d : Disk) (request : CommitRequest) (admission : Admission) :
    Disk :=
  match env.lock with
  | some _ => d
  | none => afterTransaction env.fs env.vault d (commitTransaction env request admission d.files)

theorem rollbackEnding_raised {published : Bool} {raised : Exn}
    (h : rollbackEnding env published raised = .raised exn) :
    env.sourceRestore = none ∧ env.projectionRestore = none := by
  unfold rollbackEnding at h
  split_ifs at h with hsource hprojection hsync
  simpa using And.intro hsource hprojection

theorem runCommit_raised (h : (runCommit env d request admission).1 = .raised exn) :
    (runCommit env d request admission).2.files =
        rolledBack env admission (failedDisk env d request admission).files ∧
      env.sourceRestore = none ∧ env.projectionRestore = none := by
  unfold runCommit at h ⊢
  unfold failedDisk
  cases hlock : env.lock with
  | some raised =>
    rw [hlock] at h
    exact ⟨rfl, rollbackEnding_raised h⟩
  | none =>
    rw [hlock] at h
    simp only at h ⊢
    split at h
    · cases h
    · exact ⟨rfl, rollbackEnding_raised h⟩
    · exact ⟨rfl, rollbackEnding_raised h⟩

/-- The files that a commit is answerable for: its note, the history, the log and the pages of
the index. -/
def Guarded (request : CommitRequest) (path : RelPath) : Prop :=
  Site.resolvePathInVault request.allowedDirectories request.relPath = .ok path ∨
    path = historyPath ∨ path = logPath ∨ path = mainIndex ∨ isCatalog path = true

/-- The vault lists its catalog pages, before the call and when they are restored. -/
structure ListsPages (env : CommitEnv) (d : Disk) (request : CommitRequest) : Prop where
  before : Lists d.files (env.catalogs d.files)
  failed : ∀ admission, enterMutation env d.files request = .ok (.fresh admission) →
    Lists (sourceRestored env admission (failedDisk env d request admission).files)
      (env.catalogs (sourceRestored env admission (failedDisk env d request admission).files))

/-- The restorations of a rollback that does not fail. -/
def restorations (env : CommitEnv) (admission : Admission) (state : Files) :
    List (RelPath × Option Bytes) :=
  admission.targetSnapshot.restoration ::
    (restoreProjection (env.catalogs (sourceRestored env admission state)) admission.snapshots ++
      [admission.historySnapshot.restoration, admission.logSnapshot.restoration])

theorem rolledBack_eq (hsource : env.sourceRestore = none) (hprojection : env.projectionRestore = none)
    (state : Files) :
    rolledBack env admission state = perform (restorations env admission state) state := by
  unfold rolledBack restoreRest restorations
  rw [hprojection, perform_cons]
  simp only
  congr 1
  unfold sourceRestored restoreSource
  rw [hsource]
  rfl

/-- A captured file has its restoration among them. -/
theorem mem_restorations (hcaptured : Captured env files admission) {snapshot : FileSnapshot}
    {state : Files} (hcapture : captureFile files path = .ok snapshot)
    (h : path = admission.target ∨ path = historyPath ∨ path = logPath ∨
      path ∈ projectionPaths (env.catalogs files)) :
    (path, snapshot.restoration.2) ∈ restorations env admission state := by
  have hpair : ∀ other, captureFile files path = .ok other →
      (path, snapshot.restoration.2) = other.restoration := by
    intro other hother
    rw [hcapture] at hother
    cases hother
    exact Prod.ext (restoration_of_capture hcapture).1.symm rfl
  unfold restorations restoreProjection
  rcases h with rfl | rfl | rfl | hpage
  · rw [hpair _ hcaptured.target]
    exact List.mem_cons_self
  · rw [hpair _ hcaptured.history]
    simp
  · rw [hpair _ hcaptured.log]
    simp
  · obtain ⟨other, hother, hcapture'⟩ := exists_of_mapM hcaptured.pages hpage
    rw [hpair _ hcapture']
    refine List.mem_cons_of_mem _ (List.mem_append_left _ (List.mem_append_right _ ?_))
    exact List.mem_map_of_mem hother

/-- After a rollback a guarded file is as it was captured. -/
theorem rolledBack_guarded (hentered : enterMutation env d.files request = .ok (.fresh admission))
    (hlists : ListsPages env d request) (hsource : env.sourceRestore = none)
    (hprojection : env.projectionRestore = none) (hpath : Guarded request path) :
    ∃ snapshot, captureFile d.files path = .ok snapshot ∧
      rolledBack env admission (failedDisk env d request admission).files path =
        snapshot.restoration.2 := by
  obtain ⟨hresolve, -, hcapture⟩ := enterMutation_fresh hentered
  obtain ⟨-, hcaptured, -⟩ := capture_ok hcapture
  have hafter := hlists.failed admission hentered
  generalize (failedDisk env d request admission).files = state at hafter ⊢
  rw [rolledBack_eq hsource hprojection]
  have hwrites : ∀ write ∈ restorations env admission state, PutsBack d.files write := by
    rw [restorations, List.forall_mem_cons]
    refine ⟨(restoration_of_capture hcaptured.target).2, fun write hwrite => ?_⟩
    exact putsBack_of_mem hcaptured hlists.before (fun path hmem => ((hafter path).mp hmem).1) hwrite
  by_cases hknown : path = admission.target ∨ path = historyPath ∨ path = logPath ∨
      path ∈ projectionPaths (env.catalogs d.files)
  · have hsnapshot : ∃ snapshot, captureFile d.files path = .ok snapshot := by
      rcases hknown with rfl | rfl | rfl | hpage
      · exact ⟨_, hcaptured.target⟩
      · exact ⟨_, hcaptured.history⟩
      · exact ⟨_, hcaptured.log⟩
      · obtain ⟨snapshot, -, hsnapshot⟩ := exists_of_mapM hcaptured.pages hpage
        exact ⟨snapshot, hsnapshot⟩
    obtain ⟨snapshot, hsnapshot⟩ := hsnapshot
    exact ⟨snapshot, hsnapshot,
      perform_putsBack hwrites (mem_restorations hcaptured hsnapshot hknown) hsnapshot state⟩
  · -- a catalog page that was not there when the call began
    simp only [projectionPaths, List.mem_cons, not_or] at hknown
    obtain ⟨htarget, hhistory, hlog, hmain, hpage⟩ := hknown
    have hcatalog : isCatalog path = true := by
      rcases hpath with htarget' | hhistory' | hlog' | hmain' | hcatalog
      · rw [hresolve] at htarget'
        exact absurd (Except.ok.inj htarget').symm htarget
      · exact absurd hhistory' hhistory
      · exact absurd hlog' hlog
      · exact absurd hmain' hmain
      · exact hcatalog
    have hnone : d.files path = none := by
      by_contra hsome
      exact hpage ((hlists.before path).mpr ⟨hcatalog, hsome⟩)
    have hcapture : captureFile d.files path = .ok ⟨path, false, ""⟩ := by
      simp [captureFile, hnone]
    refine ⟨_, hcapture, ?_⟩
    by_cases hmem : (path, none) ∈ restorations env admission state
    · exact perform_putsBack hwrites hmem hcapture state
    · have hother : ∀ write ∈ restorations env admission state, write.1 ≠ path := by
        intro write hwrite hkey
        obtain ⟨snapshot, hsnapshot, hcontent⟩ := hwrites write hwrite
        rw [hkey, hcapture] at hsnapshot
        cases hsnapshot
        refine hmem ?_
        have hpair : write = (path, none) := Prod.ext hkey hcontent
        rw [← hpair]
        exact hwrite
      rw [perform_of_forall_ne hother]
      -- it was not listed when the pages were restored, so it is not there then
      show state path = none
      have hsame : sourceRestored env admission state path = state path := by
        refine perform_of_forall_ne ?_ state
        intro write hwrite
        unfold restoreSource at hwrite
        rw [hsource] at hwrite
        rw [List.mem_singleton.mp hwrite, (restoration_of_capture hcaptured.target).1]
        exact Ne.symm htarget
      by_contra hsome
      rw [← hsame] at hsome
      have hlisted := (hafter path).mpr ⟨hcatalog, hsome⟩
      refine hmem (List.mem_cons_of_mem _ (List.mem_append_left _ (List.mem_append_left _ ?_)))
      refine List.mem_map.mpr ⟨path, List.mem_filter.mpr ⟨List.mem_cons_of_mem _ hlisted, ?_⟩, rfl⟩
      rw [decide_eq_true_eq, mem_before hcaptured, projectionPaths, List.mem_cons, not_or]
      exact ⟨hmain, hpage⟩

/-! ## Unchanged files -/

/-- The guarded files are what they were. -/
def Unchanged (request : CommitRequest) (before after : Files) : Prop :=
  ∀ path, Guarded request path → after path = before path

/-- No guarded file has a carriage return. -/
def NewlinesOnly (request : CommitRequest) (files : Files) : Prop :=
  ∀ path, Guarded request path → ∀ data, files path = some data → carriageReturn ∉ data

/-- The call is refused before the block whose exceptions are handled. -/
def Refused (env : CommitEnv) (files : Files) (request : CommitRequest) : Prop :=
  (∃ exn, enterMutation env files request = .error exn) ∨ env.openStore ≠ none

theorem unchanged_of_refused (h : Refused env d.files request) :
    (commitNoteChange env d request).2 = d := by
  unfold commitNoteChange
  split
  · rfl
  · rfl
  · next admission hentered =>
    rcases h with ⟨exn, hexn⟩ | hopen
    · rw [hentered] at hexn
      cases hexn
    · split
      · rfl
      · next hnone => exact absurd hnone hopen

theorem commitNoteChange_of_fresh (h : enterMutation env d.files request = .ok (.fresh admission))
    (hopen : env.openStore = none) :
    commitNoteChange env d request = runCommit env d request admission := by
  unfold commitNoteChange
  rw [h]
  simp only
  rw [hopen]

/-- A commit that raises, and whose rollback does not fail, leaves the guarded files as they were
exactly when it is refused before its captures or none of them has a carriage return. -/
theorem unchanged_iff (h : (commitNoteChange env d request).1 = .raised exn)
    (hlists : ListsPages env d request) :
    Unchanged request d.files (commitNoteChange env d request).2.files ↔
      Refused env d.files request ∨ NewlinesOnly request d.files := by
  by_cases hrefused : Refused env d.files request
  · rw [unchanged_of_refused hrefused]
    exact ⟨fun _ => .inl hrefused, fun _ _ _ => rfl⟩
  · have hadmitted : ∃ admission, enterMutation env d.files request = .ok (.fresh admission) := by
      cases hentered : enterMutation env d.files request with
      | error refused => exact absurd (.inl ⟨refused, hentered⟩) hrefused
      | ok admitted =>
        cases admitted with
        | fresh admission => exact ⟨admission, rfl⟩
        | replay receipt =>
          unfold commitNoteChange at h
          rw [hentered] at h
          cases h
    obtain ⟨admission, hentered⟩ := hadmitted
    have hopen : env.openStore = none := by
      by_contra hsome
      exact hrefused (.inr hsome)
    rw [commitNoteChange_of_fresh hentered hopen] at h ⊢
    obtain ⟨hfiles, hsource, hprojection⟩ := runCommit_raised h
    have hback := fun path (hpath : Guarded request path) =>
      rolledBack_guarded hentered hlists hsource hprojection hpath
    simp only [hrefused, false_or]
    rw [hfiles]
    constructor
    · intro hunchanged path hpath
      obtain ⟨snapshot, hcapture, hsame⟩ := hback path hpath
      rw [← restoration_iff hcapture, ← hsame]
      exact hunchanged path hpath
    · intro hnewlines path hpath
      obtain ⟨snapshot, hcapture, hsame⟩ := hback path hpath
      rw [hsame, restoration_iff hcapture]
      exact hnewlines path hpath

end

/-! ## A note with carriage returns -/

/-- A note of the projects. -/
def planNote : RelPath := ["01_Projects", "plan.md"]

abbrev Site.plain : Site where
  isDigit text := text.toList.all isDigit && !text.isEmpty
  resolvePathInVault _ relPath :=
    if relPath = "01_Projects/plan.md" then .ok planNote
    else .error (valueError "Target parent is outside the vault or does not exist")
  resolve_markdown h := by
    split_ifs at h
    cases h
    decide
  validMetadata _ := true

/-- A vault with one note. -/
def noteVault (text : String) : Disk :=
  ⟨Function.update (fun _ => none) planNote (some (encodeText text)), ∅, []⟩

/-- A call on a task store whose recovery is blocked. -/
def blockedEnv : CommitEnv where
  now := "2026-01-01T00:00:00+00:00"
  traceId := "0f"
  spanId := "0f"
  durationMs := "1.000"
  txId := "0f"
  vault := "/vault"
  fs := .ordered
  catalogs _ := []
  openStore := none
  lock := some (runtimeError "TaskStore recovery is blocked; repair preserved transaction evidence")
  noteWrite := none
  logWrite := none
  generateIndex := pure ""
  lint _ := .ok ⟨0, 0, 0, 0, 0⟩
  denseChunks := .ok 0
  sync _ _ := .ok ⟨"g1", 1, 1, 0⟩
  historyWrite := none
  sourceRestore := none
  projectionRestore := none
  resync := none

def planRequest (content : String) : CommitRequest where
  relPath := "01_Projects/plan.md"
  content := content
  expectedBeforeSha256 := none
  requireAbsent := false
  allowedDirectories := none
  operation := "memory.apply"
  logEntry := none
  proposalId := none
  idempotencyKey := none
  idempotencyFingerprint := none

attribute [local instance] Site.plain

theorem lists_nothing {files : Files} (h : ∀ path, isCatalog path = true → files path = none) :
    Lists files [] := by
  intro path
  constructor
  · intro hmem
    cases hmem
  · rintro ⟨hcatalog, hsome⟩
    exact absurd (h path hcatalog) hsome

theorem noteVault_catalog (text : String) {path : RelPath} (h : isCatalog path = true) :
    (noteVault text).files path = none := by
  have hne : path ≠ planNote := by
    rintro rfl
    revert h
    decide
  show Function.update (fun _ => none) planNote _ path = none
  rw [Function.update_of_ne hne]

theorem listsPages_blocked (text content : String) :
    ListsPages blockedEnv (noteVault text) (planRequest content) := by
  refine ⟨lists_nothing fun path => noteVault_catalog text, fun admission hentered => ?_⟩
  obtain ⟨-, -, hcapture⟩ := enterMutation_fresh hentered
  obtain ⟨-, hcaptured, -⟩ := capture_ok hcapture
  refine lists_nothing fun path hcatalog => ?_
  have hresolve := (enterMutation_fresh hentered).1
  have htarget : admission.target = planNote := (Except.ok.inj hresolve).symm
  have hpath := (restoration_of_capture hcaptured.target).1
  have hne : path ≠ admission.targetSnapshot.restoration.1 := by
    rw [hpath, htarget]
    rintro rfl
    revert hcatalog
    decide
  show Function.update (noteVault text).files _ _ path = none
  rw [Function.update_of_ne hne]
  exact noteVault_catalog text hcatalog

/-- A note without carriage returns is left as it was. -/
theorem unchanged_newlines :
    Unchanged (planRequest "Goal\n") (noteVault "Plan\n").files
      (commitNoteChange blockedEnv (noteVault "Plan\n") (planRequest "Goal\n")).2.files := by
  have hraised : (commitNoteChange blockedEnv (noteVault "Plan\n") (planRequest "Goal\n")).1 =
      .raised (runtimeError
        "TaskStore recovery is blocked; repair preserved transaction evidence") := by
    rfl
  refine (unchanged_iff hraised (listsPages_blocked _ _)).mpr (.inr ?_)
  intro path hpath data hdata
  by_cases hnote : path = planNote
  · subst hnote
    cases hdata
    decide
  · have hnone : (noteVault "Plan\n").files path = none := by
      show Function.update (fun _ => none) planNote _ path = none
      rw [Function.update_of_ne hnote]
    rw [hnone] at hdata
    cases hdata

/-- A note with a carriage return is written again without it. -/
theorem changed_crlf :
    (∃ exn, (commitNoteChange blockedEnv (noteVault "Plan\r\n") (planRequest "Goal\n")).1 =
      .raised exn) ∧
    (noteVault "Plan\r\n").files planNote = some (encodeText "Plan\r\n") ∧
    (commitNoteChange blockedEnv (noteVault "Plan\r\n") (planRequest "Goal\n")).2.files planNote =
      some (encodeText "Plan\n") ∧
    ¬ Unchanged (planRequest "Goal\n") (noteVault "Plan\r\n").files
      (commitNoteChange blockedEnv (noteVault "Plan\r\n") (planRequest "Goal\n")).2.files := by
  have hafter : (commitNoteChange blockedEnv (noteVault "Plan\r\n")
      (planRequest "Goal\n")).2.files planNote = some (encodeText "Plan\n") := by
    rfl
  have hbefore : (noteVault "Plan\r\n").files planNote = some (encodeText "Plan\r\n") := by
    rfl
  refine ⟨⟨_, rfl⟩, hbefore, hafter, fun hunchanged => ?_⟩
  have hsame := hunchanged planNote (.inl rfl)
  rw [hafter, hbefore] at hsame
  revert hsame
  decide

end PowerFramework.Memory
