import PowerFramework.Lib.Run
import PowerFramework.Native.Install
/-!
# Rolling back a native install

What a call has changed when a step of it raises, field by field, and what the roll-back leaves of
it.  A launcher that is a shell script is put back as a symlink: the bits of `stat.S_IFREG` are
among those of `stat.S_IFLNK`.
-/

set_option linter.unusedSectionVars false

namespace PowerFramework.Native

open Lib Lib.Failure Lib.Run

variable {install : Install} {intrusion : Option (Step × Entry)} {start : Layout}
  {first run next : Run} {step fault : Step}

/-! ## The checks in front of the `try` -/

/-- A call that comes to its `try`. -/
structure Prepared (install : Install) (start : Layout) (run : Run) : Prop where
  layout : run.layout = start
  previousCurrentTarget : run.previousCurrentTarget = start.current
  launcherSnapshots :
    run.launcherSnapshots = fun launcher => (start.launchers launcher).map snapshot
  stateSnapshot : run.stateSnapshot = stateText start.state
  pointerActivated : run.pointerActivated = false
  stagingSlot : run.stagingSlot = false
  retiredLegacyLink : run.retiredLegacyLink = none
  foreign : run.foreign = none
  slot : start.releases install.slotName = none
  state : ∀ target, start.state ≠ some (.symlink target)
  current : start.current ≠ some install.relativeSlot

theorem prepare_ok (h : prepare install start = .ok run) : Prepared install start run := by
  unfold prepare at h
  obtain ⟨⟨⟩, hstate, h1⟩ := bind_eq_ok.mp h
  obtain ⟨⟨⟩, -, h2⟩ := bind_eq_ok.mp h1
  obtain ⟨⟨⟩, hslot, h3⟩ := bind_eq_ok.mp h2
  obtain ⟨⟨⟩, hcurrent, h4⟩ := bind_eq_ok.mp h3
  obtain ⟨⟨⟩, -, h5⟩ := bind_eq_ok.mp h4
  cases h5
  have hslot : start.releases install.slotName = none := not_not.mp (raiseIf_eq_ok.mp hslot)
  constructor
  case slot => exact hslot
  case state =>
    intro target heq
    rw [checkState, heq] at hstate
    cases hstate
  case current =>
    intro heq
    rw [checkCurrent, heq] at hcurrent
    simp only [Install.relativeSlot, install.releaseOf_relative, Option.bind_some, hslot]
      at hcurrent
    cases hcurrent
  all_goals rfl

/-! ## What one step changes -/

theorem exec_ok (h : step.exec install run = .ok next) :
    step.check install run = .ok () ∧ next = step.effect install run := by
  unfold Step.exec at h
  obtain ⟨⟨⟩, hcheck, h1⟩ := bind_eq_ok.mp h
  cases h1
  exact ⟨hcheck, rfl⟩

/-- An intrusion changes the release slot only. -/
theorem intrude_eq (install : Install) (intrusion : Option (Step × Entry)) (run : Run)
    (step : Step) : intrude install intrusion run step = run ∨
    ∃ entry, intrude install intrusion run step =
      { run.setRelease install.slotName (some entry) with foreign := some entry } := by
  unfold intrude
  split
  · exact Or.inl rfl
  · next place entry =>
      split
      · exact Or.inr ⟨entry, rfl⟩
      · exact Or.inl rfl

/-- A value that the other process does not touch. -/
theorem intrude_same {β : Type} (π : Run → β)
    (hπ : ∀ mid entry, π { mid.setRelease install.slotName (some entry) with
      foreign := some entry } = π mid) :
    π (intrude install intrusion run step) = π run := by
  rcases intrude_eq install intrusion run step with heq | ⟨entry, heq⟩
  · rw [heq]
  · rw [heq, hπ]

theorem advance_ok (h : advance install intrusion run step = .ok next) :
    step.check install (intrude install intrusion run step) = .ok () ∧
      next = step.effect install (intrude install intrusion run step) := exec_ok h

theorem nodup_steps : steps.Nodup := by
  decide

theorem earlier_starts (step : Step) : step.earlier <+: steps := List.takeWhile_prefix _

theorem nodup_earlier (step : Step) : step.earlier.Nodup :=
  nodup_steps.sublist (earlier_starts step).sublist

/-- Where a run of the steps stands, it has done the steps in front of the next one. -/
theorem eq_earlier {before : List Step} (h : before ++ [step] <+: fault.earlier) :
    before = step.earlier := by
  obtain ⟨after, hafter⟩ := h.trans (earlier_starts fault)
  have hnot : step ∉ before := by
    have hnodup : (before ++ [step]).Nodup :=
      nodup_steps.sublist (h.trans (earlier_starts fault)).sublist
    intro hmem
    exact (List.disjoint_of_nodup_append hnodup) hmem (by simp)
  rw [Step.earlier, ← hafter, List.append_assoc, List.takeWhile_append_of_pos]
  · simp
  · intro other hother
    simp only [ne_eq, decide_eq_true_eq]
    exact fun heq => hnot (heq ▸ hother)

/-- A value that one step changes, in front of a step that raises. -/
theorem field_of_run {β : Type} (π : Run → β) (f : β → β) (changing : Step)
    (hintrude : ∀ mid entry, π { mid.setRelease install.slotName (some entry) with
      foreign := some entry } = π mid)
    (hsame : ∀ mid other, other ≠ changing → π (other.effect install mid) = π mid)
    (hchange : ∀ mid, π (changing.effect install mid) = f (π mid))
    (h : fault.earlier.foldlM (advance install intrusion) first = .ok run) :
    π run = if changing ∈ fault.earlier then f (π first) else π first := by
  refine foldlM_field ?_ ?_ (nodup_earlier fault) h
  · intro mid other next hother hadvance
    obtain ⟨-, rfl⟩ := advance_ok hadvance
    rw [hsame _ other hother, intrude_same π hintrude]
  · intro mid next hadvance
    obtain ⟨-, rfl⟩ := advance_ok hadvance
    rw [hchange, intrude_same π hintrude]

section Fields

variable (hrun : fault.earlier.foldlM (advance install intrusion) first = .ok run)

include hrun

theorem current_of_run : run.layout.current =
    if .replacePointer ∈ fault.earlier then some install.relativeSlot else first.layout.current :=
  field_of_run (fun mid => mid.layout.current) (fun _ => some install.relativeSlot)
    .replacePointer (fun _ _ => rfl) (by
      intro mid other hother
      cases other <;> first | rfl | exact absurd rfl hother) (fun _ => rfl) hrun

theorem pointerActivated_of_run : run.pointerActivated =
    if .cleanTemporary ∈ fault.earlier then true else first.pointerActivated :=
  field_of_run (fun mid => mid.pointerActivated) (fun _ => true)
    .cleanTemporary (fun _ _ => rfl) (by
      intro mid other hother
      cases other <;> first | rfl | exact absurd rfl hother) (fun _ => rfl) hrun

theorem power_of_run : run.layout.launchers .power =
    if .movePower ∈ fault.earlier then some (.symlink (install.expectedTarget .power))
    else first.layout.launchers .power :=
  field_of_run (fun mid => mid.layout.launchers .power)
    (fun _ => some (.symlink (install.expectedTarget .power)))
    .movePower (fun _ _ => rfl) (by
      intro mid other hother
      cases other <;> first | rfl | exact absurd rfl hother) (fun _ => rfl) hrun

theorem powerMcp_of_run : run.layout.launchers .powerMcp =
    if .movePowerMcp ∈ fault.earlier then some (.symlink (install.expectedTarget .powerMcp))
    else first.layout.launchers .powerMcp :=
  field_of_run (fun mid => mid.layout.launchers .powerMcp)
    (fun _ => some (.symlink (install.expectedTarget .powerMcp)))
    .movePowerMcp (fun _ _ => rfl) (by
      intro mid other hother
      cases other <;> first | rfl | exact absurd rfl hother) (fun _ => rfl) hrun

theorem powerGui_of_run : run.layout.launchers .powerGui =
    if .retirePowerGui ∈ fault.earlier then none else first.layout.launchers .powerGui :=
  field_of_run (fun mid => mid.layout.launchers .powerGui) (fun _ => none)
    .retirePowerGui (fun _ _ => rfl) (by
      intro mid other hother
      cases other <;> first | rfl | exact absurd rfl hother) (fun _ => rfl) hrun

theorem legacyVenv_of_run : run.layout.legacyVenv =
    if .retireLegacy ∈ fault.earlier then first.layout.legacyVenv.unlinked
    else first.layout.legacyVenv :=
  field_of_run (fun mid => mid.layout.legacyVenv) LegacyVenv.unlinked
    .retireLegacy (fun _ _ => rfl) (by
      intro mid other hother
      cases other <;> first | rfl | exact absurd rfl hother) (fun _ => rfl) hrun

theorem state_of_run : run.layout.state =
    if .writeState ∈ fault.earlier then some (.regular install.receipt 0o600)
    else first.layout.state :=
  field_of_run (fun mid => mid.layout.state) (fun _ => some (.regular install.receipt 0o600))
    .writeState (fun _ _ => rfl) (by
      intro mid other hother
      cases other <;> first | rfl | exact absurd rfl hother) (fun _ => rfl) hrun

/-- The snapshots are taken once. -/
theorem snapshots_of_run : run.previousCurrentTarget = first.previousCurrentTarget ∧
    run.launcherSnapshots = first.launcherSnapshots ∧ run.stateSnapshot = first.stateSnapshot := by
  have hsame := field_of_run
    (fun mid => (mid.previousCurrentTarget, mid.launcherSnapshots, mid.stateSnapshot)) id
    .buildReceipt (fun _ _ => rfl) (by
      intro mid other _
      cases other <;> rfl) (fun _ => rfl) hrun
  simpa using hsame

theorem retiredLegacyLink_of_run (hfirst : first.retiredLegacyLink = none) :
    run.retiredLegacyLink =
      if .readLegacy ∈ fault.earlier then first.layout.legacyVenv.link? else none := by
  refine foldlM_history_prefix (P := fun before mid => mid.retiredLegacyLink =
    if .readLegacy ∈ before then first.layout.legacyVenv.link? else none) (by simpa) ?_ hrun
  intro before mid step next hprefix hbefore ih hstep
  obtain ⟨-, rfl⟩ := advance_ok hstep
  obtain rfl := eq_earlier hprefix
  by_cases hread : step = .readLegacy
  · subst hread
    have hlegacy := legacyVenv_of_run hbefore
    rw [if_neg (by decide)] at hlegacy
    have hsame : (intrude install intrusion mid .readLegacy).layout.legacyVenv =
        mid.layout.legacyVenv :=
      intrude_same (fun mid => mid.layout.legacyVenv) (fun _ _ => rfl)
    simp only [Step.effect, hsame, hlegacy]
    simp
  · have hsame : (intrude install intrusion mid step).retiredLegacyLink = mid.retiredLegacyLink :=
      intrude_same (fun mid => mid.retiredLegacyLink) (fun _ _ => rfl)
    have heffect : ∀ mid : Run, (step.effect install mid).retiredLegacyLink =
        mid.retiredLegacyLink := by
      intro mid
      cases step <;> first | rfl | exact absurd rfl hread
    rw [heffect, hsame, ih]
    simp [Ne.symm hread]

end Fields

/-! ## The release slot -/

theorem staging_ne_slotName : install.staging ≠ install.slotName := by
  intro h
  have hlength := congrArg String.length h
  simp only [Install.staging, String.length_append] at hlength
  have hdot : ".".length = 1 := rfl
  omega

/-- What another process has put at the slot, in front of one of these steps. -/
def appeared (intrusion : Option (Step × Entry)) (seen : List Step) : Option Entry :=
  match intrusion with
  | none => none
  | some (place, entry) => if place ∈ seen ∧ .promote ∉ place.earlier then some entry else none

/-- The release slot and the staging directory, where the steps `done` have returned and the other
process has had its turn in front of the steps `seen`. -/
structure SlotState (install : Install) (intrusion : Option (Step × Entry)) (done seen : List Step)
    (run : Run) : Prop where
  foreign : run.foreign = appeared intrusion seen
  free : .promote ∉ done → run.layout.releases install.slotName = run.foreign
  filled : .promote ∈ done →
    run.layout.releases install.slotName = some (.directory ["venv"]) ∧
      run.foreign ∈ [none, some (.directory [])]
  staged : .createVenv ∈ done → .promote ∉ done →
    run.layout.releases install.staging = some (.directory ["venv"])

theorem notMem_earlier (step : Step) : step ∉ step.earlier := by
  intro h
  have hall : step.earlier.all fun other => other ≠ step := List.all_takeWhile
  simpa using List.all_eq_true.mp hall step h

theorem slotState_intrude (h : SlotState install intrusion step.earlier step.earlier run) :
    SlotState install intrusion step.earlier (step.earlier ++ [step])
      (intrude install intrusion run step) := by
  obtain ⟨hforeign, hfree, hfilled, hstaged⟩ := h
  cases intrusion with
  | none => exact ⟨hforeign, hfree, hfilled, hstaged⟩
  | some pair =>
      obtain ⟨place, entry⟩ := pair
      by_cases hplace : place = step
      · subst hplace
        have hnone : run.foreign = none := by
          rw [hforeign]
          simp [appeared, notMem_earlier]
        by_cases hpromoted : .promote ∈ place.earlier
        · have hslot := (hfilled hpromoted).1
          have hsame : intrude install (some (place, entry)) run place = run := by
            simp [intrude, hslot]
          rw [hsame]
          constructor
          case foreign => simp [appeared, hnone, hpromoted]
          all_goals assumption
        · have hslot : run.layout.releases install.slotName = none := by
            rw [hfree hpromoted, hnone]
          have hput : intrude install (some (place, entry)) run place =
              { run.setRelease install.slotName (some entry) with foreign := some entry } := by
            simp [intrude, hslot]
          rw [hput]
          constructor
          case foreign => simp [appeared, hpromoted]
          case free => simp [Run.setRelease]
          case filled => exact fun h => absurd h hpromoted
          case staged =>
            intro hvenv _
            have hstaging := hstaged hvenv hpromoted
            simpa [Run.setRelease, staging_ne_slotName] using hstaging
      · have hsame : intrude install (some (place, entry)) run step = run := by
          simp [intrude, hplace]
        rw [hsame]
        constructor
        case foreign => simp [hforeign, appeared, hplace]
        all_goals assumption

theorem effect_releases (h : step ∉ [Step.makeStaging, .createVenv, .promote]) :
    (step.effect install run).layout.releases = run.layout.releases := by
  cases step <;> first | rfl | exact absurd (by decide) h

theorem effect_foreign : (step.effect install run).foreign = run.foreign := by
  cases step <;> rfl

theorem slotState_effect (hcheck : step.check install run = .ok ())
    (h : SlotState install intrusion step.earlier (step.earlier ++ [step]) run) :
    SlotState install intrusion (step.earlier ++ [step]) (step.earlier ++ [step])
      (step.effect install run) := by
  obtain ⟨hforeign, hfree, hfilled, hstaged⟩ := h
  by_cases hquiet : step ∉ [Step.makeStaging, .createVenv, .promote]
  · have hreleases : (step.effect install run).layout.releases = run.layout.releases :=
      effect_releases hquiet
    simp only [List.mem_cons, List.not_mem_nil, or_false, not_or] at hquiet
    have hpromote : Step.promote ∈ step.earlier ++ [step] ↔ .promote ∈ step.earlier := by
      simp [Ne.symm hquiet.2.2]
    have hvenv : Step.createVenv ∈ step.earlier ++ [step] ↔ .createVenv ∈ step.earlier := by
      simp [Ne.symm hquiet.2.1]
    constructor
    case foreign => rw [effect_foreign, hforeign]
    all_goals
      rw [hreleases]
      simpa only [hpromote, hvenv, effect_foreign]
  · simp only [List.mem_cons, List.not_mem_nil, or_false, not_not] at hquiet
    rcases hquiet with rfl | rfl | rfl
    · constructor
      case foreign => exact hforeign
      case free =>
        intro _
        have hslot := hfree (by decide)
        simpa [Step.effect, Run.setRelease, Ne.symm staging_ne_slotName] using hslot
      case filled => exact fun h => absurd h (by decide)
      case staged => exact fun h => absurd h (by decide)
    · constructor
      case foreign => exact hforeign
      case free =>
        intro _
        have hslot := hfree (by decide)
        simpa [Step.effect, Run.setRelease, Ne.symm staging_ne_slotName] using hslot
      case filled => exact fun h => absurd h (by decide)
      case staged =>
        intro _ _
        simp [Step.effect, Run.setRelease]
    · have hslot := hfree (by decide)
      have hallowed := not_not.mp (raiseIf_eq_ok.mp hcheck)
      have hstaging := hstaged (by decide) (by decide)
      constructor
      case foreign => exact hforeign
      case free => exact fun h => absurd (by simp) h
      case filled =>
        intro _
        rw [hslot] at hallowed
        refine ⟨?_, hallowed⟩
        simp [Step.effect, Run.setRelease, Ne.symm staging_ne_slotName, hstaging]
      case staged => exact fun _ h => absurd (by simp) h

theorem slotState_of_run (hforeign : first.foreign = none)
    (hslot : first.layout.releases install.slotName = none)
    (hrun : fault.earlier.foldlM (advance install intrusion) first = .ok run) :
    SlotState install intrusion fault.earlier fault.earlier run := by
  refine foldlM_history_prefix (P := fun before mid => SlotState install intrusion before before mid)
    ?_ ?_ hrun
  · constructor
    case foreign =>
      rw [hforeign]
      cases intrusion <;> simp [appeared]
    case free => simp [hslot, hforeign]
    all_goals simp
  · intro before mid step next hprefix _ ih hstep
    obtain ⟨hcheck, rfl⟩ := advance_ok hstep
    obtain rfl := eq_earlier hprefix
    exact slotState_effect hcheck (slotState_intrude ih)

/-- The staging directory is new, and everything else in `releases/` stays as it was. -/
structure Untouched (install : Install) (start : Layout) (done : List Step) (run : Run) : Prop where
  other : ∀ name, name ≠ install.slotName → name ≠ install.staging →
    run.layout.releases name = start.releases name
  fresh : .makeStaging ∈ done → start.releases install.staging = none
  early : .makeStaging ∉ done →
    run.layout.releases install.staging = start.releases install.staging ∧ run.stagingSlot = false

theorem untouched_intrude {done : List Step} (h : Untouched install start done run) :
    Untouched install start done (intrude install intrusion run step) := by
  obtain ⟨hother, hfresh, hearly⟩ := h
  rcases intrude_eq install intrusion run step with heq | ⟨entry, heq⟩
  · rw [heq]
    exact ⟨hother, hfresh, hearly⟩
  · rw [heq]
    constructor
    case other =>
      intro name hslot hstaging
      simpa [Run.setRelease, hslot] using hother name hslot hstaging
    case fresh => exact hfresh
    case early =>
      intro hnot
      simpa [Run.setRelease, staging_ne_slotName] using hearly hnot

theorem untouched_effect (hcheck : step.check install run = .ok ())
    (h : Untouched install start step.earlier run) :
    Untouched install start (step.earlier ++ [step]) (step.effect install run) := by
  obtain ⟨hother, hfresh, hearly⟩ := h
  by_cases hmake : step = .makeStaging
  · subst hmake
    have hnone := not_not.mp (raiseIf_eq_ok.mp hcheck)
    have hstaging := (hearly (by decide)).1
    constructor
    case other =>
      intro name hslot hne
      simpa [Step.effect, Run.setRelease, hne] using hother name hslot hne
    case fresh =>
      intro _
      rw [← hstaging, hnone]
    case early => exact fun h => absurd (by simp) h
  · have hmade : .makeStaging ∈ step.earlier := by
      cases step <;> first | decide | exact absurd rfl hmake
    constructor
    case other =>
      intro name hslot hne
      rw [← hother name hslot hne]
      cases step <;> first | rfl | simp [Step.effect, Run.setRelease, hslot, hne]
    case fresh => exact fun _ => hfresh hmade
    case early => exact fun hnot => absurd (by simp [hmade]) hnot

theorem untouched_of_run (hlayout : first.layout = start) (hstaging : first.stagingSlot = false)
    (hrun : fault.earlier.foldlM (advance install intrusion) first = .ok run) :
    Untouched install start fault.earlier run := by
  refine foldlM_history_prefix (P := fun before mid => Untouched install start before mid)
    ?_ ?_ hrun
  · constructor
    case other => simp [hlayout]
    case fresh => simp
    case early => simp [hlayout, hstaging]
  · intro before mid step next hprefix _ ih hstep
    obtain ⟨hcheck, rfl⟩ := advance_ok hstep
    obtain rfl := eq_earlier hprefix
    exact untouched_effect hcheck (untouched_intrude ih)

/-! ## What the roll-back decides -/

/-- What is left at a path by `_remove_managed_path`. -/
def kept : Option Entry → Option Entry
  | some (.file content) => some (.file content)
  | _ => none

theorem removeManagedPath_eq (name : String) :
    removeManagedPath name run = run.setRelease name (kept (run.layout.releases name)) := by
  unfold removeManagedPath
  split
  · next content heq =>
      rw [heq, kept, ← heq, Run.setRelease, Function.update_eq_self]
  · next hnot =>
      unfold kept
      split
      · next content heq => exact absurd heq (hnot content)
      · rfl

/-- The mode of a regular file has a bit in common with the mask of the roll-back. -/
theorem regular_linkBits (permissions : Fin 0o10000) :
    (regularBit + permissions) &&& linkBits ≠ 0 := by
  intro h
  have hbit : ((regularBit + permissions) &&& linkBits).testBit 15 = true := by
    rw [Nat.testBit_and, show regularBit = 2 ^ 15 from rfl, Nat.testBit_two_pow_add_eq,
      Nat.testBit_lt_two_pow (by omega)]
    rfl
  rw [h] at hbit
  cases hbit

/-- A launcher is put back as it was exactly if it is not a script. -/
theorem restored_eq_iff (node : Option Node) : restored (node.map snapshot) = node ↔
    ∀ content permissions, node ≠ some (.regular content permissions) := by
  rcases node with - | ⟨target⟩ | ⟨content, permissions⟩
  · simp [restored]
  · simp [restored, snapshot, linkBits]
  · simp [restored, snapshot, regular_linkBits]

theorem restoreLaunchers_eq : Launcher.all.foldl restoreLauncher run =
    { run with layout :=
        { run.layout with launchers := fun name => restored (run.launcherSnapshots name) } } := by
  have hlaunchers : (Launcher.all.foldl restoreLauncher run).layout.launchers =
      fun name => restored (run.launcherSnapshots name) := by
    funext name
    cases name <;> rfl
  rw [← hlaunchers]
  rfl

/-- `install.json` gets its content back, and its permissions if it has not been replaced. -/
theorem writeBytes_eq_iff {content text : String} {permissions : Fin 0o10000} {present : Prop}
    [Decidable present] :
    writeBytes content (if present then some (.regular text 0o600)
        else some (.regular content permissions)) = .regular content permissions ↔
      (present → permissions = 0o600) := by
  by_cases hpresent : present
  · simp only [hpresent, if_true, writeBytes, Node.regular.injEq, true_and, true_implies]
    exact eq_comm
  · simp [hpresent, writeBytes]

/-! ## Order of the steps -/

theorem cleanTemporary_of_replacePointer (h : .replacePointer ∈ fault.earlier) :
    .cleanTemporary ∈ fault.earlier ∨ fault = .cleanTemporary := by
  cases fault <;> revert h <;> decide

theorem replacePointer_of_cleanTemporary (h : .cleanTemporary ∈ fault.earlier) :
    .replacePointer ∈ fault.earlier := by
  cases fault <;> revert h <;> decide

theorem retireLegacy_of_readLegacy (h : .readLegacy ∈ fault.earlier) :
    .retireLegacy ∈ fault.earlier ∨ fault = .retireLegacy := by
  cases fault <;> revert h <;> decide

theorem readLegacy_of_retireLegacy (h : .retireLegacy ∈ fault.earlier) :
    .readLegacy ∈ fault.earlier := by
  cases fault <;> revert h <;> decide

/-! ## Calls that raise -/

/-- What a call has done that raises at a step of its `try`. -/
structure Raised (install : Install) (intrusion : Option (Step × Entry)) (start : Layout)
    (fault : Step) (run : Run) : Prop where
  current : run.layout.current =
    if .replacePointer ∈ fault.earlier then some install.relativeSlot else start.current
  pointerActivated : run.pointerActivated = decide (.cleanTemporary ∈ fault.earlier)
  power : run.layout.launchers .power =
    if .movePower ∈ fault.earlier then some (.symlink (install.expectedTarget .power))
    else start.launchers .power
  powerMcp : run.layout.launchers .powerMcp =
    if .movePowerMcp ∈ fault.earlier then some (.symlink (install.expectedTarget .powerMcp))
    else start.launchers .powerMcp
  powerGui : run.layout.launchers .powerGui =
    if .retirePowerGui ∈ fault.earlier then none else start.launchers .powerGui
  legacyVenv : run.layout.legacyVenv =
    if .retireLegacy ∈ fault.earlier then start.legacyVenv.unlinked else start.legacyVenv
  retiredLegacyLink : run.retiredLegacyLink =
    if .readLegacy ∈ fault.earlier then start.legacyVenv.link? else none
  state : run.layout.state =
    if .writeState ∈ fault.earlier then some (.regular install.receipt 0o600) else start.state
  previousCurrentTarget : run.previousCurrentTarget = start.current
  launcherSnapshots :
    run.launcherSnapshots = fun launcher => (start.launchers launcher).map snapshot
  stateSnapshot : run.stateSnapshot = stateText start.state
  slot : SlotState install intrusion fault.earlier (fault.earlier ++ [fault]) run
  untouched : Untouched install start fault.earlier run

theorem raised_of_run (hprepared : Prepared install start first)
    (hrun : fault.earlier.foldlM (advance install intrusion) first = .ok run) :
    Raised install intrusion start fault (intrude install intrusion run fault) := by
  have hlayout := hprepared.layout
  obtain ⟨hprevious, hlaunchers, hstate⟩ := snapshots_of_run hrun
  have hslot := slotState_of_run hprepared.foreign
    (by rw [hlayout, hprepared.slot]) hrun
  constructor
  case current =>
    rw [intrude_same (fun mid => mid.layout.current) (fun _ _ => rfl), current_of_run hrun, hlayout]
  case pointerActivated =>
    rw [intrude_same Run.pointerActivated (fun _ _ => rfl), pointerActivated_of_run hrun,
      hprepared.pointerActivated]
    by_cases hclean : .cleanTemporary ∈ fault.earlier <;> simp [hclean]
  case power =>
    rw [intrude_same (fun mid => mid.layout.launchers .power) (fun _ _ => rfl), power_of_run hrun,
      hlayout]
  case powerMcp =>
    rw [intrude_same (fun mid => mid.layout.launchers .powerMcp) (fun _ _ => rfl),
      powerMcp_of_run hrun, hlayout]
  case powerGui =>
    rw [intrude_same (fun mid => mid.layout.launchers .powerGui) (fun _ _ => rfl),
      powerGui_of_run hrun, hlayout]
  case legacyVenv =>
    rw [intrude_same (fun mid => mid.layout.legacyVenv) (fun _ _ => rfl),
      legacyVenv_of_run hrun, hlayout]
  case retiredLegacyLink =>
    rw [intrude_same Run.retiredLegacyLink (fun _ _ => rfl),
      retiredLegacyLink_of_run hrun hprepared.retiredLegacyLink, hlayout]
  case state =>
    rw [intrude_same (fun mid => mid.layout.state) (fun _ _ => rfl), state_of_run hrun, hlayout]
  case previousCurrentTarget =>
    rw [intrude_same Run.previousCurrentTarget (fun _ _ => rfl), hprevious,
      hprepared.previousCurrentTarget]
  case launcherSnapshots =>
    rw [intrude_same Run.launcherSnapshots (fun _ _ => rfl), hlaunchers,
      hprepared.launcherSnapshots]
  case stateSnapshot =>
    rw [intrude_same Run.stateSnapshot (fun _ _ => rfl), hstate, hprepared.stateSnapshot]
  case slot => exact slotState_intrude hslot
  case untouched =>
    exact untouched_intrude (untouched_of_run hlayout hprepared.stagingSlot hrun)

/-- Everything is as it was before the call, and nothing that the call did not create is removed
from `releases/` or changed. -/
structure RolledBack (install : Install) (start : Layout) (run : Run) : Prop where
  current : run.layout.current = start.current
  launchers : run.layout.launchers = start.launchers
  legacyVenv : run.layout.legacyVenv = start.legacyVenv
  state : run.layout.state = start.state
  releases : ∀ name entry, start.releases name = some entry →
    run.layout.releases name = some entry
  foreign : ∀ entry, run.foreign = some entry →
    run.layout.releases install.slotName = some entry

theorem restorePointer_stagingSlot : (restorePointer run).stagingSlot = run.stagingSlot := by
  unfold restorePointer
  split <;> rfl

theorem restoreLegacy_stagingSlot (h : restoreLegacy run = .ok next) :
    next.stagingSlot = run.stagingSlot := by
  unfold restoreLegacy at h
  split at h
  · cases h
    rfl
  · obtain ⟨⟨⟩, -, h1⟩ := bind_eq_ok.mp h
    cases h1
    rfl

/-- Whether there is a staging directory is not changed by the roll-back. -/
theorem rollBack_stagingSlot : (rollBack install run).stagingSlot = run.stagingSlot := by
  unfold rollBack
  split
  · exact restorePointer_stagingSlot
  · next restored heq =>
      rw [removeManagedPath_eq, restoreLaunchers_eq]
      exact (restoreLegacy_stagingSlot heq).trans restorePointer_stagingSlot

/-- The `finally` clause removes nothing but the staging directory. -/
theorem rolledBack_clean_iff
    (hstaging : run.stagingSlot = true → start.releases install.staging = none) :
    RolledBack install start (clean install run) ↔ RolledBack install start run := by
  unfold clean
  split
  · next htrue =>
      rw [removeManagedPath_eq]
      have hslot : ∀ entry, (run.setRelease install.staging entry).layout.releases
          install.slotName = run.layout.releases install.slotName :=
        run.setRelease_of_ne (Ne.symm staging_ne_slotName)
      have hsame : ∀ name entry, start.releases name = some entry → ∀ left,
          (run.setRelease install.staging left).layout.releases name =
            run.layout.releases name := by
        intro name entry hentry left
        apply run.setRelease_of_ne
        rintro rfl
        rw [hstaging htrue] at hentry
        cases hentry
      constructor
      · intro h
        refine ⟨h.current, h.launchers, h.legacyVenv, h.state, ?_, ?_⟩
        · intro name entry hentry
          rw [← hsame name entry hentry, h.releases name entry hentry]
        · intro entry hentry
          rw [← hslot, h.foreign entry hentry]
      · intro h
        refine ⟨h.current, h.launchers, h.legacyVenv, h.state, ?_, ?_⟩
        · intro name entry hentry
          rw [hsame name entry hentry, h.releases name entry hentry]
        · intro entry hentry
          rw [hslot, h.foreign entry hentry]
  · exact Iff.rfl

/-- The launchers as the call leaves them. -/
def activated (install : Install) : Launcher → Option Node
  | .powerGui => none
  | launcher => some (.symlink (install.expectedTarget launcher))

/-- When another process has put something at the release slot, it is a file. -/
def Harmless (intrusion : Option (Step × Entry)) (fault : Step) : Prop :=
  ∀ entry, appeared intrusion (fault.earlier ++ [fault]) = some entry →
    ∃ content, entry = .file content

/-- The layouts that a call restores which raises at this place. -/
def Restorable (install : Install) (intrusion : Option (Step × Entry)) (start : Layout) :
    Fault → Prop
  | .preparing => True
  | .during fault => Harmless intrusion fault ∧
      if fault = .retireLegacy ∧ start.legacyVenv.link? ≠ none then
        start.launchers = activated install
      else
        fault ≠ .cleanTemporary ∧
        (∀ launcher content permissions,
          start.launchers launcher ≠ some (.regular content permissions)) ∧
        (.writeState ∈ fault.earlier → ∀ content permissions,
          start.state = some (.regular content permissions) → permissions = 0o600)

section Raised

variable (h : Raised install intrusion start fault run)

include h

theorem releases_of_raised {name : String} {entry : Entry}
    (hentry : start.releases name = some entry) (hne : name ≠ install.slotName) :
    run.layout.releases name = some entry := by
  by_cases hstaging : name = install.staging
  · subst hstaging
    have hearly : .makeStaging ∉ fault.earlier := by
      intro hmade
      rw [h.untouched.fresh hmade] at hentry
      cases hentry
    rw [(h.untouched.early hearly).1, hentry]
  · rw [h.untouched.other name hne hstaging, hentry]

theorem staging_of_raised (hstaging : run.stagingSlot = true) :
    start.releases install.staging = none := by
  by_cases hmade : .makeStaging ∈ fault.earlier
  · exact h.untouched.fresh hmade
  · rw [(h.untouched.early hmade).2] at hstaging
    cases hstaging

/-- The pointer is put back unless its step raises between the replacement and the flag. -/
theorem pointer_of_raised (hcurrent : start.current ≠ some install.relativeSlot) :
    (restorePointer run).layout.current = start.current ↔ fault ≠ .cleanTemporary := by
  unfold restorePointer
  rw [h.pointerActivated]
  by_cases hclean : .cleanTemporary ∈ fault.earlier
  · have hne : fault ≠ .cleanTemporary := by
      rintro rfl
      exact notMem_earlier _ hclean
    simp [hclean, hne, Run.setCurrent, h.previousCurrentTarget]
  · simp only [hclean, decide_false, Bool.false_eq_true, if_false, h.current]
    by_cases hreplaced : .replacePointer ∈ fault.earlier
    · have hfault := (cleanTemporary_of_replacePointer hreplaced).resolve_left hclean
      subst hfault
      simp [hreplaced, Ne.symm hcurrent]
    · have hne : fault ≠ .cleanTemporary := by
        rintro rfl
        exact hreplaced (by decide)
      simp [hreplaced, hne]

/-- The legacy link is put back unless the step that unlinks it raises. -/
theorem restoreLegacy_of_raised
    (hfault : ¬ (fault = .retireLegacy ∧ start.legacyVenv.link? ≠ none)) :
    restoreLegacy (restorePointer run) =
      .ok ((restorePointer run).setLegacy start.legacyVenv) := by
  have hpointer : (restorePointer run).retiredLegacyLink = run.retiredLegacyLink ∧
      (restorePointer run).layout.legacyVenv = run.layout.legacyVenv := by
    unfold restorePointer
    split <;> exact ⟨rfl, rfl⟩
  unfold restoreLegacy
  rw [hpointer.1, hpointer.2, h.retiredLegacyLink, h.legacyVenv]
  by_cases hlink : start.legacyVenv.link? = none
  · have hunlinked : start.legacyVenv.unlinked = start.legacyVenv := by
      cases hlegacy : start.legacyVenv with
      | link target =>
          rw [hlegacy] at hlink
          cases hlink
      | absent => rfl
      | directory => rfl
    have hkept : (restorePointer run).setLegacy start.legacyVenv = restorePointer run := by
      have hsame := h.legacyVenv
      rw [hunlinked, ite_self, ← hpointer.2] at hsame
      rw [← hsame]
      rfl
    simp [hlink, hkept]
  · obtain ⟨target, htarget⟩ := Option.ne_none_iff_exists'.mp hlink
    have hlegacy : start.legacyVenv = .link target := by
      cases hvenv : start.legacyVenv with
      | link text =>
          rw [hvenv] at htarget
          cases htarget
          rfl
      | absent =>
          rw [hvenv] at htarget
          cases htarget
      | directory =>
          rw [hvenv] at htarget
          cases htarget
    by_cases hread : .readLegacy ∈ fault.earlier
    · have hretired : .retireLegacy ∈ fault.earlier :=
        (retireLegacy_of_readLegacy hread).resolve_right fun heq => hfault ⟨heq, hlink⟩
      simp only [hread, hretired, if_true, hlegacy, LegacyVenv.link?, LegacyVenv.unlinked]
      rfl
    · have hretired : .retireLegacy ∉ fault.earlier :=
        fun hmem => hread (readLegacy_of_retireLegacy hmem)
      have hkept : (restorePointer run).setLegacy start.legacyVenv = restorePointer run := by
        have hsame := h.legacyVenv
        rw [if_neg hretired, ← hpointer.2] at hsame
        rw [← hsame]
        rfl
      simp [hread, hkept]

/-- What stands at the release slot, with what another process has put there. -/
theorem slot_of_raised : run.layout.releases install.slotName = run.foreign ∨
    run.layout.releases install.slotName = some (.directory ["venv"]) ∧
      run.foreign ∈ [none, some (.directory [])] := by
  by_cases hpromoted : .promote ∈ fault.earlier
  · exact Or.inr (h.slot.filled hpromoted)
  · exact Or.inl (h.slot.free hpromoted)

theorem harmless_iff : Harmless intrusion fault ↔ kept run.foreign = run.foreign := by
  unfold Harmless
  rw [← h.slot.foreign]
  rcases run.foreign with - | entry
  · simp [kept]
  · cases entry <;> simp [kept]

/-- What the roll-back leaves of a release slot that is another process's. -/
theorem foreign_removed_iff :
    (∀ entry, run.foreign = some entry →
      kept (run.layout.releases install.slotName) = some entry) ↔ Harmless intrusion fault := by
  rw [harmless_iff h]
  rcases slot_of_raised h with hsame | ⟨hpromoted, hforeign⟩
  · rw [hsame]
    constructor
    · intro hkept
      cases hforeign : run.foreign with
      | none => rfl
      | some entry => rw [← hforeign, hkept entry hforeign, hforeign]
    · intro hkept entry hentry
      rw [hkept, hentry]
  · rw [hpromoted]
    simp only [List.mem_cons, List.not_mem_nil, or_false] at hforeign
    rcases hforeign with hforeign | hforeign <;> simp [hforeign, kept]

/-- What a release slot is that has not been touched by the roll-back. -/
theorem foreign_kept_iff (hpromoted : .promote ∈ fault.earlier) :
    (∀ entry, run.foreign = some entry →
      run.layout.releases install.slotName = some entry) ↔ Harmless intrusion fault := by
  rw [harmless_iff h]
  obtain ⟨hslot, hforeign⟩ := h.slot.filled hpromoted
  rw [hslot]
  simp only [List.mem_cons, List.not_mem_nil, or_false] at hforeign
  rcases hforeign with hforeign | hforeign <;> simp [hforeign, kept]

/-- The legacy link could not be unlinked: the roll-back ends where it puts the link back. -/
theorem rolledBack_blocked_iff (hslot : start.releases install.slotName = none)
    (hcurrent : start.current ≠ some install.relativeSlot) (hfault : fault = .retireLegacy)
    (hlink : start.legacyVenv.link? ≠ none) :
    RolledBack install start (rollBack install run) ↔
      Harmless intrusion fault ∧ start.launchers = activated install := by
  subst hfault
  have hlayout : (restorePointer run).layout.launchers = run.layout.launchers ∧
      (restorePointer run).layout.legacyVenv = run.layout.legacyVenv ∧
      (restorePointer run).layout.state = run.layout.state ∧
      (restorePointer run).layout.releases = run.layout.releases ∧
      (restorePointer run).foreign = run.foreign ∧
      (restorePointer run).retiredLegacyLink = run.retiredLegacyLink := by
    unfold restorePointer
    split <;> exact ⟨rfl, rfl, rfl, rfl, rfl, rfl⟩
  obtain ⟨hlaunchers, hlegacy, hstate, hreleases, hforeign, hretired⟩ := hlayout
  have hvenv : run.layout.legacyVenv = start.legacyVenv := by
    rw [h.legacyVenv, if_neg (by decide)]
  have hblocked : restoreLegacy (restorePointer run) = .error fileExistsError := by
    obtain ⟨target, htarget⟩ := Option.ne_none_iff_exists'.mp hlink
    have hpresent : start.legacyVenv ≠ .absent := by
      intro habsent
      rw [habsent] at htarget
      cases htarget
    have hread : run.retiredLegacyLink = some target := by
      rw [h.retiredLegacyLink, if_pos (by decide), htarget]
    unfold restoreLegacy
    rw [hretired, hread, hlegacy, hvenv]
    simp [raiseIf, hpresent, bind, Except.bind]
  have hmoved : run.layout.launchers = activated install := by
    funext name
    cases name with
    | power =>
        rw [h.power, if_pos (by decide)]
        rfl
    | powerMcp =>
        rw [h.powerMcp, if_pos (by decide)]
        rfl
    | powerGui =>
        rw [h.powerGui, if_pos (by decide)]
        rfl
  have hrolled : rollBack install run = restorePointer run := by
    rw [rollBack, hblocked]
  rw [hrolled, ← foreign_kept_iff h (by decide)]
  constructor
  · intro hall
    refine ⟨?_, ?_⟩
    · intro entry hentry
      rw [← hreleases]
      exact hall.foreign entry (by rw [hforeign, hentry])
    · rw [← hall.launchers, hlaunchers, hmoved]
  · rintro ⟨hharmless, hstart⟩
    constructor
    case current => exact (pointer_of_raised h hcurrent).mpr (by decide)
    case launchers => rw [hlaunchers, hmoved, hstart]
    case legacyVenv => rw [hlegacy, hvenv]
    case state => rw [hstate, h.state, if_neg (by decide)]
    case releases =>
      intro name entry hentry
      have hne : name ≠ install.slotName := by
        rintro rfl
        rw [hslot] at hentry
        cases hentry
      rw [hreleases, releases_of_raised h hentry hne]
    case foreign =>
      intro entry hentry
      rw [hreleases]
      exact hharmless entry (by rw [← hforeign, hentry])

/-- The content of `install.json` is put back, its permissions are not. -/
theorem state_restored_iff (hlink : ∀ target, start.state ≠ some (.symlink target)) :
    (stateText start.state).map (fun content => writeBytes content run.layout.state) =
        start.state ↔
      (.writeState ∈ fault.earlier → ∀ content permissions,
        start.state = some (.regular content permissions) → permissions = 0o600) := by
  rw [h.state]
  cases hstate : start.state with
  | none => simp [stateText]
  | some node =>
      cases node with
      | symlink target => exact absurd hstate (hlink target)
      | regular content permissions =>
          simp only [stateText, Option.map_some, Option.some.injEq, writeBytes_eq_iff]
          constructor
          · rintro hmode hwritten _ _ ⟨rfl, rfl⟩
            exact hmode hwritten
          · intro hmode hwritten
            exact hmode hwritten content permissions rfl

/-- The roll-back runs to its end. -/
theorem rolledBack_undone_iff (hslot : start.releases install.slotName = none)
    (hcurrent : start.current ≠ some install.relativeSlot)
    (hstate : ∀ target, start.state ≠ some (.symlink target))
    (hfault : ¬ (fault = .retireLegacy ∧ start.legacyVenv.link? ≠ none)) :
    RolledBack install start (rollBack install run) ↔ Harmless intrusion fault ∧
      fault ≠ .cleanTemporary ∧
      (∀ launcher content permissions,
        start.launchers launcher ≠ some (.regular content permissions)) ∧
      (.writeState ∈ fault.earlier → ∀ content permissions,
        start.state = some (.regular content permissions) → permissions = 0o600) := by
  have hrolled : rollBack install run = removeManagedPath install.slotName (restoreState
      (Launcher.all.foldl restoreLauncher
        ((restorePointer run).setLegacy start.legacyVenv))) := by
    rw [rollBack, restoreLegacy_of_raised h hfault]
  have hlayout : (restorePointer run).layout.state = run.layout.state ∧
      (restorePointer run).layout.releases = run.layout.releases ∧
      (restorePointer run).foreign = run.foreign ∧
      (restorePointer run).launcherSnapshots = run.launcherSnapshots ∧
      (restorePointer run).stateSnapshot = run.stateSnapshot := by
    unfold restorePointer
    split <;> exact ⟨rfl, rfl, rfl, rfl, rfl⟩
  obtain ⟨hstate', hreleases, hforeign, hsnapshots, hsnapshot⟩ := hlayout
  rw [hrolled, removeManagedPath_eq, restoreLaunchers_eq, ← foreign_removed_iff h,
    ← pointer_of_raised h hcurrent, ← state_restored_iff h hstate]
  have hlaunchers : (fun name => restored ((restorePointer run).launcherSnapshots name)) =
      start.launchers ↔ ∀ launcher content permissions,
        start.launchers launcher ≠ some (.regular content permissions) := by
    rw [hsnapshots, h.launcherSnapshots, funext_iff]
    exact forall_congr' fun launcher => restored_eq_iff (start.launchers launcher)
  rw [← hlaunchers, ← hstate', ← h.stateSnapshot, ← hsnapshot, ← hforeign, ← hreleases]
  constructor
  · intro hall
    refine ⟨?_, hall.current, hall.launchers, hall.state⟩
    intro entry hentry
    have hleft := hall.foreign entry hentry
    rwa [Run.setRelease_self] at hleft
  · rintro ⟨hharmless, hpointer, hput, hwritten⟩
    constructor
    case current => exact hpointer
    case launchers => exact hput
    case legacyVenv => rfl
    case state => exact hwritten
    case releases =>
      intro name entry hentry
      have hne : name ≠ install.slotName := by
        rintro rfl
        rw [hslot] at hentry
        cases hentry
      rw [Run.setRelease_of_ne _ hne]
      have hkept := releases_of_raised h hentry hne
      rw [← hreleases] at hkept
      exact hkept
    case foreign =>
      intro entry hentry
      rw [Run.setRelease_self]
      exact hharmless entry hentry

end Raised

/-- A call that raises, at any step and whatever another process puts at the release slot, rolls
back exactly from the layouts it can restore. -/
theorem rolls_back_exactly {fault : Fault}
    (h : raising install intrusion start fault = .ok run) :
    RolledBack install start run ↔ Restorable install intrusion start fault := by
  cases fault with
  | preparing =>
      cases h
      refine iff_of_true ?_ trivial
      constructor
      case foreign => exact fun _ hentry => absurd hentry (by simp)
      case releases => exact fun _ _ hentry => hentry
      all_goals rfl
  | during step =>
      unfold raising at h
      obtain ⟨first, hprepare, h1⟩ := bind_eq_ok.mp h
      obtain ⟨reached, hrun, h2⟩ := bind_eq_ok.mp h1
      cases h2
      have hprepared := prepare_ok hprepare
      have hraised := raised_of_run hprepared hrun
      have hstaging : (rollBack install (intrude install intrusion reached step)).stagingSlot =
          true → start.releases install.staging = none := by
        rw [rollBack_stagingSlot]
        exact staging_of_raised hraised
      rw [rolledBack_clean_iff hstaging, Restorable]
      by_cases hblocked : step = .retireLegacy ∧ start.legacyVenv.link? ≠ none
      · rw [if_pos hblocked]
        exact rolledBack_blocked_iff hraised hprepared.slot hprepared.current hblocked.1 hblocked.2
      · rw [if_neg hblocked]
        exact rolledBack_undone_iff hraised hprepared.slot hprepared.current hprepared.state
          hblocked

def sampleInstall : Install where
  managed := "/home/u/.local/share/power"
  slotName := "5.2.0-1-2"
  stagingSuffix := "a"
  receipt := "\x7b\x7d"
  releaseOf := fun text => if text = "releases/5.2.0-1-2" then some "5.2.0-1-2" else none
  legacyInside := fun _ => true
  releaseOf_relative := by decide

/-- The layout of a first install, with the shell script `power` of an older one. -/
def scriptLayout : Layout where
  current := none
  launchers := fun launcher => match launcher with
    | .power => some (.regular (sampleInstall.script .power) 0o755)
    | _ => none
  legacyVenv := .absent
  state := none
  releases := fun _ => none

/-- The dependencies cannot be installed: the script is put back as a symlink. -/
theorem script_becomes_symlink : ∃ run,
    raising sampleInstall none scriptLayout (.during .installDependencies) = .ok run ∧
      run.layout.launchers .power = some (.symlink (sampleInstall.script .power)) ∧
      ¬ RolledBack sampleInstall scriptLayout run := by
  refine ⟨_, rfl, rfl, ?_⟩
  intro h
  have hpower := congrFun h.launchers .power
  cases hpower

/-- A layout with a link to the venv of an older install. -/
def linkLayout : Layout where
  current := none
  launchers := fun _ => none
  legacyVenv := .link "venvs/4"
  state := none
  releases := fun _ => none

theorem linkLayout_rolls_back : ∃ run,
    raising sampleInstall none linkLayout (.during .writeState) = .ok run ∧
      RolledBack sampleInstall linkLayout run := by
  have hok : (raising sampleInstall none linkLayout (.during .writeState)).isOk = true := by
    decide
  obtain ⟨run, hrun⟩ := exists_of_isOk hok
  refine ⟨run, hrun, (rolls_back_exactly hrun).mpr ⟨?_, ?_⟩⟩
  · intro entry hentry
    cases hentry
  · rw [if_neg (by decide)]
    refine ⟨by decide, ?_, ?_⟩
    · intro launcher content permissions h
      cases h
    · exact fun hwritten => absurd hwritten (by decide)

end PowerFramework.Native
