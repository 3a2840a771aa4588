import Mathlib.Algebra.GroupWithZero.Nat
import Mathlib.Data.List.Basic
import Mathlib.Logic.Function.Basic
import PowerFramework.Lib.Failure
import PowerFramework.Lib.Newlines
/-!
# Native installs

`apply_native_install_plan` checks the layout and takes snapshots of it, then builds a release in
a staging directory, promotes it to its slot, and activates it step by step.  A step that raises
starts the roll-back, which decides from the snapshots and from three local variables what to
undo.
-/

namespace PowerFramework.Native

open Lib Lib.Failure

/-! ## Layouts -/

inductive Launcher where
  | power
  | powerMcp
  | powerGui
  deriving DecidableEq, Repr

namespace Launcher

def name : Launcher → String
  | power => "power"
  | powerMcp => "power-mcp"
  | powerGui => "power-gui"

/-- `[*launcher_names, *retired_launcher_names]` -/
def all : List Launcher := [power, powerMcp, powerGui]

theorem mem_all (launcher : Launcher) : launcher ∈ all := by
  cases launcher <;> decide

end Launcher

instance permissions_neZero : NeZero 0o10000 := ⟨by decide⟩

/-- A symlink with its text, or a regular file with its permission bits. -/
inductive Node where
  | symlink (target : String)
  | regular (content : String) (permissions : Fin 0o10000)
  deriving DecidableEq, Repr

inductive LegacyVenv where
  | absent
  | link (target : String)
  | directory
  deriving DecidableEq, Repr

namespace LegacyVenv

/-- The text of the link, if it is one. -/
def link? : LegacyVenv → Option String
  | link target => some target
  | _ => none

/-- A link is unlinked, and everything else left as it is. -/
def unlinked : LegacyVenv → LegacyVenv
  | link _ => absent
  | other => other

end LegacyVenv

/-- An entry of `releases/`. -/
inductive Entry where
  | directory (names : List String)
  | symlink (target : String)
  | file (content : String)
  deriving DecidableEq, Repr

def isDirectory : Option Entry → Bool
  | some (.directory _) => true
  | _ => false

structure Layout where
  /-- The text of the symlink `current`. -/
  current : Option String
  launchers : Launcher → Option Node
  legacyVenv : LegacyVenv
  state : Option Node
  releases : String → Option Entry

/-- What one call works with. -/
structure Install where
  managed : String
  slotName : String
  stagingSuffix : String
  receipt : String
  /-- The entry of `releases/` that a text of `current` leads to. -/
  releaseOf : String → Option String
  /-- A text of the legacy link leads to a place inside the runtime root. -/
  legacyInside : String → Bool
  releaseOf_relative : releaseOf ("releases/" ++ slotName) = some slotName

namespace Install

variable (install : Install)

/-- `os.path.relpath(release_slot, managed)` -/
def relativeSlot : String := "releases/" ++ install.slotName

/-- The name `tempfile.mkdtemp` gives the staging directory. -/
def staging : String := "." ++ install.slotName ++ ".staging-" ++ install.stagingSuffix

/-- `managed / "current" / "venv" / "bin" / name` -/
def expectedTarget (launcher : Launcher) : String :=
  install.managed ++ "/current/venv/bin/" ++ launcher.name

def script (launcher : Launcher) : String :=
  "#!/bin/sh\nexec '" ++ install.expectedTarget launcher ++ "' \"$@\"\n"

end Install

/-- A `PurePosixPath`: its root and its parts. -/
def purePath (text : String) : String × List (List Char) :=
  let root := match text.toList with
    | '/' :: '/' :: '/' :: _ => "/"
    | '/' :: '/' :: _ => "//"
    | '/' :: _ => "/"
    | _ => ""
  (root, (text.toList.splitOn '/').filter fun part => part ≠ [] ∧ part ≠ ['.'])

def isManagedLauncher (install : Install) (launcher : Launcher) : Node → Bool
  | .symlink target => purePath target = purePath (install.expectedTarget launcher)
  | .regular content _ => Newlines.translate content.toList = (install.script launcher).toList

/-! ## The calls -/

def permissionError (message : String) : Exn := ⟨"PermissionError", message⟩

def fileExistsError : Exn := ⟨"FileExistsError", "File exists"⟩

def osError : Exn := ⟨"OSError", "Not a directory, or directory not empty"⟩

/-- The local variables of a call, and the layout as it stands. -/
structure Run where
  layout : Layout
  previousCurrentTarget : Option String
  launcherSnapshots : Launcher → Option (String × Nat)
  stateSnapshot : Option String
  stagingSlot : Bool := false
  pointerActivated : Bool := false
  retiredLegacyLink : Option String := none
  /-- What another process has put at the release slot. -/
  foreign : Option Entry := none

/-- `stat.S_IFREG` -/
def regularBit : Nat := 0o100000

/-- `stat.S_IFMT(stat.S_IFLNK)` -/
def linkBits : Nat := 0o120000

def snapshot : Node → String × Nat
  | .symlink target => (target, 0o120777)
  | .regular content permissions => (content, regularBit + permissions)

/-- The content that is kept of `install.json`. -/
def stateText : Option Node → Option String
  | some (.regular content _) => some content
  | _ => none

def checkState (layout : Layout) : Except Exn Unit :=
  match layout.state with
  | some (.symlink _) => .error (runtimeError "managed installer state must not be a symlink")
  | _ => .ok ()

def checkLegacy (install : Install) (layout : Layout) : Except Exn Unit :=
  match layout.legacyVenv with
  | .link target => raiseIf (install.legacyInside target = false)
      (runtimeError "legacy managed venv link escapes the runtime root")
  | _ => .ok ()

def checkCurrent (install : Install) (layout : Layout) : Except Exn Unit :=
  match layout.current with
  | none => .ok ()
  | some text =>
      match (install.releaseOf text).bind layout.releases with
      | some (.directory _) => .ok ()
      | _ => .error (runtimeError "managed current pointer is dangling")

def checkLauncher (install : Install) (layout : Layout) (launcher : Launcher) : Except Exn Unit :=
  match layout.launchers launcher with
  | none => .ok ()
  | some node => raiseIf (isManagedLauncher install launcher node = false)
      (permissionError ("launcher is not POWER-managed: " ++ launcher.name))

/-- The part of a call in front of its `try`, which changes nothing. -/
def prepare (install : Install) (layout : Layout) : Except Exn Run := do
  checkState layout
  checkLegacy install layout
  raiseIf (layout.releases install.slotName ≠ none)
    (runtimeError "release slot already exists and will not be overwritten")
  checkCurrent install layout
  Launcher.all.forM (checkLauncher install layout)
  .ok { layout, previousCurrentTarget := layout.current,
        launcherSnapshots := fun launcher => (layout.launchers launcher).map snapshot,
        stateSnapshot := stateText layout.state }

/-- The steps of the `try`. -/
inductive Step where
  | makeStaging
  | createVenv
  | installDependencies
  | installPower
  | checkStagedVersion
  | verifyStagedPower
  | verifyStagedPowerMcp
  | makeLauncherDir
  | makeLauncherStage
  | stagePower
  | stagePowerMcp
  | recheckSlot
  | checkStaging
  | promote
  | checkPromoted
  | prepareTemporary
  | replacePointer
  | cleanTemporary
  | movePower
  | movePowerMcp
  | verifyPower
  | verifyPowerMcp
  | retirePowerGui
  | readLegacy
  | retireLegacy
  | buildReceipt
  | writeState
  | readPointer
  | readLaunchers
  deriving DecidableEq, Repr

/-- The steps in the order of the source. -/
def steps : List Step := [
  .makeStaging, .createVenv, .installDependencies, .installPower, .checkStagedVersion,
  .verifyStagedPower, .verifyStagedPowerMcp, .makeLauncherDir, .makeLauncherStage, .stagePower,
  .stagePowerMcp, .recheckSlot, .checkStaging, .promote, .checkPromoted, .prepareTemporary,
  .replacePointer, .cleanTemporary, .movePower, .movePowerMcp, .verifyPower, .verifyPowerMcp,
  .retirePowerGui, .readLegacy, .retireLegacy, .buildReceipt, .writeState, .readPointer,
  .readLaunchers]

/-- The steps in front of one. -/
def Step.earlier (step : Step) : List Step := steps.takeWhile fun other => other ≠ step

namespace Run

variable (run : Run)

def setRelease (name : String) (entry : Option Entry) : Run :=
  { run with layout :=
      { run.layout with releases := Function.update run.layout.releases name entry } }

@[simp] theorem setRelease_self (name : String) (entry : Option Entry) :
    (run.setRelease name entry).layout.releases name = entry := Function.update_self ..

theorem setRelease_of_ne {name other : String} (h : other ≠ name) (entry : Option Entry) :
    (run.setRelease name entry).layout.releases other = run.layout.releases other :=
  Function.update_of_ne h ..

def setCurrent (text : Option String) : Run :=
  { run with layout := { run.layout with current := text } }

def setLauncher (launcher : Launcher) (node : Option Node) : Run :=
  { run with layout :=
      { run.layout with launchers := Function.update run.layout.launchers launcher node } }

def setLegacy (legacyVenv : LegacyVenv) : Run :=
  { run with layout := { run.layout with legacyVenv } }

def setState (state : Option Node) : Run :=
  { run with layout := { run.layout with state } }

end Run

/-- What a step finds wrong by itself. -/
def Step.check (install : Install) (run : Run) : Step → Except Exn Unit
  | .makeStaging => raiseIf (run.layout.releases install.staging ≠ none) fileExistsError
  | .recheckSlot => raiseIf (run.layout.releases install.slotName ≠ none)
      (runtimeError "release slot changed during installation and will not be overwritten")
  | .checkStaging => raiseIf (isDirectory (run.layout.releases install.staging) = false)
      (runtimeError "staged release slot is unsafe")
  -- `os.replace` puts a directory over nothing, or over an empty directory.
  | .promote => raiseIf (run.layout.releases install.slotName ∉ [none, some (.directory [])])
      osError
  | .checkPromoted => raiseIf (isDirectory (run.layout.releases install.slotName) = false)
      (runtimeError "final release slot is unsafe")
  | .retirePowerGui => raiseIf
      (∃ node ∈ run.layout.launchers .powerGui, isManagedLauncher install .powerGui node = false)
      (permissionError "retired launcher is not POWER-managed: power-gui")
  | .readPointer => raiseIf (run.layout.current.bind install.releaseOf ≠ some install.slotName)
      (runtimeError "native POWER current-pointer readback is incomplete")
  | _ => .ok ()

/-- What a step changes.  Each of them is one call of the operating system, so that a step that
raises has changed nothing. -/
def Step.effect (install : Install) (run : Run) : Step → Run
  | .makeStaging =>
      { run.setRelease install.staging (some (.directory [])) with stagingSlot := true }
  | .createVenv => run.setRelease install.staging (some (.directory ["venv"]))
  | .promote =>
      { (run.setRelease install.slotName (run.layout.releases install.staging)).setRelease
          install.staging none with stagingSlot := false }
  | .replacePointer => run.setCurrent (some install.relativeSlot)
  | .cleanTemporary => { run with pointerActivated := true }
  | .movePower => run.setLauncher .power (some (.symlink (install.expectedTarget .power)))
  | .movePowerMcp =>
      run.setLauncher .powerMcp (some (.symlink (install.expectedTarget .powerMcp)))
  | .retirePowerGui => run.setLauncher .powerGui none
  | .readLegacy => { run with retiredLegacyLink := run.layout.legacyVenv.link? }
  | .retireLegacy => run.setLegacy run.layout.legacyVenv.unlinked
  | .writeState => run.setState (some (.regular install.receipt 0o600))
  | _ => run

def Step.exec (install : Install) (run : Run) (step : Step) : Except Exn Run := do
  step.check install run
  .ok (step.effect install run)

/-! ## The roll-back -/

/-- `previous_current_target` is put back by `_atomic_symlink`. -/
def restorePointer (run : Run) : Run :=
  if run.pointerActivated then run.setCurrent run.previousCurrentTarget else run

/-- `legacy_venv.symlink_to(retired_legacy_link)` -/
def restoreLegacy (run : Run) : Except Exn Run :=
  match run.retiredLegacyLink with
  | none => .ok run
  | some target => do
      raiseIf (run.layout.legacyVenv ≠ .absent) fileExistsError
      .ok (run.setLegacy (.link target))

/-- What a launcher is after its snapshot has been put back. -/
def restored : Option (String × Nat) → Option Node
  | none => none
  | some (text, mode) =>
      if mode &&& linkBits ≠ 0 then some (.symlink text)
      else some (.regular text (Fin.ofNat 0o10000 mode))

def restoreLauncher (run : Run) (launcher : Launcher) : Run :=
  run.setLauncher launcher (restored (run.launcherSnapshots launcher))

/-- `Path.write_bytes`, which keeps the permissions of a file that exists. -/
def writeBytes (content : String) : Option Node → Node
  | some (.regular _ permissions) => .regular content permissions
  | _ => .regular content 0o644

def restoreState (run : Run) : Run :=
  run.setState (run.stateSnapshot.map fun content => writeBytes content run.layout.state)

/-- A file is left where it is. -/
def removeManagedPath (name : String) (run : Run) : Run :=
  match run.layout.releases name with
  | some (.file _) => run
  | _ => run.setRelease name none

/-- The `except` clause: it ends early when a statement of it raises itself. -/
def rollBack (install : Install) (run : Run) : Run :=
  match restoreLegacy (restorePointer run) with
  | .error _ => restorePointer run
  | .ok run =>
      removeManagedPath install.slotName (restoreState (Launcher.all.foldl restoreLauncher run))

/-- The `finally` clause. -/
def clean (install : Install) (run : Run) : Run :=
  if run.stagingSlot then removeManagedPath install.staging run else run

/-! ## Calls that raise -/

/-- Another process puts an entry at the release slot in front of a step, if there is none. -/
def intrude (install : Install) (intrusion : Option (Step × Entry)) (run : Run) (step : Step) :
    Run :=
  match intrusion with
  | none => run
  | some (place, entry) =>
      if place = step ∧ run.layout.releases install.slotName = none then
        { run.setRelease install.slotName (some entry) with foreign := some entry }
      else run

/-- A step together with what another process does in front of it. -/
def advance (install : Install) (intrusion : Option (Step × Entry)) (run : Run) (step : Step) :
    Except Exn Run :=
  step.exec install (intrude install intrusion run step)

/-- A call raises in front of its `try`, or in a step of it. -/
inductive Fault where
  | preparing
  | during (step : Step)
  deriving DecidableEq, Repr

/-- What a call leaves that raises there.  An error: it does not come that far. -/
def raising (install : Install) (intrusion : Option (Step × Entry)) (start : Layout) :
    Fault → Except Exn Run
  | .preparing => .ok { layout := start, previousCurrentTarget := none,
                        launcherSnapshots := fun _ => none, stateSnapshot := none }
  | .during step => do
      let run ← prepare install start
      let run ← step.earlier.foldlM (advance install intrusion) run
      .ok (clean install (rollBack install (intrude install intrusion run step)))

end PowerFramework.Native
