import Mathlib.Logic.Function.Basic
import Mathlib.Logic.Relation
import PowerFramework.Lib.Failure
/-!
# The lock hierarchy

Threads of several processes that take locks through `vault_mutation`, `TaskStore.lock` and
`project_lock`.  Each of them asks `LockHierarchyTracker.push_level`, takes a lock of the process,
and then an advisory lock on a file, which is held by an open file description.
-/

namespace PowerFramework.Locks

open Lib.Failure

/-! ## The tracker -/

def LEVEL_MUTATION : Nat := 1
def LEVEL_TASK : Nat := 2
def LEVEL_PROJECT : Nat := 3

/-- `LockHierarchyTracker._local` -/
structure LockHierarchyTracker where
  levels : List Nat := []
  projects : List (Option String) := []
  deriving DecidableEq, Repr

namespace LockHierarchyTracker

def violation (message : String) : Exn :=
  ⟨"LockHierarchyViolationError", "Lock hierarchy violation: " ++ message⟩

/-- `get_current_project_id` -/
def currentProjectId (tracker : LockHierarchyTracker) : Option String :=
  (tracker.projects.filterMap id).getLast?

/-- `push_level` -/
def pushLevel (tracker : LockHierarchyTracker) (level : Nat) (projectId : Option String) :
    Except Exn LockHierarchyTracker := do
  raiseIf (∃ held ∈ tracker.levels, level < held)
    (violation "Locks must strictly be acquired in ascending order")
  if level = LEVEL_PROJECT then
    raiseIf (tracker.currentProjectId ≠ none ∧ projectId ≠ none ∧
        tracker.currentProjectId ≠ projectId)
      (violation "Cross-project nested locks are forbidden to prevent deadlock.")
    .ok { levels := tracker.levels ++ [level], projects := tracker.projects ++ [projectId] }
  else .ok { tracker with levels := tracker.levels ++ [level] }

/-- `pop_level` -/
def popLevel (tracker : LockHierarchyTracker) (level : Nat) : LockHierarchyTracker where
  levels :=
    if tracker.levels.getLast? = some level then tracker.levels.dropLast
    else tracker.levels.erase level
  projects := if level = LEVEL_PROJECT then tracker.projects.dropLast else tracker.projects

end LockHierarchyTracker

/-! ## Calls and locks -/

/-- The process of each thread, and the vault each task store was opened for. -/
structure World (Thread Process Vault Store : Type) where
  process : Thread → Process
  vaultDir : Store → Vault

inductive Call (Vault Store : Type) where
  | vaultMutation (vault : Vault)
  | taskStoreLock (store : Store)
  | projectLock (vault : Vault) (projectId : String)
  deriving DecidableEq

inductive Lock (Process Vault Store : Type) where
  /-- The `RLock` of `_get_vault_lock`. -/
  | vaultThread (process : Process) (vault : Vault)
  /-- The `RLock` of a `TaskStore`. -/
  | storeThread (store : Store)
  /-- The `RLock` of `_get_project_thread_lock`. -/
  | projectThread (process : Process) (vault : Vault) (projectId : String)
  /-- `.power/mutation.lock` -/
  | mutationFile (vault : Vault)
  /-- `.power/tasks/.lock` -/
  | taskFile (vault : Vault)
  /-- `.power/projects/<project_id>/.lock` -/
  | projectFile (vault : Vault) (projectId : String)

section
variable {Thread Process Vault Store : Type}

/-- A thread that has an `RLock` takes it again at once. -/
def Lock.isRLock : Lock Process Vault Store → Bool
  | .vaultThread .. | .storeThread _ | .projectThread .. => true
  | _ => false

namespace Call

def level : Call Vault Store → Nat
  | vaultMutation _ => LEVEL_MUTATION
  | taskStoreLock _ => LEVEL_TASK
  | projectLock .. => LEVEL_PROJECT

def projectId? : Call Vault Store → Option String
  | projectLock _ projectId => some projectId
  | _ => none

/-- The lock of the process that a call takes first. -/
def threadLock (world : World Thread Process Vault Store) (thread : Thread) :
    Call Vault Store → Lock Process Vault Store
  | vaultMutation vault => .vaultThread (world.process thread) vault
  | taskStoreLock store => .storeThread store
  | projectLock vault projectId => .projectThread (world.process thread) vault projectId

/-- The file lock that a call takes then. -/
def fileLock (world : World Thread Process Vault Store) :
    Call Vault Store → Lock Process Vault Store
  | vaultMutation vault => .mutationFile vault
  | taskStoreLock store => .taskFile (world.vaultDir store)
  | projectLock vault projectId => .projectFile vault projectId

end Call

/-! ## States -/

/-- A call in progress, with the locks it has taken. -/
structure Frame (Process Vault Store : Type) where
  call : Call Vault Store
  taken : List (Lock Process Vault Store) := []
  /-- The body of the `with` statement runs. -/
  running : Bool := false

/-- What belongs to one thread; the innermost call stands first. -/
structure ThreadState (Process Vault Store : Type) where
  tracker : LockHierarchyTracker := {}
  frames : List (Frame Process Vault Store) := []
  /-- `_local_project_locks.held` -/
  heldProjects : Vault × String → Nat := fun _ => 0

structure State (Thread Process Vault Store : Type) where
  threads : Thread → ThreadState Process Vault Store := fun _ => {}
  /-- `TaskStore._lock_depth` -/
  lockDepth : Store → Nat := fun _ => 0

/-- The thread has taken the lock in a call that is in progress. -/
def Holds (state : State Thread Process Vault Store) (thread : Thread)
    (lock : Lock Process Vault Store) : Prop :=
  ∃ frame ∈ (state.threads thread).frames, lock ∈ frame.taken

/-- Nobody has the lock, or the thread itself has it and it is an `RLock`. -/
def Free (state : State Thread Process Vault Store) (thread : Thread)
    (lock : Lock Process Vault Store) : Prop :=
  ∀ holder, Holds state holder lock → lock.isRLock = true ∧ holder = thread

/-- The lock that a call has to take next: none if its body can run. -/
def nextLock (world : World Thread Process Vault Store) (state : State Thread Process Vault Store)
    (thread : Thread) (frame : Frame Process Vault Store) : Option (Lock Process Vault Store) :=
  match frame.call, frame.taken with
  | .vaultMutation vault, [] => some (.vaultThread (world.process thread) vault)
  -- the file is opened anew, whoever has it open
  | .vaultMutation vault, [_] => some (.mutationFile vault)
  | .taskStoreLock store, [] => some (.storeThread store)
  | .taskStoreLock store, [_] =>
      if state.lockDepth store = 0 then some (.taskFile (world.vaultDir store)) else none
  | .projectLock vault projectId, [] =>
      if (state.threads thread).heldProjects (vault, projectId) = 0 then
        some (.projectThread (world.process thread) vault projectId)
      else none
  | .projectLock vault projectId, [_] => some (.projectFile vault projectId)
  | _, _ => none

/-- No call of the thread is still taking its locks. -/
def Ready (thread : ThreadState Process Vault Store) : Prop :=
  ∀ frame ∈ thread.frames.head?, frame.running = true

variable [DecidableEq Thread] [DecidableEq Vault] [DecidableEq Store]

def State.set (state : State Thread Process Vault Store) (thread : Thread)
    (threadState : ThreadState Process Vault Store) : State Thread Process Vault Store :=
  { state with threads := Function.update state.threads thread threadState }

/-- The number of calls through a store, or on a project, is counted while their bodies run. -/
def State.count (change : Nat → Nat) (thread : Thread) (call : Call Vault Store)
    (state : State Thread Process Vault Store) : State Thread Process Vault Store :=
  match call with
  | .vaultMutation _ => state
  | .taskStoreLock store =>
      { state with
        lockDepth := Function.update state.lockDepth store (change (state.lockDepth store)) }
  | .projectLock vault projectId =>
      state.set thread
        { state.threads thread with
          heldProjects := Function.update (state.threads thread).heldProjects (vault, projectId)
            (change ((state.threads thread).heldProjects (vault, projectId))) }

inductive Event (Thread Vault Store : Type) where
  | enter (thread : Thread) (call : Call Vault Store)
  | proceed (thread : Thread)
  | leave (thread : Thread)

/-- One thread makes a step.  A call may be left at any point, by its end or by an exception; what
it has taken is given back. -/
inductive Step (world : World Thread Process Vault Store) :
    State Thread Process Vault Store → Event Thread Vault Store →
      State Thread Process Vault Store → Prop
  | enter {state thread call tracker} (hready : Ready (state.threads thread))
      (hpush : (state.threads thread).tracker.pushLevel call.level call.projectId? = .ok tracker) :
      Step world state (.enter thread call)
        (state.set thread { state.threads thread with
          tracker, frames := { call } :: (state.threads thread).frames })
  | take {state thread frame rest lock} (hframes : (state.threads thread).frames = frame :: rest)
      (hrunning : frame.running = false) (hnext : nextLock world state thread frame = some lock)
      (hfree : Free state thread lock) :
      Step world state (.proceed thread)
        (state.set thread { state.threads thread with
          frames := { frame with taken := frame.taken ++ [lock] } :: rest })
  | run {state thread frame rest} (hframes : (state.threads thread).frames = frame :: rest)
      (hrunning : frame.running = false) (hnext : nextLock world state thread frame = none) :
      Step world state (.proceed thread)
        ((state.set thread { state.threads thread with
          frames := { frame with running := true } :: rest }).count (· + 1) thread frame.call)
  | leave {state thread frame rest} (hframes : (state.threads thread).frames = frame :: rest) :
      Step world state (.leave thread)
        (State.count (if frame.running then (· - 1) else id) thread frame.call
          (state.set thread { state.threads thread with
            tracker := (state.threads thread).tracker.popLevel frame.call.level,
            frames := rest }))

/-! ## Deadlocks -/

/-- A call at a level at which its thread is already holding locks is made again through the same
store or on the same project, or its lock file ranks above those. -/
def Careful (world : World Thread Process Vault Store) (rank : Lock Process Vault Store → Nat)
    (state : State Thread Process Vault Store) : Event Thread Vault Store → Prop
  | .enter thread call =>
      (call.level ≠ LEVEL_MUTATION ∧
          ∃ frame ∈ (state.threads thread).frames, frame.call = call) ∨
        ∀ frame ∈ (state.threads thread).frames, frame.call.level = call.level →
          rank (frame.call.fileLock world) < rank (call.fileLock world)
  | _ => True

/-- The states that are reached from the first one by steps that all meet a condition. -/
def ReachedBy (world : World Thread Process Vault Store)
    (condition : State Thread Process Vault Store → Event Thread Vault Store → Prop) :
    State Thread Process Vault Store → Prop :=
  Relation.ReflTransGen
    (fun state next => ∃ event, Step world state event next ∧ condition state event) {}

end

end PowerFramework.Locks
