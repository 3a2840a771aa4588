import PowerFramework.Generation.Store
import PowerFramework.Lib.Run
/-!
# Runs of the index publication

Any number of runs of `sync_vault_atomically` on one generation store.  Every transaction and every
file operation of a run is one step, and a run may raise or be killed between any two of them.  A
run that imports a legacy database and goes on is at `inventory` again.
-/

namespace PowerFramework.Generation

open Lib Lib.Failure

/-- `_reap_stale_build_artifacts` in its loop.  Its transaction starts with the first claim. -/
structure Reaper where
  activeId : Option String
  todo : List String
  unlinking : List Artifact
  claims : Option (List String)
  deriving Repr

/-- `_cleanup_generations` in its loop: a file is unlinked before its row is superseded. -/
structure Cleaner where
  victims : List String
  unlinked : Option String
  superseded : Option (List String)
  deriving Repr

/-- Where a run is. -/
inductive Stage where
  | idle
  | reapActive
  | reapRows (activeId : Option String)
  | reaping (reaper : Reaper)
  | inventory
  | connect (generationId : String)
  | building (generationId : String)
  | staged (generationId : String)
  | moved (generationId : String)
  | identified (generationId sha256 : String) (size : Nat)
  | revoked (generationId : String)
  | published (generationId : String)
  | retention (generationId : String)
  | cleaning (generationId : String) (cleaner : Cleaner)
  | archiving (generationId : String)
  | failing (generationId : String) (again : Bool)
  | sweeping (generationId : String) (again : Bool)
  deriving Repr

/-- The generation that the run builds. -/
def Stage.generationId : Stage → Option String
  | .connect id | .building id | .staged id | .moved id | .identified id _ _ | .revoked id
  | .published id | .retention id | .cleaning id _ | .archiving id | .failing id _
  | .sweeping id _ => some id
  | _ => none

/-- The generation of a run that is inside its `try` block. -/
def Stage.attempted : Stage → Option String
  | .building id | .staged id | .moved id | .identified id _ _ | .revoked id | .published id
  | .retention id | .cleaning id _ | .archiving id => some id
  | _ => none

/-- The run has written in a transaction that is not committed. -/
def Stage.locks : Stage → Bool
  | .reaping reaper => reaper.claims.isSome
  | .cleaning _ cleaner => cleaner.superseded.isSome
  | _ => false

/-- The builds that the run has claimed in its open transaction. -/
def Stage.claims : Stage → List String
  | .reaping reaper => reaper.claims.getD []
  | _ => []

/-- One step of a run. -/
inductive Event where
  | call
  | readActive
  | readBuilding
  /-- The next building row; its lease has run out or not. -/
  | claim (expired : Bool)
  | unlink (fails : Bool)
  | supersede
  | commit (now : String)
  | record (generationId hash createdAt : String)
  | connect
  | build (image : List UInt8)
  | mismatch
  | replace
  | identify
  | publish (completedAt activatedAt : String)
  | readBack
  | list
  | abandon
  | archive
  | raise
  | recordFailure (now : String)
  | sweep
  | kill
  deriving Repr

section
variable [Integrity]

/-- The next building row of the reaper. -/
def Reaper.claim (reaper : Reaper) (free : Bool) (s : Store) (expired : Bool) : Option Reaper :=
  match reaper.unlinking, reaper.todo with
  | [], generationId :: todo =>
      if reaper.activeId = some generationId ∨ expired = false then some { reaper with todo := todo }
      else if free = false then none
      else if s.isBuilding generationId = true ∧ generationId ∉ reaper.claims.getD [] then
        some { reaper with
          todo := todo
          unlinking := buildArtifactPaths generationId
          claims := some (generationId :: reaper.claims.getD []) }
      else some { reaper with todo := todo, claims := some (reaper.claims.getD []) }
  | _, _ => none

/-- The next artifact of the build that was claimed last. -/
def Reaper.unlink (reaper : Reaper) (s : Store) (fails : Bool) : Option (Store × Reaper) :=
  match reaper.unlinking with
  | [] => none
  | artifact :: unlinking =>
      if fails = true then some (s, { reaper with unlinking := [] })
      else some (s.unlink artifact, { reaper with unlinking := unlinking })

/-- The next generation that is not retained. -/
def Cleaner.unlink (cleaner : Cleaner) (s : Store) (fails : Bool) : Option (Store × Cleaner) :=
  match cleaner.unlinked, cleaner.victims with
  | none, generationId :: victims =>
      if fails = true then some (s, { cleaner with victims := victims })
      else some (s.unlink (.generation generationId),
        { cleaner with victims := victims, unlinked := some generationId })
  | _, _ => none

/-- The row of the generation that was unlinked. -/
def Cleaner.supersede (cleaner : Cleaner) (free : Bool) : Option Cleaner :=
  match cleaner.unlinked with
  | none => none
  | some generationId =>
      if free = false then none
      else some { cleaner with
        unlinked := none
        superseded := some (generationId :: cleaner.superseded.getD []) }

/-- `_publish` up to its transaction: the staged database is moved to its generation path. -/
def movedStore (s : Store) (generationId : String) : Option Store :=
  match s.generations generationId, s.staging generationId with
  | none, some image => some (s.replace generationId image)
  | _, _ => none

/-- One step of a run at a stage, which no other run keeps from writing if the lock is free. -/
def runStep (free : Bool) (s : Store) (stage : Stage) (event : Event) : Option (Store × Stage) :=
  match stage, event with
  | _, .kill => some (s, .idle)
  | .idle, .call => some (s, .reapActive)
  | .reapActive, .readActive => some (s, .reapRows (s.activeGeneration.map Prod.fst))
  | .reapRows activeId, .readBuilding => some (s, .reaping ⟨activeId, s.building, [], none⟩)
  | .reaping reaper, .claim expired =>
      (reaper.claim free s expired).map fun next => (s, .reaping next)
  | .reaping reaper, .unlink fails =>
      (reaper.unlink s fails).map fun next => (next.1, .reaping next.2)
  | .reaping reaper, .commit now =>
      if reaper.todo = [] ∧ reaper.unlinking = [] then
        some ((reaper.claims.getD []).foldr (fun id s => s.fail now id) s, .inventory)
      else none
  | .reapActive, .raise => some (s, .inventory)
  | .reapRows _, .raise => some (s, .inventory)
  | .reaping _, .raise => some (s, .inventory)
  | .inventory, .raise => some (s, .idle)
  | .inventory, .record generationId hash createdAt =>
      if free = true ∧ s.rows.lookup generationId = none ∧ hash ≠ "" then
        some (s.insertBuilding generationId hash createdAt, .connect generationId)
      else none
  | .connect _, .raise => some (s, .idle)
  | .connect generationId, .connect =>
      match resolveActiveGeneration s with
      | .error _ => some (s, .idle)
      | .ok _ => some ({ s with staging := Function.update s.staging generationId (some []) },
          .building generationId)
  | .building generationId, .build image =>
      if Integrity.ok image = true then
        some (s.writeStaging generationId image, .staged generationId)
      else none
  | .building generationId, .mismatch => some (s, .failing generationId true)
  | .staged generationId, .replace =>
      match movedStore s generationId with
      | some moved => some (moved, .moved generationId)
      | none => some (s, .failing generationId false)
  | .moved generationId, .identify =>
      match s.generations generationId with
      | some data => some (s, .identified generationId (Sha256.hexdigest data) data.length)
      | none => some (s, .failing generationId false)
  | .identified generationId sha256 size, .publish completedAt activatedAt =>
      if free = false ∨ completedAt = "" ∨ activatedAt = "" then none
      else if s.isBuilding generationId = true then
        some (s.publish generationId sha256 size completedAt activatedAt, .published generationId)
      else some (s, .revoked generationId)
  | .revoked generationId, .unlink fails =>
      some (if fails = true then s else s.unlink (.generation generationId),
        .failing generationId false)
  | .published generationId, .readBack =>
      match resolveActiveGeneration s with
      | .ok (some active) =>
          if active.generationId = generationId then some (s, .retention generationId)
          else some (s, .failing generationId false)
      | _ => some (s, .failing generationId false)
  | .retention generationId, .list =>
      some (s, .cleaning generationId ⟨s.unretained, none, none⟩)
  | .cleaning generationId cleaner, .unlink fails =>
      (cleaner.unlink s fails).map fun next => (next.1, .cleaning generationId next.2)
  | .cleaning generationId cleaner, .supersede =>
      (cleaner.supersede free).map fun next => (s, .cleaning generationId next)
  | .cleaning generationId cleaner, .commit _ =>
      if cleaner.victims = [] ∧ cleaner.unlinked = none then
        some ((cleaner.superseded.getD []).foldr (fun id s => s.supersede id) s,
          .archiving generationId)
      else none
  | .retention generationId, .abandon => some (s, .archiving generationId)
  | .cleaning generationId _, .abandon => some (s, .archiving generationId)
  | .archiving _, .archive => some (s, .idle)
  | .failing _ _, .raise => some (s, .idle)
  | .failing generationId again, .recordFailure now =>
      if free = true then some (s.fail now generationId, .sweeping generationId again) else none
  | .sweeping generationId again, .sweep =>
      some (s.unlink (.staging generationId), if again = true then .inventory else .idle)
  | .sweeping _ _, .raise => some (s, .idle)
  | stage, .raise => stage.attempted.map fun generationId => (s, .failing generationId false)
  | _, _ => none

/-! ## Interleavings -/

/-- The store, the stage of every run, and the run whose transaction is open. -/
structure World where
  store : Store
  stage : Nat → Stage
  writer : Option Nat

/-- One step of one run; an error where the run cannot take it. -/
def World.step (w : World) (move : Nat × Event) : Except Unit World :=
  let free := decide (w.writer = none ∨ w.writer = some move.1)
  match runStep free w.store (w.stage move.1) move.2 with
  | none => .error ()
  | some (store, stage) => .ok {
      store := store
      stage := Function.update w.stage move.1 stage
      writer :=
        if stage.locks = true then some move.1
        else if w.writer = some move.1 then none
        else w.writer }

end

/-- A store without generations, before any run. -/
def World.initial : World :=
  ⟨⟨[], none, fun _ => none, fun _ => none⟩, fun _ => .idle, none⟩

end PowerFramework.Generation
