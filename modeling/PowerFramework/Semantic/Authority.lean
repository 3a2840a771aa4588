import PowerFramework.Ledger.Verify
import PowerFramework.Lib.PythonNumber
/-!
# Ledger authority

A receipt is evidence that the caller can make up.  A batch is authorised only when the ledger
under the vault root, verified and replayed anew, gives the very events of the batch.
-/

namespace PowerFramework.Semantic

open Lib Lib.Failure Lib.Json Ledger

structure TrustedReplayReceipt where
  projectId : String
  ledgerPath : String
  fromSequence : Nat
  toSequence : Nat
  eventCount : Nat
  headEventHash : String
  verified : Bool

/-- The projects under a vault root: the event directory that the store of a project opens, the
resolved path of its active file, and how another path resolves. -/
structure Vault where
  store : String → Except Exn ProjectDir
  activeEventsFile : String → String
  resolve : String → Except Exn String

variable [LaxInt]

/-- `store.read_verified_replay(from_sequence)` -/
def readVerifiedReplay (projectId ledgerPath : String) (dir : ProjectDir) (fromSequence : Nat) :
    Except Exn (TrustedReplayReceipt × List ProjectEvent) := do
  let res := verify projectId dir
  raiseIf (res.valid = false) ⟨"LedgerIntegrityError", "Ledger verification failed"⟩
  let events ← replay dir fromSequence
  let toSequence := (events.getLast?.map (·.sequence)).getD fromSequence
  return ({
    projectId, ledgerPath, fromSequence
    toSequence := max toSequence fromSequence
    eventCount := events.length
    headEventHash := (events.getLast?.map (·.eventHash)).getD ""
    verified := true }, events)

/-- An event as the caller supplies it: an instance, or the dict of one. -/
inductive SuppliedEvent where
  | instance (event : ProjectEvent)
  | dict (d : Dict)

/-- `event if isinstance(event, ProjectEvent) else ProjectEvent.model_validate(event)` -/
def SuppliedEvent.validated : SuppliedEvent → Except Exn ProjectEvent
  | .instance event => .ok event
  | .dict d => ProjectEvent.modelValidate (.dict d)

/-- `[event.model_dump() for event in events]` -/
def identity (events : List ProjectEvent) : List Value := events.map fun e => .dict e.modelDump

/-- The check on events that were validated; an exception anywhere refuses the batch. -/
def matchesLedger (supplied : List ProjectEvent) (projectId : String)
    (receipt : TrustedReplayReceipt) (vault : Vault) : Except Exn Bool :=
  match supplied.head?, supplied.getLast? with
  | some first, some last =>
      if receipt.projectId ≠ projectId ∨ supplied.any (·.projectId ≠ projectId) ∨
          receipt.eventCount ≠ supplied.length ∨ first.sequence ≠ receipt.fromSequence ∨
          last.sequence ≠ receipt.toSequence ∨ last.eventHash ≠ receipt.headEventHash then
        .ok false
      else do
        let dir ← vault.store projectId
        let expected := vault.activeEventsFile projectId
        let path ← vault.resolve receipt.ledgerPath
        if path ≠ expected then return false
        else do
          let (canonical, events) ←
            readVerifiedReplay projectId expected dir receipt.fromSequence
          if canonical.projectId ≠ receipt.projectId ∨
              canonical.fromSequence ≠ receipt.fromSequence ∨
              canonical.toSequence ≠ receipt.toSequence ∨
              canonical.eventCount ≠ receipt.eventCount ∨
              canonical.headEventHash ≠ receipt.headEventHash ∨ canonical.verified = false then
            return false
          else return sameList (identity supplied) (identity events)
  | _, _ => .ok false

/-- `_canonical_replay_matches` -/
def canonicalReplayMatches (eventList : List SuppliedEvent) (projectId : String)
    (receipt : Option TrustedReplayReceipt) (vaultRoot : Option Vault) : Bool :=
  match receipt, vaultRoot with
  | some receipt, some vault =>
      receipt.verified &&
        (eventList.mapM SuppliedEvent.validated >>= fun supplied =>
          matchesLedger supplied projectId receipt vault).toOption.getD false
  | _, _ => false

end PowerFramework.Semantic
