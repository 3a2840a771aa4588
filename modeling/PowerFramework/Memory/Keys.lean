import PowerFramework.Memory.Stale
/-!
# Keys of proposals

The key of a proposal is stored with its first record.  As long as no call asks for another key of
a stored payload, and no payload is stored whose id is in use as a key, a key stands for one
proposal, and every keyed proposal can be applied with its key.
-/

namespace PowerFramework.Memory

open Lib Lib.Failure Lib.Json TaskStore

set_option linter.unusedSectionVars false

variable {proposals proposals' : Proposals} {proposal : PublicProposal} {payload : Payload}
  {now relPath content : String} {key : Option String}

/-! ## Stored proposals -/

/-- The directory has the proposal in the file of its id. -/
def Stores (proposals : Proposals) (proposal : PublicProposal) : Prop :=
  ∃ value d, (proposalFile proposal.proposalId, value) ∈ proposals ∧
    readProposalFile (some value) = .ok d ∧ publicProposal d = .ok proposal

/-- Every file is a proposal under its id, and no two have one key. -/
structure Sound (proposals : Proposals) : Prop where
  files : ∀ file ∈ proposals, ∃ d proposal, readProposalFile (some file.2) = .ok d ∧
    publicProposal d = .ok proposal ∧ file.1 = proposalFile proposal.proposalId ∧
    Digested proposal.payload
  names : (proposals.map Prod.fst).Nodup
  keys : ∀ p q, Stores proposals p → Stores proposals q → p.idempotencyKey = q.idempotencyKey → p = q

theorem lookup_of_mem {name : String} {value : Option Value}
    (hnodup : (proposals.map Prod.fst).Nodup) (h : (name, value) ∈ proposals) :
    proposals.lookup name = some value :=
  Grouping.lookup_eq_some_of_mem hnodup h

theorem stores_unique (hnodup : (proposals.map Prod.fst).Nodup) {other : PublicProposal}
    (h : Stores proposals proposal) (hother : Stores proposals other)
    (hid : proposal.proposalId = other.proposalId) : proposal = other := by
  obtain ⟨value, d, hmem, hread, hpublic⟩ := h
  obtain ⟨value', d', hmem', hread', hpublic'⟩ := hother
  rw [hid] at hmem
  have hvalue := (lookup_of_mem hnodup hmem).symm.trans (lookup_of_mem hnodup hmem')
  cases hvalue
  rw [hread] at hread'
  cases hread'
  rw [hpublic] at hpublic'
  exact Except.ok.inj hpublic'

/-! ## A new file -/

/-- The call does not ask for another key of a stored payload, nor does it store a payload whose id
is the key of a stored one. -/
def Fits (proposals : Proposals) (payload : Payload) : Option String → Prop
  | some k => ∀ p, Stores proposals p → p.payload = payload → p.idempotencyKey = k
  | none => (∃ p, Stores proposals p ∧ p.payload = payload) ∨
      ∀ p, Stores proposals p → p.idempotencyKey ≠ proposalId payload

end PowerFramework.Memory
