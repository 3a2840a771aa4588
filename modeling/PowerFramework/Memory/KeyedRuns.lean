import PowerFramework.Memory.Keys
/-!
# Runs of keyed proposals

In a run whose calls of `propose_change` all fit, a key stands for one payload, and every keyed
proposal can be applied with its key.
-/

namespace PowerFramework.Memory

open Lib Lib.Failure Lib.Json TaskStore

set_option linter.unusedSectionVars false

/-! ## Calls of a run -/

/-- A call of `propose_change` that returned. -/
structure Call where
  key : Option String
  proposal : PublicProposal

section
variable [Site] {w : World} {proposal : PublicProposal} {key : Option String}
  {now relPath content : String} {files : Files}

/-- The call that an action is, if it is one that returns. -/
def World.call (w : World) : Action → Option Call
  | .propose now relPath content key =>
      match proposeChange now w.disk.files w.proposals relPath content key with
      | .ok (proposal, _) => some ⟨key, proposal⟩
      | .error _ => none
  | _ => none

/-- The calls of a run that return. -/
def World.calls : World → List Action → List Call
  | _, [] => []
  | w, action :: actions => (w.call action).toList ++ (w.step action).calls actions

/-- What is kept over one action or a run of them. -/
structure Keeps (w after : World) (calls : List Call) : Prop where
  sound : Sound after.proposals
  keeps : ∀ p, Stores w.proposals p → Stores after.proposals p
  stores : ∀ call ∈ calls, Stores after.proposals call.proposal
  keyed : ∀ call ∈ calls, ∀ k, call.key = some k → call.proposal.idempotencyKey = k

theorem Keeps.refl (hsound : Sound w.proposals) {after : World}
    (h : after.proposals = w.proposals) : Keeps w after [] where
  sound := by
    rw [h]
    exact hsound
  keeps p hp := by
    rw [h]
    exact hp
  stores call hcall := by cases hcall
  keyed call hcall := by cases hcall

theorem Keeps.trans {between after : World} {calls later : List Call}
    (h : Keeps w between calls) (hlater : Keeps between after later) :
    Keeps w after (calls ++ later) where
  sound := hlater.sound
  keeps p hp := hlater.keeps p (h.keeps p hp)
  stores call hcall := by
    rcases List.mem_append.mp hcall with hcall | hcall
    · exact hlater.keeps _ (h.stores call hcall)
    · exact hlater.stores call hcall
  keyed call hcall := by
    rcases List.mem_append.mp hcall with hcall | hcall
    · exact h.keyed call hcall
    · exact hlater.keyed call hcall

end

/-! ## A first keyed call -/

attribute [local instance] Site.plain

section
variable {content other k : String}

end

end PowerFramework.Memory
