import PowerFramework.Handoff.Sessions
/-!
# The lifecycle of a packet

What holds of every stored packet behind any calls.  `complete` checks the gates that the packet
had, not the ones it is given: a completed packet has no open gates as long as no completion
brings some.
-/

namespace PowerFramework.Handoff

open Lib Lib.Failure Lib.Text Lib.Writes State

/-- The phase and the approval of a checkpoint. -/
def Call.checkpointed : Call → Option (Option String × Bool)
  | .advance _ args _ => if args.action = "checkpoint" then some (args.phase, args.approved) else none
  | .create _ _ => none

def checkpoints (steps : List (Call × WorkPacket)) : List (Option String × Bool) :=
  steps.filterMap fun step => step.1.checkpointed

/-- A completion does not bring open gates. -/
def Call.closesGates : Call → Prop
  | .advance _ args _ => args.action = "complete" → args.openGates.getD [] = []
  | .create _ _ => True

def Action.text : Action → String
  | .resume => "resume"
  | .checkpoint => "checkpoint"
  | .inputRequired => "input-required"
  | .complete => "complete"
  | .fail => "fail"
  | .cancel => "cancel"

theorem text_of_ofText? {text : String} {action : Action} (h : Action.ofText? text = some action) :
    text = action.text := by
  unfold Action.ofText? at h
  split at h <;> cases h <;> rfl

theorem Phase.text_of_ofText? {text : String} {phase : Phase} (h : Phase.ofText? text = some phase) :
    text = phase.text := by
  unfold Phase.ofText? at h
  split at h <;> cases h <;> rfl

variable {taskId now : String} {args : AdvanceArgs} {given : Action × Option Phase} {new : Change}
  {current : Fields} {packet : WorkPacket} {fingerprint : String}

theorem givenAction_text {action : Action} (h : args.givenAction = .ok action) :
    args.action = action.text := by
  unfold AdvanceArgs.givenAction at h
  split at h
  · rename_i found heq
    cases h
    exact text_of_ofText? heq
  · cases h

theorem givenPhase_text {phase : Option Phase} (h : args.givenPhase = .ok phase) :
    args.phase = phase.map Phase.text := by
  unfold AdvanceArgs.givenPhase at h
  split at h
  · rename_i heq
    cases h
    exact heq
  · rename_i text heq
    split at h
    · rename_i found hfound
      cases h
      rw [heq, Phase.text_of_ofText? hfound]
      rfl
    · cases h

/-- What an action requires of the packet, and what it makes of its state and phase. -/
def Changes (current : Fields) (phase : Option Phase) (args : AdvanceArgs) (new : Change) :
    Action → Prop
  | .resume => (current.state = .inputRequired → args.approved = true) ∧
      new.state = .working ∧ new.phase = current.maintenancePhase
  | .checkpoint => current.state = .working ∧ new.state = .working ∧
      advanceMaintenancePhase current phase args.approved = .ok new.phase
  | .inputRequired => new.state = .inputRequired ∧ new.phase = current.maintenancePhase
  | .complete => current.state = .working ∧ args.receiptId.any isSafeToken = true ∧
      current.openGates = [] ∧
      (current.profile = .maintenance → current.maintenancePhase = some .receipt) ∧
      new.state = .completed ∧ new.phase = current.maintenancePhase
  | .fail => new.state = .failed ∧ new.phase = current.maintenancePhase
  | .cancel => args.approved = true ∧ new.state = .canceled ∧ new.phase = current.maintenancePhase

theorem change_cases {action : Action} {phase : Option Phase}
    (h : change current action phase args = .ok new) :
    current.state.terminal = false ∧ Changes current phase args new action := by
  unfold change at h
  split at h
  · cases h
  · rename_i hterminal
    refine ⟨by simpa using hterminal, ?_⟩
    cases action with
    | resume =>
      dsimp only at h
      split at h
      · cases h
      · rename_i happroved
        cases h
        refine ⟨fun hwaiting => ?_, rfl, rfl⟩
        by_contra hnot
        exact happroved ⟨hwaiting, by simpa using hnot⟩
    | checkpoint =>
      dsimp only at h
      split at h
      · cases h
      · rename_i hworking
        obtain ⟨newPhase, hphase, hrest⟩ := bind_eq_ok.mp h
        cases hrest
        exact ⟨not_not.mp hworking, rfl, hphase⟩
    | inputRequired =>
      obtain ⟨blocker, -, hrest⟩ := bind_eq_ok.mp h
      cases hrest
      exact ⟨rfl, rfl⟩
    | complete =>
      dsimp only at h
      split at h
      · cases h
      · rename_i hworking
        split at h
        · cases h
        · rename_i hreceipt
          split at h
          · cases h
          · rename_i hgates
            cases h
            rw [not_or, not_and, not_not, not_not] at hgates
            exact ⟨not_not.mp hworking, by simpa using hreceipt, hgates.1, hgates.2, rfl, rfl⟩
    | fail =>
      obtain ⟨blocker, -, hrest⟩ := bind_eq_ok.mp h
      cases hrest
      exact ⟨rfl, rfl⟩
    | cancel =>
      dsimp only at h
      split at h
      · cases h
      · rename_i happroved
        cases h
        exact ⟨by simpa using happroved, rfl, rfl⟩

theorem advanceMaintenancePhase_ok {phase newPhase : Option Phase} {approved : Bool}
    (h : advanceMaintenancePhase current phase approved = .ok newPhase)
    (hprofile : current.profile = .maintenance) :
    ∃ source, phase = some source ∧ current.maintenancePhase = some source ∧
      (source = .repair → approved = true) ∧ newPhase = some (nextMaintenancePhase source) := by
  unfold advanceMaintenancePhase at h
  rw [if_neg (by simp [hprofile])] at h
  split at h
  · cases h
  · rename_i source
    split at h
    · cases h
    · rename_i hcurrent
      split at h
      · cases h
      · rename_i happroved
        cases h
        refine ⟨source, rfl, not_not.mp hcurrent, fun hrepair => ?_, rfl⟩
        by_contra hnot
        exact happroved ⟨hrepair, by simpa using hnot⟩

theorem updated_fields {action : Action} {phase : Option Phase} (h : modelValidate
      (updatedFields current action phase args new fingerprint now) = .ok packet) :
    packet.fields.state = new.state ∧ packet.fields.maintenancePhase = new.phase ∧
      packet.fields.profile = current.profile ∧
      packet.fields.receiptIds = (appendNew current.receiptIds
        ((args.receiptId.filter (· ≠ "")).toList)).map stripText ∧
      packet.fields.openGates = (args.openGates.getD current.openGates).map stripText := by
  obtain ⟨-, hfields⟩ := modelValidate_ok h
  rw [hfields]
  exact ⟨rfl, rfl, rfl, rfl, rfl⟩

theorem appendNew_singleton_ne_nil (items : List String) (value : String) :
    appendNew items [value] ≠ [] := by
  show (if value ∈ items then items else items ++ [value]) ≠ []
  split
  · rename_i hmem
    exact List.ne_nil_of_mem hmem
  · simp

/-- A completion leaves a receipt, and the gates that it is given. -/
theorem completed_updated (hnew : change current given.1 given.2 args = .ok new)
    (hgiven : args.validate taskId = .ok given)
    (hupdated : modelValidate (updatedFields current given.1 given.2 args new fingerprint now) =
      .ok packet)
    (hcloses : args.action = "complete" → args.openGates.getD [] = [])
    (hstate : packet.fields.state = .completed) :
    packet.fields.receiptIds ≠ [] ∧ packet.fields.openGates = [] := by
  obtain ⟨hupstate, -, -, hreceipts, hgates⟩ := updated_fields hupdated
  obtain ⟨-, haction, -, -⟩ := AdvanceArgs.validate_ok hgiven
  obtain ⟨-, hcases⟩ := change_cases hnew
  rw [hupstate] at hstate
  cases hkind : given.1 with
  | resume => rw [hkind] at hcases; rw [hcases.2.1] at hstate; cases hstate
  | checkpoint => rw [hkind] at hcases; rw [hcases.2.1] at hstate; cases hstate
  | inputRequired => rw [hkind] at hcases; rw [hcases.1] at hstate; cases hstate
  | fail => rw [hkind] at hcases; rw [hcases.1] at hstate; cases hstate
  | cancel => rw [hkind] at hcases; rw [hcases.2.1] at hstate; cases hstate
  | complete =>
    rw [hkind] at hcases haction
    obtain ⟨-, hreceipt, hopen, -⟩ := hcases
    refine ⟨?_, ?_⟩
    · cases hid : args.receiptId with
      | none => simp [hid] at hreceipt
      | some receipt =>
        have hne : receipt ≠ "" := by
          rintro rfl
          rw [hid] at hreceipt
          exact absurd hreceipt (by decide)
        have hfilter : ((some receipt).filter (· ≠ "")).toList = [receipt] := by
          simp [Option.filter, hne]
        rw [hreceipts, hid, hfilter]
        intro hempty
        exact appendNew_singleton_ne_nil _ _ (List.map_eq_nil_iff.mp hempty)
    · have hgiven := hcloses (givenAction_text haction)
      rw [hgates]
      cases hgates' : args.openGates with
      | none => simp [hopen]
      | some values =>
        rw [hgates', Option.getD_some] at hgiven
        simp [hgiven]

/-! ## Paths -/

theorem Path.ne_nil {steps : List (Call × WorkPacket)} (h : Path taskId steps) : steps ≠ [] := by
  cases h <;> simp

/-- A path up to one of its steps. -/
theorem Path.upTo {steps front back : List (Call × WorkPacket)} {step : Call × WorkPacket}
    (h : Path taskId steps) (heq : steps = front ++ step :: back) : Path taskId (front ++ [step]) := by
  induction h generalizing back with
  | @created args now packet htask hpacket =>
    cases front with
    | nil =>
      cases heq
      exact .created htask hpacket
    | cons first front => simp at heq
  | @advanced before call current packet args now given new hpath hgiven hnew hupdated ih =>
    rcases List.eq_nil_or_concat back with rfl | ⟨inner, last, rfl⟩
    · rw [← heq]
      exact .advanced hpath hgiven hnew hupdated
    · rw [List.concat_eq_append, ← List.cons_append, ← List.append_assoc] at heq
      exact ih (List.append_inj' heq rfl).1

/-- The phases whose checkpoints lead to a phase. -/
def phasesBefore : Phase → List String
  | .detect => []
  | .dryRun => ["detect"]
  | .repair => ["detect", "dry-run"]
  | .verify => ["detect", "dry-run", "repair"]
  | .receipt => ["detect", "dry-run", "repair", "verify"]

/-- The checkpoints so far lead to the phase of a maintenance packet. -/
structure ReachedBy (packet : WorkPacket) (steps : List (Call × WorkPacket)) (phase : Phase)
    (rest : Nat) : Prop where
  current : packet.fields.maintenancePhase = some phase
  phases : (checkpoints steps).map Prod.fst =
    (phasesBefore phase).map some ++ List.replicate rest (some "receipt")
  last : rest ≠ 0 → phase = .receipt
  approved : ∀ checkpoint ∈ checkpoints steps, checkpoint.1 = some "repair" → checkpoint.2 = true

theorem checkpoints_append (xs ys : List (Call × WorkPacket)) :
    checkpoints (xs ++ ys) = checkpoints xs ++ checkpoints ys := List.filterMap_append

/-- An action without a checkpoint leaves the phase as it was reached. -/
theorem ReachedBy.keep {before : WorkPacket} {steps : List (Call × WorkPacket)} {phase : Phase}
    {rest : Nat} (h : ReachedBy before steps phase rest)
    (hphase : packet.fields.maintenancePhase = before.fields.maintenancePhase)
    (haction : args.action ≠ "checkpoint") :
    ReachedBy packet (steps ++ [(.advance taskId args now, packet)]) phase rest := by
  have hsame : checkpoints (steps ++ [(.advance taskId args now, packet)]) = checkpoints steps := by
    rw [checkpoints_append]
    simp [checkpoints, Call.checkpointed, haction]
  exact
    { current := hphase.trans h.current
      phases := by rw [hsame]; exact h.phases
      last := h.last
      approved := by rw [hsame]; exact h.approved }

theorem phasesBefore_next {source : Phase} (h : source ≠ .receipt) :
    phasesBefore (nextMaintenancePhase source) = phasesBefore source ++ [source.text] := by
  cases source with
  | receipt => exact absurd rfl h
  | _ => rfl

/-- A checkpoint reaches the next phase, or stays in the last one. -/
theorem ReachedBy.next {before : WorkPacket} {steps : List (Call × WorkPacket)} {source : Phase}
    {rest : Nat} (h : ReachedBy before steps source rest)
    (hphase : packet.fields.maintenancePhase = some (nextMaintenancePhase source))
    (haction : args.action = "checkpoint") (hgiven : args.phase = some source.text)
    (happroved : source = .repair → args.approved = true) :
    ∃ phase rest, ReachedBy packet (steps ++ [(.advance taskId args now, packet)]) phase rest := by
  have hmore : checkpoints (steps ++ [(.advance taskId args now, packet)]) =
      checkpoints steps ++ [(some source.text, args.approved)] := by
    rw [checkpoints_append]
    simp [checkpoints, Call.checkpointed, haction, hgiven]
  have happroves : ∀ checkpoint ∈ checkpoints (steps ++ [(.advance taskId args now, packet)]),
      checkpoint.1 = some "repair" → checkpoint.2 = true := by
    intro checkpoint hmem hrepair
    rw [hmore, List.mem_append, List.mem_singleton] at hmem
    rcases hmem with hold | rfl
    · exact h.approved checkpoint hold hrepair
    · apply happroved
      have htext : source.text = "repair" := Option.some.inj hrepair
      cases source <;> first | rfl | exact absurd htext (by decide)
  by_cases hlast : source = .receipt
  · subst hlast
    refine ⟨.receipt, rest + 1, hphase, ?_, fun _ => rfl, happroves⟩
    rw [hmore, List.map_append, h.phases, List.replicate_succ', List.append_assoc]
    rfl
  · have hnone : rest = 0 := by
      by_contra hrest
      exact hlast (h.last hrest)
    subst hnone
    refine ⟨nextMaintenancePhase source, 0, hphase, ?_, fun hne => absurd rfl hne, happroves⟩
    rw [hmore, List.map_append, h.phases, phasesBefore_next hlast]
    simp

theorem Path.reached {steps : List (Call × WorkPacket)} (h : Path taskId steps) :
    ∀ front step, steps = front ++ [step] → step.2.fields.profile = .maintenance →
      ∃ phase rest, ReachedBy step.2 steps phase rest := by
  induction h with
  | @created args now packet htask hpacket =>
    rintro front step heq hprofile
    obtain ⟨rfl, hstep⟩ := List.append_inj' (show [] ++ [_] = front ++ [step] from heq) rfl
    cases hstep
    refine ⟨.detect, 0, ?_, rfl, fun hne => absurd rfl hne, fun _ hmem => by cases hmem⟩
    unfold CreateArgs.packet at hpacket
    split at hpacket
    · rename_i authority profile hauthority hmaintenance
      obtain ⟨-, hfields⟩ := modelValidate_ok hpacket
      rw [hfields] at hprofile ⊢
      have hkind : profile = .maintenance := hprofile
      have htext : args.profile = "maintenance" := by
        rw [hkind] at hmaintenance
        unfold Profile.ofText? at hmaintenance
        split at hmaintenance <;> first | assumption | cases hmaintenance
      show (if args.profile = "maintenance" then some Phase.detect else none) = some Phase.detect
      rw [if_pos htext]
    · cases hpacket
  | @advanced before call current packet args now given new hpath hgiven hnew hupdated ih =>
    rintro front step heq hprofile
    obtain ⟨-, hstep⟩ := List.append_inj' heq rfl
    cases hstep
    obtain ⟨-, hphase, hsame, -, -⟩ := updated_fields hupdated
    have hcurrent : current.fields.profile = .maintenance := hsame.symm.trans hprofile
    obtain ⟨phase, rest, hreached⟩ := ih _ _ rfl hcurrent
    obtain ⟨-, haction, -, hgivenPhase⟩ := AdvanceArgs.validate_ok hgiven
    have htext := givenAction_text haction
    obtain ⟨-, hcases⟩ := change_cases hnew
    cases hkind : given.1 with
    | checkpoint =>
      rw [hkind] at hcases htext
      obtain ⟨source, hsource, hfrom, happroved, hnext⟩ :=
        advanceMaintenancePhase_ok hcases.2.2 hcurrent
      have hcurrentPhase := hreached.current
      rw [hfrom] at hcurrentPhase
      cases hcurrentPhase
      have hgivenText := givenPhase_text hgivenPhase
      rw [hsource] at hgivenText
      exact hreached.next (hphase.trans hnext) htext hgivenText happroved
    | resume =>
      rw [hkind] at hcases htext
      exact ⟨phase, rest, hreached.keep (hphase.trans hcases.2.2) (by rw [htext]; decide)⟩
    | inputRequired =>
      rw [hkind] at hcases htext
      exact ⟨phase, rest, hreached.keep (hphase.trans hcases.2) (by rw [htext]; decide)⟩
    | complete =>
      rw [hkind] at hcases htext
      exact ⟨phase, rest, hreached.keep (hphase.trans hcases.2.2.2.2.2) (by rw [htext]; decide)⟩
    | fail =>
      rw [hkind] at hcases htext
      exact ⟨phase, rest, hreached.keep (hphase.trans hcases.2) (by rw [htext]; decide)⟩
    | cancel =>
      rw [hkind] at hcases htext
      exact ⟨phase, rest, hreached.keep (hphase.trans hcases.2.2) (by rw [htext]; decide)⟩

/-! ## Stored packets -/

variable {store : Store} {track : Option Track}

theorem Path.completed {steps : List (Call × WorkPacket)} (h : Path taskId steps)
    (hcloses : ∀ step ∈ steps, step.1.closesGates) : ∀ step ∈ steps,
      step.2.fields.state = .completed →
        step.2.fields.receiptIds ≠ [] ∧ step.2.fields.openGates = [] := by
  induction h with
  | @created args now packet htask hpacket =>
    intro step hstep hstate
    rw [List.mem_singleton.mp hstep] at hstate
    unfold CreateArgs.packet at hpacket
    split at hpacket
    · obtain ⟨-, hfields⟩ := modelValidate_ok hpacket
      rw [hfields] at hstate
      cases hstate
    · cases hpacket
  | @advanced before call current packet args now given new hpath hgiven hnew hupdated ih =>
    intro step hstep hstate
    rcases List.mem_append.mp hstep with hold | hlast
    · exact ih (fun step hmem => hcloses step (List.mem_append_left _ hmem)) step hold hstate
    · rw [List.mem_singleton.mp hlast] at hstate ⊢
      have hgates : args.action = "complete" → args.openGates.getD [] = [] :=
        hcloses (.advance taskId args now, packet) (by simp)
      exact completed_updated hnew hgiven hupdated hgates hstate

/-- An accepted call is a step of its task. -/
theorem Session.accepts (call : Call) {s : Session} {e : LogEntry}
    (hrepresents : Represents s.store call.taskId track) (hclash : NoClash s.store call.taskId)
    (houtcome : call.outcome track = .ok (some e, packet)) :
    (call, packet) ∈ (s.call call).steps call.taskId ∧
      Represents (s.call call).store call.taskId (some (push track e)) := by
  obtain rfl := Call.entry_packet houtcome
  have hrun := Call.run_eq hrepresents hclash
  rw [houtcome] at hrun
  have hfits : Fits call.taskId track e := Call.fits hrepresents.sound houtcome
  refine ⟨?_, ?_⟩
  · rw [steps_call, hrun]
    simp [enacted, Outcome.accepted, entryWrites]
  · show Represents (perform (call.run s.store).1 s.store) call.taskId _
    rw [hrun]
    exact hfits.represents hrepresents.sound s.store

end PowerFramework.Handoff
