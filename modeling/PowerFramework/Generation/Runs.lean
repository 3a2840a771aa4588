import PowerFramework.Generation.Interleavings
/-!
# Runs of many synchronisations

The invariant of a world with any number of runs, the steps that break it, and the active generation
in every state that the other steps reach.
-/

set_option linter.unusedSectionVars false

namespace PowerFramework.Generation

open Lib Lib.Failure Lib.Run

/-- The steps that are kept away.  A publication with two ready generations that were completed
later is one that its own retention removes; a failure is recorded for the generation of the pointer
when an exception follows its publication; and a reaper that stops before its transaction has
committed leaves the row of a build whose file it has removed. -/
def World.Careful (w : World) (move : Nat × Event) : Prop :=
  match w.stage move.1, move.2 with
  | .identified generationId _ _, .publish completedAt _ =>
      w.store.ahead generationId (some completedAt) < retainReadyGenerations
  | .failing generationId _, .recordFailure _ =>
      w.store.activeGeneration.map Prod.fst ≠ some generationId
  | .reaping reaper, .raise | .reaping reaper, .kill => ∀ id ∈ reaper.claims.getD [],
      ∀ run sha256 size, w.stage run = .identified id sha256 size → w.store.generations id ≠ none
  | _, _ => True

/-- The invariant of a world. -/
structure World.Inv [Integrity] (w : World) : Prop where
  tidy : w.store.Tidy
  served : w.store.Served
  known : ∀ run id, (w.stage run).generationId = some id → w.store.rows.lookup id ≠ none
  alone : ∀ run run' id, (w.stage run).generationId = some id →
    (w.stage run').generationId = some id → run = run'
  writer : ∀ run, (w.stage run).locks = true ↔ w.writer = some run
  fits : ∀ run, (w.stage run).Fits w.store
  /-- A file that is gone while its build goes on was removed by a reaper that has not committed. -/
  missing : ∀ run id sha256 size, w.stage run = .identified id sha256 size →
    w.store.isBuilding id = true → w.store.generations id = none →
      ∃ run', id ∈ (w.stage run').claims

theorem inv_initial [Integrity] : World.initial.Inv where
  tidy := ⟨List.nodup_nil, fun _ _ h => nomatch h⟩
  served _ _ h := nomatch h
  known _ _ h := nomatch h
  alone _ _ _ h := nomatch h
  writer _ := by
    constructor
    · intro h
      cases h
    · intro h
      cases h
  fits _ := trivial
  missing _ _ _ _ h := nomatch h

section
variable [Integrity] {w w' : World} {run : Nat} {event : Event} {free : Bool} {s' : Store}
  {stage' : Stage}

theorem locks_of_claims {stage : Stage} {id : String} (h : id ∈ stage.claims) :
    stage.locks = true := by
  cases stage with
  | reaping reaper =>
    obtain ⟨activeId, todo, unlinking, claims⟩ := reaper
    cases claims with
    | none => exact (List.not_mem_nil h).elim
    | some _ => rfl
  | _ => cases h

/-- A run that is free to write is the only one with open claims. -/
theorem World.Inv.claims_of_free (h : w.Inv) (hfree : w.writer = none ∨ w.writer = some run)
    {other : Nat} (hother : other ≠ run) : (w.stage other).claims = [] := by
  rw [List.eq_nil_iff_forall_not_mem]
  intro id hid
  have hwriter := (h.writer other).mp (locks_of_claims hid)
  rcases hfree with hnone | hrun
  · cases hnone.symm.trans hwriter
  · cases hrun.symm.trans hwriter
    exact hother rfl

theorem World.step_ok (h : w.step (run, event) = .ok w') : ∃ s' stage',
    Change (decide (w.writer = none ∨ w.writer = some run)) w.store (w.stage run) event s' stage' ∧
      w' = ⟨s', Function.update w.stage run stage',
        if stage'.locks = true then some run
        else if w.writer = some run then none
        else w.writer⟩ := by
  unfold World.step at h
  dsimp only at h
  split at h
  · cases h
  next s' stage' hrun =>
    cases h
    exact ⟨s', stage', change_of_runStep hrun, rfl⟩

/-- The lock is free for a run that publishes, so no reaper holds a claim on its build. -/
theorem World.Inv.present (h : w.Inv) (hfree : w.writer = none ∨ w.writer = some run)
    {id sha256 : String} {size : Nat} (hstage : w.stage run = .identified id sha256 size)
    (hbuilding : w.store.isBuilding id = true) : w.store.Intact id sha256 size := by
  have hfits := h.fits run
  rw [hstage] at hfits
  rcases hfits.2.1 with hnone | hintact
  · obtain ⟨other, hclaim⟩ := h.missing run id sha256 size hstage hbuilding hnone
    have hother : other ≠ run := by
      rintro rfl
      rw [hstage] at hclaim
      cases hclaim
    rw [h.claims_of_free hfree hother] at hclaim
    cases hclaim
  · exact hintact

theorem World.Inv.served_step (h : w.Inv) (hcareful : w.Careful (run, event))
    (hchange : Change (decide (w.writer = none ∨ w.writer = some run)) w.store (w.stage run) event
      s' stage') : s'.Served := by
  have hfits := h.fits run
  have hserved := h.served
  generalize hstage : w.stage run = stage at hchange hfits
  simp only [World.Careful, hstage] at hcareful
  cases hchange with
  | light | leave | collect | claims | identify | revoke | list | clean => exact hserved
  | unlinkClaimed hartifact =>
    exact hserved.unlink (hserved.ne_of_building (hfits.1 _ (hfits.2 _ hartifact)))
  | failClaimed => exact hserved.failAll _ fun id hid => hserved.ne_of_building (hfits.1 id hid)
  | record => exact hserved.insertBuilding
  | connect => exact hserved.keep rfl (fun _ _ => ⟨rfl, rfl⟩) fun _ _ => le_rfl
  | build => exact hserved.writeStaging _
  | replace => exact hserved.replace (hserved.ne_of_unpublished hfits.1)
  | publish hfree htimes hbuilding =>
    exact h.tidy.served_publish hbuilding (h.present (of_decide_eq_true hfree) hstage hbuilding)
      ⟨hfits.2.2, htimes⟩ hcareful
  | dropRevoked => exact hserved.unlink (hserved.ne_of_unpublished hfits)
  | unlinkVictim hvictim => exact hserved.unlink (hfits.1 _ hvictim).2
  | supersedeUnlinked => exact hserved.supersedeAll fun id hid => (hfits.2.2 id hid).2
  | recordFailure => exact hserved.fail _ hcareful
  | sweep => exact hserved.keep rfl (fun _ _ => ⟨rfl, rfl⟩) fun _ _ => le_rfl

theorem Advance.known {s : Store} {own : Option String} (h : Advance s s' own) {id : String}
    (hid : s.rows.lookup id ≠ none) : s'.rows.lookup id ≠ none := by
  obtain ⟨row, hrow⟩ := Option.ne_none_iff_exists'.mp hid
  obtain ⟨row', hrow', -⟩ := h.rows id row hrow
  rw [hrow']
  exact Option.some_ne_none row'

theorem Advance.was_building {s : Store} {own : Option String} (h : Advance s s' own) {id : String}
    (hid : s.rows.lookup id ≠ none) (hbuilding : s'.isBuilding id = true) :
    s.isBuilding id = true := by
  obtain ⟨row, hrow⟩ := Option.ne_none_iff_exists'.mp hid
  obtain ⟨row', hrow', hstate, -⟩ := h.rows id row hrow
  obtain ⟨row'', hrow'', hbuilding'⟩ := isBuilding_iff.mp hbuilding
  cases hrow'.symm.trans hrow''
  refine isBuilding_iff.mpr ⟨row, hrow, ?_⟩
  by_contra hne
  exact hstate hne hbuilding'

theorem Change.identified {s : Store} {stage : Stage} {id sha256 : String} {size : Nat}
    (h : Change free s stage event s' (.identified id sha256 size)) : s'.generations id ≠ none := by
  cases h with
  | light hlight | leave hlight | sweep hlight => cases hlight
  | identify hdata =>
    rw [hdata]
    exact Option.some_ne_none _

/-- A reaper that stops has not removed the file of a build that has been measured. -/
theorem World.Careful.claimed (h : w.Careful (run, event)) (hevent : event = .raise ∨ event = .kill)
    {id sha256 : String} {size other : Nat} (hclaim : id ∈ (w.stage run).claims)
    (hstage : w.stage other = .identified id sha256 size) : w.store.generations id ≠ none := by
  cases hrun : w.stage run with
  | reaping reaper =>
    rw [hrun] at hclaim
    rcases hevent with rfl | rfl
    · simp only [World.Careful, hrun] at h
      exact h id hclaim other sha256 size hstage
    · simp only [World.Careful, hrun] at h
      exact h id hclaim other sha256 size hstage
  | _ =>
    rw [hrun] at hclaim
    cases hclaim

/-- One step of one run keeps the invariant. -/
theorem World.Inv.step (h : w.Inv) (hcareful : w.Careful (run, event))
    (hstep : w.step (run, event) = .ok w') : w'.Inv := by
  obtain ⟨s', stage', hchange, rfl⟩ := World.step_ok hstep
  have hadvance := hchange.advance
  have hfree : stage'.locks = true → w.writer = none ∨ w.writer = some run := by
    intro hlocks
    rcases hchange.locks hlocks with hfree | hlocks
    · exact of_decide_eq_true hfree
    · exact .inr ((h.writer run).mp hlocks)
  exact {
    tidy := hadvance.tidy h.tidy
    served := h.served_step hcareful hchange
    known := by
      intro other id hid
      dsimp only at hid ⊢
      by_cases hother : other = run
      · rw [hother, Function.update_self] at hid
        rcases hchange.generationId hid with hold | hnew
        · exact hadvance.known (h.known run id hold)
        · exact hnew.2
      · rw [Function.update_of_ne hother] at hid
        exact hadvance.known (h.known other id hid)
    alone := by
      -- a generation of the run is its own from before, or has no row yet
      have hown : ∀ other id, other ≠ run → stage'.generationId = some id →
          (w.stage other).generationId = some id → False := by
        intro other id hother hid hid'
        rcases hchange.generationId hid with hold | hnew
        · exact hother (h.alone other run id hid' hold)
        · exact h.known other id hid' hnew.1
      intro other other' id hid hid'
      dsimp only at hid hid'
      by_cases hother : other = run
      · by_cases hother' : other' = run
        · rw [hother, hother']
        · rw [hother, Function.update_self] at hid
          rw [Function.update_of_ne hother'] at hid'
          exact (hown other' id hother' hid hid').elim
      · rw [Function.update_of_ne hother] at hid
        by_cases hother' : other' = run
        · rw [hother', Function.update_self] at hid'
          exact (hown other id hother hid' hid).elim
        · rw [Function.update_of_ne hother'] at hid'
          exact h.alone other other' id hid hid'
    writer := by
      intro other
      dsimp only
      by_cases hother : other = run
      · rw [hother, Function.update_self]
        split_ifs with hlocks hwriter
        · exact ⟨fun _ => rfl, fun _ => hlocks⟩
        · exact iff_of_false hlocks id
        · exact iff_of_false hlocks hwriter
      · rw [Function.update_of_ne hother, h.writer other]
        split_ifs with hlocks hwriter
        · rcases hfree hlocks with hnone | hrun
          · rw [hnone]
            exact iff_of_false (Option.some_ne_none other).symm
              fun h => hother (Option.some.inj h).symm
          · rw [hrun]
        · rw [hwriter]
          exact iff_of_false (fun h => hother (Option.some.inj h).symm) id
        · exact Iff.rfl
    fits := by
      intro other
      dsimp only
      by_cases hother : other = run
      · rw [hother, Function.update_self]
        exact hchange.fits h.tidy h.served (h.fits run)
      · rw [Function.update_of_ne hother]
        refine hadvance.fits (fun id hid heq => hother (h.alone other run id hid heq.symm)) ?_
          (h.fits other)
        by_cases hlock : w.writer = none ∨ w.writer = some run
        · exact .inl (h.claims_of_free hlock hother)
        · refine .inr (hchange.rows (decide_eq_false hlock) ?_)
          rw [Bool.eq_false_iff]
          exact fun hlocks => hlock (.inr ((h.writer run).mp hlocks))
    missing := by
      intro other id sha256 size hstage hbuilding hnone
      dsimp only at hstage hbuilding hnone ⊢
      by_cases hother : other = run
      · rw [hother, Function.update_self] at hstage
        rw [hstage] at hchange
        exact absurd hnone hchange.identified
      · rw [Function.update_of_ne hother] at hstage
        have hid : (w.stage other).generationId = some id := by
          rw [hstage]
          rfl
        have hbefore := hadvance.was_building (h.known other id hid) hbuilding
        rcases hchange.missing (h.fits run) (fun heq => hother (h.alone other run id hid heq)) hbefore
          hnone with hgone | hclaimed
        · obtain ⟨claimant, hclaim⟩ := h.missing other id sha256 size hstage hbefore hgone
          by_cases hclaimant : claimant = run
          · rw [hclaimant] at hclaim
            rcases hchange.keeps_claims hclaim with hkept | hfailed | hevent
            · exact ⟨run, by rw [Function.update_self]; exact hkept⟩
            · cases hfailed.symm.trans hbuilding
            · exact absurd hgone (hcareful.claimed hevent hclaim hstage)
          · exact ⟨claimant, by rw [Function.update_of_ne hclaimant]; exact hclaim⟩
        · exact ⟨run, by rw [Function.update_self]; exact hclaimed⟩ }

/-- Every state that careful steps reach. -/
theorem inv_reached {moves : List (Nat × Event)}
    (hcareful : Throughout World.step World.initial World.Careful moves)
    (hrun : moves.foldlM World.step World.initial = .ok w) : w.Inv := by
  refine foldlM_history
    (P := fun before w => Throughout World.step World.initial World.Careful before → w.Inv)
    (fun _ => inv_initial) (fun before mid move next hbefore ih hstep hall => ?_) hrun hcareful
  obtain ⟨hmoves, hmove⟩ := (throughout_concat hbefore).mp hall
  exact (ih hmoves).step hmove hstep

/-- In every run of careful steps the active generation is ready, its file has the recorded size and
digest, it is the one that is resolved, and a later run gets past reading it. -/
theorem active_readable {moves : List (Nat × Event)}
    (hcareful : Throughout World.step World.initial World.Careful moves)
    (hrun : moves.foldlM World.step World.initial = .ok w) :
    w.store.Readable ∧ ∀ run id, w.stage run = .connect id →
      ∃ w', w.step (run, .connect) = .ok w' ∧ w'.stage run = .building id := by
  have hinv := inv_reached hcareful hrun
  refine ⟨hinv.served.readable, fun run id hstage => ?_⟩
  obtain ⟨active, hactive⟩ := hinv.served.resolves
  have hstep : w.step (run, .connect) = .ok ⟨
      { w.store with staging := Function.update w.store.staging id (some []) },
      Function.update w.stage run (.building id),
      if w.writer = some run then none else w.writer⟩ := by
    simp only [World.step, runStep, hstage, hactive]
    rfl
  exact ⟨_, hstep, Function.update_self _ _ _⟩

end

/-! ## A first synchronisation -/

/-- The events that every world takes with care. -/
def Event.calm : Event → Bool
  | .publish _ _ | .recordFailure _ | .raise | .kill => false
  | _ => true

theorem careful_of_calm {w : World} {move : Nat × Event} (h : move.2.calm = true) :
    w.Careful move := by
  unfold World.Careful
  split
  next hevent => rw [hevent] at h; cases h
  next hevent => rw [hevent] at h; cases h
  next hevent => rw [hevent] at h; cases h
  next hevent => rw [hevent] at h; cases h
  next => trivial

/-- A publication where nothing is ready yet. -/
theorem careful_publish_of_none_ready {w : World} {run : Nat} {completedAt activatedAt : String}
    (h : (w.store.rows.all fun entry => decide (entry.2.state ≠ .ready)) = true) :
    w.Careful (run, .publish completedAt activatedAt) := by
  unfold World.Careful
  split
  next generationId _ _ time _ _ _ =>
    have hnone : w.store.ahead generationId (some time) = 0 := by
      unfold Store.ahead
      rw [List.countP_eq_zero]
      intro entry hentry hready
      rw [List.all_eq_true] at h
      have hne := h entry hentry
      rw [decide_eq_true_eq] at hne hready
      exact hne hready.1
    rw [hnone]
    decide
  next hevent => cases hevent
  next hevent => cases hevent
  next hevent => cases hevent
  next => trivial

/-- A database image that passes its check. -/
@[reducible] def soundImages : Integrity := ⟨fun _ => true⟩

section
attribute [local instance] soundImages

/-- The steps of a first synchronisation up to its publication transaction. -/
def firstSteps : List (Nat × Event) :=
  [.call, .readActive, .readBuilding, .commit "t0", .record "g1" "h1" "t0", .connect, .build [83],
    .replace, .identify].map fun event => (0, event)

/-- A first synchronisation with its publication transaction. -/
def publishedSteps : List (Nat × Event) := firstSteps ++ [(0, .publish "t1" "t1")]

theorem exists_of_outcome (moves : List (Nat × Event)) {P : World → Bool}
    (h : (moves.foldlM World.step World.initial).toOption.map P = some true) :
    ∃ w, moves.foldlM World.step World.initial = .ok w ∧ P w = true := by
  cases hrun : moves.foldlM World.step World.initial with
  | error e =>
    rw [hrun] at h
    cases h
  | ok w =>
    rw [hrun] at h
    exact ⟨w, rfl, Option.some.inj h⟩

theorem careful_published :
    Throughout World.step World.initial World.Careful publishedSteps := by
  unfold publishedSteps
  obtain ⟨mid, hfirst, hnone⟩ := exists_of_outcome firstSteps
    (P := fun w => w.store.rows.all fun entry => decide (entry.2.state ≠ .ready))
    (by decide +kernel)
  rw [throughout_concat hfirst]
  refine ⟨throughout_of_forall fun w move hmove => careful_of_calm ?_,
    careful_publish_of_none_ready hnone⟩
  have hcalm : (firstSteps.all fun move => move.2.calm) = true := by decide
  exact List.all_eq_true.mp hcalm move hmove

/-- A first synchronisation publishes, and its generation is readable. -/
theorem active_readable_first : ∃ w, publishedSteps.foldlM World.step World.initial = .ok w ∧
    w.store.activeGeneration = some ("g1", "t1") ∧ w.store.Readable := by
  obtain ⟨w, hrun, hactive⟩ := exists_of_outcome publishedSteps
    (P := fun w => decide (w.store.activeGeneration = some ("g1", "t1"))) (by decide +kernel)
  exact ⟨w, hrun, of_decide_eq_true hactive, (active_readable careful_published hrun).1⟩

/-- A database error of the retention is recorded as the failure of the generation of the
pointer. -/
theorem active_unreadable : ¬ ∀ (_ : Integrity) (moves : List (Nat × Event)) (w : World),
    moves.foldlM World.step World.initial = .ok w → w.store.Readable := by
  intro h
  obtain ⟨w, hrun, hfailed⟩ := exists_of_outcome
    (publishedSteps ++ [(0, .readBack), (0, .list), (0, .raise), (0, .recordFailure "t2")])
    (P := fun w => decide (w.store.activeGeneration = some ("g1", "t1") ∧
      (w.store.rows.lookup "g1").map Row.state = some .failed)) (by decide +kernel)
  obtain ⟨hactive, hstate⟩ := of_decide_eq_true hfailed
  obtain ⟨row, _, _, hrow, hready, -⟩ := h soundImages _ w hrun "g1" "t1" hactive
  rw [hrow] at hstate
  cases hready.symm.trans (Option.some.inj hstate)

/-- The steps of a reaper that is killed after it has removed the artifacts of a build. -/
def killedReaper : List (Nat × Event) :=
  [.call, .readActive, .readBuilding, .claim true, .unlink false, .unlink false, .kill].map
    fun event => (1, event)

example : ((firstSteps ++ killedReaper ++ [(0, Event.publish "t1" "t1")]).foldlM World.step
    World.initial).toOption.map (fun (w : World) => (w.store.activeGeneration, w.store.generations "g1")) =
      some (some ("g1", "t1"), none) := by decide +kernel

end

end PowerFramework.Generation
