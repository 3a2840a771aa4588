import PowerFramework.Generation.Readable
/-!
# The active generation over interleavings

What a step of a run does, said once, and from it the invariant of a world with any number of runs.
-/

set_option linter.unusedSectionVars false

namespace PowerFramework.Generation

open Lib Lib.Failure Lib.Run

/-- A stage that relies on nothing. -/
def Stage.light : Stage → Bool
  | .idle | .reapActive | .reapRows _ | .inventory | .published _ | .retention _ | .archiving _
  | .failing _ _ | .sweeping _ _ => true
  | _ => false

/-! ## One step -/

section
variable [Integrity]

/-- What a step of a run does, by what it writes. -/
inductive Change (free : Bool) (s : Store) : Stage → Event → Store → Stage → Prop
  | light {stage event next} (hlight : next.light = true)
      (hid : next.generationId = none ∨ next.generationId = stage.generationId)
      (hclaims : stage.claims = []) : Change free s stage event s next
  | leave {stage event next} (hlight : next.light = true)
      (hid : next.generationId = none ∨ next.generationId = stage.generationId)
      (hevent : event = .raise ∨ event = .kill) : Change free s stage event s next
  | collect {activeId todo event} :
      Change free s (.reapRows activeId) event s (.reaping ⟨activeId, todo, [], none⟩)
  | claims {reaper next event}
      (hkept : ∀ id ∈ reaper.claims.getD [], id ∈ next.claims.getD [])
      (hbuilding : ∀ id ∈ next.claims.getD [], id ∈ reaper.claims.getD [] ∨ s.isBuilding id = true)
      (hunlinking : ∀ artifact ∈ next.unlinking, artifact ∈ reaper.unlinking ∨
        artifact.generationId ∈ next.claims.getD [])
      (hfree : next.claims.isSome = true → free = true ∨ reaper.claims.isSome = true) :
      Change free s (.reaping reaper) event s (.reaping next)
  | unlinkClaimed {reaper next event artifact} (hartifact : artifact ∈ reaper.unlinking)
      (hclaims : next.claims = reaper.claims)
      (hunlinking : ∀ artifact ∈ next.unlinking, artifact ∈ reaper.unlinking) :
      Change free s (.reaping reaper) event (s.unlink artifact) (.reaping next)
  | failClaimed {reaper now event} : Change free s (.reaping reaper) event
      ((reaper.claims.getD []).foldr (fun id s => s.fail now id) s) .inventory
  | record {generationId hash createdAt event} (hfree : free = true)
      (hnone : s.rows.lookup generationId = none) (hhash : hash ≠ "") :
      Change free s .inventory event (s.insertBuilding generationId hash createdAt)
        (.connect generationId)
  | connect {generationId event} : Change free s (.connect generationId) event
      { s with staging := Function.update s.staging generationId (some []) }
      (.building generationId)
  | build {generationId image event} (hok : Integrity.ok image = true) :
      Change free s (.building generationId) event (s.writeStaging generationId image)
        (.staged generationId)
  | replace {generationId image event} (hstaging : s.staging generationId = some image) :
      Change free s (.staged generationId) event (s.replace generationId image)
        (.moved generationId)
  | identify {generationId data event} (hdata : s.generations generationId = some data) :
      Change free s (.moved generationId) event s
        (.identified generationId (Sha256.hexdigest data) data.length)
  | publish {generationId sha256 size completedAt activatedAt} (hfree : free = true)
      (htimes : completedAt ≠ "" ∧ activatedAt ≠ "")
      (hbuilding : s.isBuilding generationId = true) :
      Change free s (.identified generationId sha256 size) (.publish completedAt activatedAt)
        (s.publish generationId sha256 size completedAt activatedAt) (.published generationId)
  | revoke {generationId sha256 size event} :
      Change free s (.identified generationId sha256 size) event s (.revoked generationId)
  | dropRevoked {generationId event again} : Change free s (.revoked generationId) event
      (s.unlink (.generation generationId)) (.failing generationId again)
  | list {generationId event} : Change free s (.retention generationId) event s
      (.cleaning generationId ⟨s.unretained, none, none⟩)
  | clean {generationId cleaner next event}
      (hvictims : ∀ id ∈ next.victims, id ∈ cleaner.victims)
      (hunlinked : ∀ id ∈ next.unlinked, id ∈ cleaner.unlinked ∨ id ∈ cleaner.victims)
      (hsuperseded : ∀ id ∈ next.superseded.getD [],
        id ∈ cleaner.superseded.getD [] ∨ id ∈ cleaner.unlinked)
      (hfree : next.superseded.isSome = true → free = true ∨ cleaner.superseded.isSome = true) :
      Change free s (.cleaning generationId cleaner) event s (.cleaning generationId next)
  | unlinkVictim {generationId cleaner next event victim} (hvictim : victim ∈ cleaner.victims)
      (hvictims : ∀ id ∈ next.victims, id ∈ cleaner.victims)
      (hunlinked : next.unlinked = some victim) (hsuperseded : next.superseded = cleaner.superseded) :
      Change free s (.cleaning generationId cleaner) event (s.unlink (.generation victim))
        (.cleaning generationId next)
  | supersedeUnlinked {generationId cleaner event} :
      Change free s (.cleaning generationId cleaner) event
        ((cleaner.superseded.getD []).foldr (fun id s => s.supersede id) s)
        (.archiving generationId)
  | recordFailure {generationId again now} (hfree : free = true) :
      Change free s (.failing generationId again) (.recordFailure now) (s.fail now generationId)
        (.sweeping generationId again)
  | sweep {generationId again event next} (hlight : next.light = true)
      (hid : next.generationId = none) :
      Change free s (.sweeping generationId again) event (s.unlink (.staging generationId)) next

variable {s s' : Store} {stage stage' : Stage} {event : Event} {free : Bool}

theorem Reaper.claim_change {reaper next : Reaper} {expired : Bool}
    (h : reaper.claim free s expired = some next) :
    Change free s (.reaping reaper) event s (.reaping next) := by
  obtain ⟨activeId, todo, unlinking, claims⟩ := reaper
  unfold Reaper.claim at h
  cases unlinking with
  | cons _ _ => cases h
  | nil =>
    cases todo with
    | nil => cases h
    | cons id todo =>
      dsimp only at h
      split_ifs at h with hskip hlocked hbuilding
      · cases h
        exact .claims (fun _ h => h) (fun _ h => .inl h) (fun _ h => .inl h) fun h => .inr h
      · cases h
        refine .claims (fun _ h => List.mem_cons_of_mem _ h) ?_ ?_ fun _ => .inl (by simpa using hlocked)
        · intro other hother
          rcases List.mem_cons.mp hother with rfl | hother
          · exact .inr hbuilding.1
          · exact .inl hother
        · intro artifact hartifact
          right
          have hid : artifact.generationId = id := by
            simp only [buildArtifactPaths, List.mem_cons, List.not_mem_nil, or_false] at hartifact
            rcases hartifact with rfl | rfl
            · rfl
            · rfl
          rw [hid]
          exact List.mem_cons_self
      · cases h
        exact .claims (fun _ h => h) (fun _ h => .inl h) (fun _ h => .inl h)
          fun _ => .inl (by simpa using hlocked)

theorem Reaper.unlink_change {reaper next : Reaper} {fails : Bool}
    (h : reaper.unlink s fails = some (s', next)) :
    Change free s (.reaping reaper) event s' (.reaping next) := by
  obtain ⟨activeId, todo, unlinking, claims⟩ := reaper
  unfold Reaper.unlink at h
  cases unlinking with
  | nil => cases h
  | cons artifact unlinking =>
    dsimp only at h
    split_ifs at h
    · cases h
      exact .claims (fun _ h => h) (fun _ h => .inl h) (fun _ h => by cases h) fun h => .inr h
    · cases h
      exact .unlinkClaimed List.mem_cons_self rfl fun _ h => List.mem_cons_of_mem _ h

theorem Cleaner.unlink_change {cleaner next : Cleaner} {fails : Bool} {generationId : String}
    (h : cleaner.unlink s fails = some (s', next)) :
    Change free s (.cleaning generationId cleaner) event s' (.cleaning generationId next) := by
  obtain ⟨victims, unlinked, superseded⟩ := cleaner
  unfold Cleaner.unlink at h
  cases unlinked with
  | some _ => cases h
  | none =>
    cases victims with
    | nil => cases h
    | cons victim victims =>
      dsimp only at h
      split_ifs at h
      · cases h
        exact .clean (fun _ h => List.mem_cons_of_mem _ h) (fun _ h => .inl h) (fun _ h => .inl h)
          fun h => .inr h
      · cases h
        exact .unlinkVictim List.mem_cons_self (fun _ h => List.mem_cons_of_mem _ h) rfl rfl

theorem Cleaner.supersede_change {cleaner next : Cleaner} {generationId : String}
    (h : cleaner.supersede free = some next) :
    Change free s (.cleaning generationId cleaner) event s (.cleaning generationId next) := by
  obtain ⟨victims, unlinked, superseded⟩ := cleaner
  unfold Cleaner.supersede at h
  cases unlinked with
  | none => cases h
  | some victim =>
    dsimp only at h
    split_ifs at h with hlocked
    cases h
    refine .clean (fun _ h => h) (fun _ h => by cases h) ?_ fun _ => .inl (by simpa using hlocked)
    intro other hother
    rcases List.mem_cons.mp hother with rfl | hother
    · exact .inr rfl
    · exact .inl hother

theorem change_of_runStep (h : runStep free s stage event = some (s', stage')) :
    Change free s stage event s' stage' := by
  cases event with
  | kill =>
    cases stage <;> cases h <;> exact .leave rfl (.inl rfl) (.inr rfl)
  | raise =>
    cases stage with
    | idle => cases h
    | reapActive | reapRows | reaping | inventory | connect | failing | sweeping =>
      cases h
      exact .leave rfl (.inl rfl) (.inl rfl)
    | building | staged | moved | identified | revoked | published | retention | cleaning
    | archiving =>
      cases h
      exact .leave rfl (.inr rfl) (.inl rfl)
  | call =>
    cases stage with
    | idle =>
      cases h
      exact .light rfl (.inl rfl) rfl
    | _ => cases h
  | readActive =>
    cases stage with
    | reapActive =>
      cases h
      exact .light rfl (.inl rfl) rfl
    | _ => cases h
  | readBuilding =>
    cases stage with
    | reapRows activeId =>
      cases h
      exact .collect
    | _ => cases h
  | claim expired =>
    cases stage with
    | reaping reaper =>
      obtain ⟨next, hnext, heq⟩ := Option.map_eq_some_iff.mp h
      cases heq
      exact Reaper.claim_change hnext
    | _ => cases h
  | unlink fails =>
    cases stage with
    | reaping reaper =>
      obtain ⟨⟨_, next⟩, hnext, heq⟩ := Option.map_eq_some_iff.mp h
      cases heq
      exact Reaper.unlink_change hnext
    | cleaning generationId cleaner =>
      obtain ⟨⟨_, next⟩, hnext, heq⟩ := Option.map_eq_some_iff.mp h
      cases heq
      exact Cleaner.unlink_change hnext
    | revoked generationId =>
      cases fails with
      | true =>
        cases h
        exact .light rfl (.inr rfl) rfl
      | false =>
        cases h
        exact .dropRevoked
    | _ => cases h
  | supersede =>
    cases stage with
    | cleaning generationId cleaner =>
      obtain ⟨next, hnext, heq⟩ := Option.map_eq_some_iff.mp h
      cases heq
      exact Cleaner.supersede_change hnext
    | _ => cases h
  | commit now =>
    cases stage with
    | reaping reaper =>
      unfold runStep at h
      dsimp only at h
      split_ifs at h
      cases h
      exact .failClaimed
    | cleaning generationId cleaner =>
      unfold runStep at h
      dsimp only at h
      split_ifs at h
      cases h
      exact .supersedeUnlinked
    | _ => cases h
  | record generationId hash createdAt =>
    cases stage with
    | inventory =>
      unfold runStep at h
      dsimp only at h
      split_ifs at h with hrecord
      cases h
      exact .record hrecord.1 hrecord.2.1 hrecord.2.2
    | _ => cases h
  | connect =>
    cases stage with
    | connect generationId =>
      unfold runStep at h
      dsimp only at h
      split at h
      · cases h
        exact .light rfl (.inl rfl) rfl
      · cases h
        exact .connect
    | _ => cases h
  | build image =>
    cases stage with
    | building generationId =>
      unfold runStep at h
      dsimp only at h
      split_ifs at h with hok
      cases h
      exact .build hok
    | _ => cases h
  | mismatch =>
    cases stage with
    | building generationId =>
      cases h
      exact .light rfl (.inr rfl) rfl
    | _ => cases h
  | replace =>
    cases stage with
    | staged generationId =>
      unfold runStep movedStore at h
      dsimp only at h
      cases hgeneration : s.generations generationId with
      | some _ =>
        rw [hgeneration] at h
        cases h
        exact .light rfl (.inr rfl) rfl
      | none =>
        cases hstaging : s.staging generationId with
        | none =>
          rw [hgeneration, hstaging] at h
          cases h
          exact .light rfl (.inr rfl) rfl
        | some image =>
          rw [hgeneration, hstaging] at h
          cases h
          exact .replace hstaging
    | _ => cases h
  | identify =>
    cases stage with
    | moved generationId =>
      unfold runStep at h
      dsimp only at h
      split at h
      case h_1 data hdata =>
        cases h
        exact .identify hdata
      case h_2 =>
        cases h
        exact .light rfl (.inr rfl) rfl
    | _ => cases h
  | publish completedAt activatedAt =>
    cases stage with
    | identified generationId sha256 size =>
      unfold runStep at h
      dsimp only at h
      split_ifs at h with hrefused hbuilding
      · cases h
        rw [not_or, not_or] at hrefused
        exact .publish (by simpa using hrefused.1) hrefused.2 hbuilding
      · cases h
        exact .revoke
    | _ => cases h
  | readBack =>
    cases stage with
    | published generationId =>
      unfold runStep at h
      dsimp only at h
      split at h
      · split_ifs at h
        · cases h
          exact .light rfl (.inr rfl) rfl
        · cases h
          exact .light rfl (.inr rfl) rfl
      · cases h
        exact .light rfl (.inr rfl) rfl
    | _ => cases h
  | list =>
    cases stage with
    | retention generationId =>
      cases h
      exact .list
    | _ => cases h
  | abandon =>
    cases stage with
    | retention generationId =>
      cases h
      exact .light rfl (.inr rfl) rfl
    | cleaning generationId cleaner =>
      cases h
      exact .light rfl (.inr rfl) rfl
    | _ => cases h
  | archive =>
    cases stage with
    | archiving generationId =>
      cases h
      exact .light rfl (.inl rfl) rfl
    | _ => cases h
  | recordFailure now =>
    cases stage with
    | failing generationId again =>
      unfold runStep at h
      dsimp only at h
      split_ifs at h with hfree
      cases h
      exact .recordFailure hfree
    | _ => cases h
  | sweep =>
    cases stage with
    | sweeping generationId again =>
      cases again with
      | true =>
        cases h
        exact .sweep rfl rfl
      | false =>
        cases h
        exact .sweep rfl rfl
    | _ => cases h

/-! ## What a step preserves -/

theorem generations_failAll (s : Store) (now : String) (ids : List String) :
    (ids.foldr (fun id s => s.fail now id) s).generations = s.generations := by
  induction ids with
  | nil => rfl
  | cons id ids ih => exact ih

theorem generations_supersedeAll (s : Store) (ids : List String) :
    (ids.foldr (fun id s => s.supersede id) s).generations = s.generations := by
  induction ids with
  | nil => rfl
  | cons id ids ih => exact ih

theorem isBuilding_fail (s : Store) (now id other : String) :
    (s.fail now id).isBuilding other = (s.isBuilding other && decide (other ≠ id)) := by
  unfold Store.isBuilding Store.fail
  rw [lookup_updateRow]
  by_cases hid : other = id
  · cases hrow : s.rows.lookup other with
    | none => simp [hid]
    | some row => simp [hid]
  · simp [hid]

theorem isBuilding_failAll (s : Store) (now : String) {ids : List String} {id : String}
    (hid : id ∈ ids) : (ids.foldr (fun id s => s.fail now id) s).isBuilding id = false := by
  induction ids with
  | nil => cases hid
  | cons first ids ih =>
    rw [List.foldr_cons, isBuilding_fail]
    by_cases hfirst : id = first
    · simp [hfirst]
    · rw [ih ((List.mem_cons.mp hid).resolve_left hfirst)]
      rfl

theorem Change.advance (h : Change free s stage event s' stage') :
    Advance s s' stage.generationId := by
  cases h with
  | light | leave | collect | claims | identify | revoke | list | clean => exact Advance.refl s _
  | unlinkClaimed | dropRevoked | unlinkVictim | sweep => exact advance_unlink s _ _
  | failClaimed => exact advance_failAll s _ _ _
  | record hfree hnone hhash => exact advance_insertBuilding hnone hhash
  | connect => exact advance_staging s _
  | build hok => exact advance_writeStaging s _
  | replace => exact advance_replace s _
  | publish hfree htimes hbuilding => exact advance_publish hbuilding
  | supersedeUnlinked => exact advance_supersedeAll s _ _
  | recordFailure => exact advance_fail s _ _ _

/-- A run without the lock leaves the rows. -/
theorem Change.rows (h : Change free s stage event s' stage') (hfree : free = false)
    (hlocks : stage.locks = false) : s'.rows = s.rows := by
  cases h with
  | light | leave | collect | claims | connect | replace | identify | revoke | list | clean => rfl
  | @unlinkClaimed _ _ _ artifact => cases artifact <;> rfl
  | dropRevoked | unlinkVictim | sweep => rfl
  | @failClaimed reaper =>
    have hclaims : reaper.claims = none := by simpa [Stage.locks] using hlocks
    rw [hclaims]
    rfl
  | @supersedeUnlinked _ cleaner =>
    have hsuperseded : cleaner.superseded = none := by simpa [Stage.locks] using hlocks
    rw [hsuperseded]
    rfl
  | build =>
    unfold Store.writeStaging
    split
    · rfl
    · rfl
  | record hrecord | publish hrecord | recordFailure hrecord =>
    cases hfree.symm.trans hrecord

theorem Stage.locks_of_light (h : stage.light = true) : stage.locks = false := by
  cases stage <;> first | rfl | cases h

theorem Stage.fits_of_light (h : stage.light = true) : stage.Fits s := by
  cases stage <;> trivial

theorem Change.locks (h : Change free s stage event s' stage') (hlocks : stage'.locks = true) :
    free = true ∨ stage.locks = true := by
  cases h with
  | light hlight | leave hlight | sweep hlight => cases (Stage.locks_of_light hlight).symm.trans hlocks
  | claims _ _ _ hfree | clean _ _ _ hfree => exact hfree hlocks
  | unlinkClaimed _ hclaims => exact .inr ((congrArg Option.isSome hclaims).symm.trans hlocks)
  | unlinkVictim _ _ _ hsuperseded =>
    exact .inr ((congrArg Option.isSome hsuperseded).symm.trans hlocks)
  | _ => cases hlocks

/-- A run keeps its generation, lets go of it, or records a new one. -/
theorem Change.generationId (h : Change free s stage event s' stage') {id : String}
    (hid : stage'.generationId = some id) : stage.generationId = some id ∨
      s.rows.lookup id = none ∧ s'.rows.lookup id ≠ none := by
  cases h with
  | light _ hnext | leave _ hnext =>
    rcases hnext with hnone | heq
    · cases hnone.symm.trans hid
    · exact .inl (heq.symm.trans hid)
  | sweep _ hnone => cases hnone.symm.trans hid
  | collect | claims | unlinkClaimed | failClaimed => cases hid
  | record _ hnone =>
    cases hid
    refine .inr ⟨hnone, ?_⟩
    rw [lookup_insertBuilding, hnone, if_pos rfl]
    exact Option.some_ne_none _
  | _ => exact .inl hid

theorem Change.fits (h : Change free s stage event s' stage') (htidy : s.Tidy) (hserved : s.Served)
    (hfits : stage.Fits s) : stage'.Fits s' := by
  cases h with
  | light hlight | leave hlight | sweep hlight => exact Stage.fits_of_light hlight
  | failClaimed | publish | dropRevoked | supersedeUnlinked | recordFailure => trivial
  | collect => exact ⟨fun _ h => (List.not_mem_nil h).elim, fun _ h => (List.not_mem_nil h).elim⟩
  | claims hkept hbuilding hunlinking =>
    refine ⟨fun id hid => ?_, fun artifact hartifact => ?_⟩
    · rcases hbuilding id hid with hold | hnew
      · exact hfits.1 id hold
      · exact hnew
    · rcases hunlinking artifact hartifact with hold | hnew
      · exact hkept _ (hfits.2 artifact hold)
      · exact hnew
  | @unlinkClaimed _ _ _ artifact _ hclaims hunlinking =>
    refine ⟨fun id hid => ?_, fun other hother => ?_⟩
    · rw [hclaims] at hid
      have hbuilding := hfits.1 id hid
      cases artifact
      · exact hbuilding
      · exact hbuilding
    · rw [hclaims]
      exact hfits.2 other (hunlinking other hother)
  | @record _ hash createdAt _ _ hnone =>
    refine ⟨⟨.building, hash, createdAt, none, none, none⟩, ?_, by simp⟩
    rw [lookup_insertBuilding, hnone, if_pos rfl]
    rfl
  | connect => exact hfits
  | @build generationId image _ hok =>
    unfold Store.writeStaging
    split
    next hnone => exact ⟨hfits, fun data hdata => nomatch hnone.symm.trans hdata⟩
    next =>
      refine ⟨hfits, fun data hdata => ?_⟩
      cases (Function.update_self generationId (some image) s.staging).symm.trans hdata
      exact hok
  | @replace generationId image _ hstaging =>
    refine ⟨hfits.1, fun data hdata => ?_⟩
    have hmoved : Function.update s.generations generationId (some image) generationId =
        some data := hdata
    rw [Function.update_self] at hmoved
    cases hmoved
    exact hfits.2 image hstaging
  | identify hdata =>
    exact ⟨hfits.1, .inr ⟨_, hdata, rfl, rfl, hfits.2 _ hdata⟩, Sha256.hexdigest_ne_empty _⟩
  | revoke => exact hfits.1
  | list =>
    refine ⟨fun id hid => hserved.retired_of_unretained htidy hid, fun id hid => ?_, fun id hid => ?_⟩
    · cases hid
    · cases hid
  | clean hvictims hunlinked hsuperseded =>
    refine ⟨fun id hid => hfits.1 id (hvictims id hid), fun id hid => ?_, fun id hid => ?_⟩
    · rcases hunlinked id hid with hold | hvictim
      · exact hfits.2.1 id hold
      · exact hfits.1 id hvictim
    · rcases hsuperseded id hid with hold | hunlinked
      · exact hfits.2.2 id hold
      · exact hfits.2.1 id hunlinked
  | @unlinkVictim _ _ _ _ victim hvictim hvictims hunlinked hsuperseded =>
    refine ⟨fun id hid => hfits.1 id (hvictims id hid), fun id hid => ?_, fun id hid => ?_⟩
    · rw [hunlinked] at hid
      cases hid
      exact hfits.1 victim hvictim
    · rw [hsuperseded] at hid
      exact hfits.2.2 id hid

/-- What a stage relies on stays when another run takes a step. -/
theorem Advance.fits {own : Option String} (h : Advance s s' own)
    (hother : ∀ id, stage.generationId = some id → some id ≠ own)
    (hclaims : stage.claims = [] ∨ s'.rows = s.rows) (hfits : stage.Fits s) : stage.Fits s' := by
  have hrow : ∀ id, some id ≠ own → s.Unpublished id → s'.Unpublished id := by
    rintro id hid ⟨row, hrow, hready⟩
    obtain ⟨row', hrow', -, hready'⟩ := h.rows id row hrow
    exact ⟨row', hrow', hready' hready hid⟩
  have hretired : ∀ id, s.Retired id → s'.Retired id := by
    rintro id ⟨⟨row, hrow, hbuilding⟩, hactive⟩
    obtain ⟨row', hrow', hbuilding', -⟩ := h.rows id row hrow
    refine ⟨⟨row', hrow', hbuilding' hbuilding⟩, ?_⟩
    rcases h.active with heq | ⟨other, hother, hstate⟩
    · rw [heq]
      exact hactive
    · rw [hother]
      rintro heq
      cases heq
      obtain ⟨row'', hrow'', hstate'⟩ := isBuilding_iff.mp hstate
      cases hrow.symm.trans hrow''
      exact hbuilding hstate'
  cases stage with
  | reaping reaper =>
    rcases hclaims with hnone | hrows
    · refine ⟨fun id hid => ?_, hfits.2⟩
      rw [show reaper.claims.getD [] = [] from hnone] at hid
      cases hid
    · refine ⟨fun id hid => ?_, hfits.2⟩
      unfold Store.isBuilding
      rw [hrows]
      exact hfits.1 id hid
  | connect id | building id | revoked id => exact hrow id (hother id rfl) hfits
  | staged id =>
    refine ⟨hrow id (hother id rfl) hfits.1, fun data hdata => ?_⟩
    rcases h.staging id (hother id rfl) with heq | hnone
    · exact hfits.2 data (heq.symm.trans hdata)
    · cases hnone.symm.trans hdata
  | moved id =>
    refine ⟨hrow id (hother id rfl) hfits.1, fun data hdata => ?_⟩
    rcases h.generations id (hother id rfl) with heq | hnone
    · exact hfits.2 data (heq.symm.trans hdata)
    · cases hnone.symm.trans hdata
  | identified id sha256 size =>
    refine ⟨hrow id (hother id rfl) hfits.1, ?_, hfits.2.2⟩
    rcases h.generations id (hother id rfl) with heq | hnone
    · unfold Store.Intact
      rw [heq]
      exact hfits.2.1
    · exact .inl hnone
  | cleaning _ cleaner =>
    exact ⟨fun id hid => hretired id (hfits.1 id hid), fun id hid => hretired id (hfits.2.1 id hid),
      fun id hid => hretired id (hfits.2.2 id hid)⟩
  | _ => trivial

/-- A file of another build goes away only by a reaper that has claimed the build. -/
theorem Change.missing (h : Change free s stage event s' stage')
    (hfits : stage.Fits s) {id : String} (hother : stage.generationId ≠ some id)
    (hbuilding : s.isBuilding id = true) (hnone : s'.generations id = none) :
    s.generations id = none ∨ id ∈ stage'.claims := by
  cases h with
  | light | leave | collect | claims | record | connect | identify | publish | revoke | list | clean
  | recordFailure | sweep => exact .inl hnone
  | @unlinkClaimed reaper next _ artifact hartifact hclaims =>
    cases artifact with
    | staging _ => exact .inl hnone
    | generation other =>
      by_cases hid : id = other
      · right
        show id ∈ next.claims.getD []
        rw [hclaims, hid]
        exact hfits.2 _ hartifact
      · left
        rw [← hnone]
        exact (Function.update_of_ne hid _ _).symm
  | failClaimed =>
    left
    rw [← hnone, generations_failAll]
  | supersedeUnlinked =>
    left
    rw [← hnone, generations_supersedeAll]
  | build =>
    left
    unfold Store.writeStaging at hnone
    split at hnone
    · exact hnone
    · exact hnone
  | replace | dropRevoked =>
    left
    rw [← hnone]
    exact (Function.update_of_ne (fun heq => hother (congrArg some heq.symm)) _ _).symm
  | @unlinkVictim _ _ _ _ victim hvictim =>
    left
    rw [← hnone]
    refine (Function.update_of_ne ?_ _ _).symm
    rintro rfl
    obtain ⟨⟨row, hrow, hstate⟩, -⟩ := hfits.1 _ hvictim
    obtain ⟨row', hrow', hstate'⟩ := isBuilding_iff.mp hbuilding
    cases hrow.symm.trans hrow'
    exact hstate hstate'

/-- A reaper keeps its claims until its transaction ends. -/
theorem Change.keeps_claims (h : Change free s stage event s' stage')
    {id : String} (hid : id ∈ stage.claims) : id ∈ stage'.claims ∨ s'.isBuilding id = false ∨
      event = .raise ∨ event = .kill := by
  cases h with
  | light _ _ hclaims =>
    rw [hclaims] at hid
    cases hid
  | leave _ _ hevent => exact .inr (.inr hevent)
  | claims hkept => exact .inl (hkept id hid)
  | @unlinkClaimed _ next _ _ _ hclaims =>
    left
    show id ∈ next.claims.getD []
    rw [hclaims]
    exact hid
  | failClaimed => exact .inr (.inl (isBuilding_failAll _ _ hid))
  | _ => cases hid

end

end PowerFramework.Generation
