import PowerFramework.Generation.Publication
/-!
# The active generation is readable

What a step of one run may do to the store that the other runs see, the invariant that this keeps,
and the three steps that break it: a failure recorded for the active generation, a reaper that stops
after it has removed a file that its builder has already measured, and a clock that runs backwards
past two ready generations.
-/

set_option linter.unusedSectionVars false

namespace PowerFramework.Generation

open Lib Lib.Failure Lib.Run

/-! ## What the store promises -/

/-- The generation file is the one that was measured. -/
def Store.Intact [Integrity] (s : Store) (generationId sha256 : String) (size : Nat) : Prop :=
  ∃ data, s.generations generationId = some data ∧ Sha256.hexdigest data = sha256 ∧
    data.length = size ∧ Integrity.ok data = true

/-- The row is there and is not ready. -/
def Store.Unpublished (s : Store) (generationId : String) : Prop :=
  ∃ row, s.rows.lookup generationId = some row ∧ row.state ≠ .ready

/-- The row is there, it is not building, and the pointer does not name it. -/
def Store.Retired (s : Store) (generationId : String) : Prop :=
  (∃ row, s.rows.lookup generationId = some row ∧ row.state ≠ .building) ∧
    s.activeGeneration.map Prod.fst ≠ some generationId

/-- What `resolve_active_generation` needs of the generation that the pointer names. -/
structure Store.Serves [Integrity] (s : Store) (generationId activatedAt : String) (row : Row)
    (sha256 : String) (size : Nat) (completedAt : String) : Prop where
  lookup : s.rows.lookup generationId = some row
  ready : row.state = .ready
  recorded : row.dbSha256 = some sha256 ∧ row.dbSize = some size
  completed : row.completedAt = some completedAt
  named : row.sourceSnapshotHash ≠ "" ∧ sha256 ≠ "" ∧ completedAt ≠ "" ∧ activatedAt ≠ ""
  intact : s.Intact generationId sha256 size
  retained : s.ahead generationId (some completedAt) < retainReadyGenerations

/-- The pointer names a generation that is served. -/
def Store.Served [Integrity] (s : Store) : Prop :=
  ∀ generationId activatedAt, s.activeGeneration = some (generationId, activatedAt) →
    ∃ row sha256 size completedAt, s.Serves generationId activatedAt row sha256 size completedAt

/-- The generation of the pointer is ready, its file has the recorded size and digest, and
`resolve_active_generation` returns it. -/
def Store.Readable [Integrity] (s : Store) : Prop :=
  ∀ generationId activatedAt, s.activeGeneration = some (generationId, activatedAt) →
    ∃ row data active, s.rows.lookup generationId = some row ∧ row.state = .ready ∧
      s.generations generationId = some data ∧
      row.dbSha256 = some (Sha256.hexdigest data) ∧ row.dbSize = some data.length ∧
      resolveActiveGeneration s = .ok (some active) ∧ active.generationId = generationId

/-- What a stage of a run relies on. -/
def Stage.Fits [Integrity] (s : Store) : Stage → Prop
  | .reaping reaper => (∀ id ∈ reaper.claims.getD [], s.isBuilding id = true) ∧
      ∀ artifact ∈ reaper.unlinking, artifact.generationId ∈ reaper.claims.getD []
  | .connect id | .building id | .revoked id => s.Unpublished id
  | .staged id => s.Unpublished id ∧ ∀ data, s.staging id = some data → Integrity.ok data = true
  | .moved id => s.Unpublished id ∧ ∀ data, s.generations id = some data → Integrity.ok data = true
  | .identified id sha256 size =>
      s.Unpublished id ∧ (s.generations id = none ∨ s.Intact id sha256 size) ∧ sha256 ≠ ""
  | .cleaning _ cleaner => (∀ id ∈ cleaner.victims, s.Retired id) ∧
      (∀ id ∈ cleaner.unlinked, s.Retired id) ∧ ∀ id ∈ cleaner.superseded.getD [], s.Retired id
  | _ => True

section
variable [Integrity] {s s' : Store} {generationId : String} {free : Bool}

/-- `resolve_active_generation` returns what is served. -/
theorem resolve_of_serves {activatedAt sha256 completedAt : String} {row : Row} {size : Nat}
    (hactive : s.activeGeneration = some (generationId, activatedAt))
    (h : s.Serves generationId activatedAt row sha256 size completedAt) :
    resolveActiveGeneration s = .ok (some ⟨generationId, row.sourceSnapshotHash, sha256, size,
      completedAt, activatedAt⟩) := by
  obtain ⟨data, hdata, hdigest, hlength, hok⟩ := h.intact
  have hverified : verifiedGeneration s generationId sha256 size = .ok () := by
    unfold verifiedGeneration
    rw [hdata]
    simp [raiseIf, hdigest, hlength, hok, bind, Except.bind]
  unfold resolveActiveGeneration
  simp only [hactive, h.lookup, h.ready, h.recorded.1, h.recorded.2, h.completed]
  rw [raiseIf, if_neg (by
    obtain ⟨h1, h2, h3, h4⟩ := h.named
    rintro (h | h | h | h) <;> contradiction), hverified]
  rfl

theorem Store.Served.readable (h : s.Served) : s.Readable := by
  intro generationId activatedAt hactive
  obtain ⟨row, sha256, size, completedAt, hserves⟩ := h generationId activatedAt hactive
  obtain ⟨data, hdata, hdigest, hlength, -⟩ := hserves.intact
  exact ⟨row, data, _, hserves.lookup, hserves.ready, hdata, by rw [hserves.recorded.1, hdigest],
    by rw [hserves.recorded.2, hlength], resolve_of_serves hactive hserves, rfl⟩

/-- The pointer can be read, whether it names a generation or not. -/
theorem Store.Served.resolves (h : s.Served) : ∃ active, resolveActiveGeneration s = .ok active := by
  cases hactive : s.activeGeneration with
  | none => exact ⟨none, by unfold resolveActiveGeneration; rw [hactive]⟩
  | some pointer =>
    obtain ⟨row, sha256, size, completedAt, hserves⟩ := h pointer.1 pointer.2 hactive
    exact ⟨_, resolve_of_serves hactive hserves⟩

end

/-! ## What the other runs see of a step -/

/-- Ids are unique, and every row has its snapshot hash. -/
structure Store.Tidy (s : Store) : Prop where
  nodup : (s.rows.map Prod.fst).Nodup
  hash : ∀ generationId row, s.rows.lookup generationId = some row → row.sourceSnapshotHash ≠ ""

/-- A step of the run that builds `own`: rows stay, none is building again and no other becomes
ready, and files of others only vanish. -/
structure Advance (s s' : Store) (own : Option String) : Prop where
  tidy : s.Tidy → s'.Tidy
  rows : ∀ id row, s.rows.lookup id = some row → ∃ row', s'.rows.lookup id = some row' ∧
    (row.state ≠ .building → row'.state ≠ .building) ∧
    (row.state ≠ .ready → some id ≠ own → row'.state ≠ .ready)
  active : s'.activeGeneration = s.activeGeneration ∨
    ∃ id, s'.activeGeneration.map Prod.fst = some id ∧ s.isBuilding id = true
  staging : ∀ id, some id ≠ own → s'.staging id = s.staging id ∨ s'.staging id = none
  generations : ∀ id, some id ≠ own → s'.generations id = s.generations id ∨
    s'.generations id = none

section
variable [Integrity] {s s' s'' : Store} {generationId : String} {free : Bool} {own : Option String}

theorem Advance.refl (s : Store) (own : Option String) : Advance s s own where
  tidy h := h
  rows _ row h := ⟨row, h, fun h => h, fun h _ => h⟩
  active := .inl rfl
  staging _ _ := .inl rfl
  generations _ _ := .inl rfl

/-- A row that is neither ready nor building any more. -/
theorem advance_retire (s : Store) (id : String) {change : Row → Row} (own : Option String)
    (hstate : ∀ row, (change row).state ≠ .ready ∧ (change row).state ≠ .building)
    (hhash : ∀ row, (change row).sourceSnapshotHash = row.sourceSnapshotHash) :
    Advance s { s with rows := updateRow id change s.rows } own where
  tidy h := by
    refine ⟨by rw [names_updateRow]; exact h.nodup, fun other row hrow => ?_⟩
    rw [lookup_updateRow] at hrow
    split_ifs at hrow
    · obtain ⟨before, hbefore, rfl⟩ := Option.map_eq_some_iff.mp hrow
      rw [hhash]
      exact h.hash other before hbefore
    · exact h.hash other row hrow
  rows other row hrow := by
    by_cases hid : other = id
    · refine ⟨change row, ?_, fun _ => (hstate row).2, fun _ _ => (hstate row).1⟩
      rw [lookup_updateRow, if_pos hid, hrow]
      rfl
    · refine ⟨row, ?_, fun h => h, fun h _ => h⟩
      rw [lookup_updateRow, if_neg hid, hrow]
  active := .inl rfl
  staging _ _ := .inl rfl
  generations _ _ := .inl rfl

theorem advance_fail (s : Store) (now id : String) (own : Option String) :
    Advance s (s.fail now id) own :=
  advance_retire s id own (fun _ => ⟨by simp, by simp⟩) fun _ => rfl

theorem advance_supersede (s : Store) (id : String) (own : Option String) :
    Advance s (s.supersede id) own :=
  advance_retire s id own (fun _ => ⟨by simp, by simp⟩) fun _ => rfl

theorem Advance.trans (h : Advance s s' own) (h' : Advance s' s'' own)
    (hactive : s''.activeGeneration = s'.activeGeneration) : Advance s s'' own where
  tidy htidy := h'.tidy (h.tidy htidy)
  rows id row hrow := by
    obtain ⟨row', hrow', hbuilding, hready⟩ := h.rows id row hrow
    obtain ⟨row'', hrow'', hbuilding', hready'⟩ := h'.rows id row' hrow'
    exact ⟨row'', hrow'', fun hne => hbuilding' (hbuilding hne),
      fun hne hown => hready' (hready hne hown) hown⟩
  active := by
    rw [hactive]
    exact h.active
  staging id hid := by
    rcases h'.staging id hid with heq | hnone
    · rw [heq]
      exact h.staging id hid
    · exact .inr hnone
  generations id hid := by
    rcases h'.generations id hid with heq | hnone
    · rw [heq]
      exact h.generations id hid
    · exact .inr hnone

theorem active_failAll (s : Store) (now : String) (ids : List String) :
    (ids.foldr (fun id s => s.fail now id) s).activeGeneration = s.activeGeneration := by
  induction ids with
  | nil => rfl
  | cons id ids ih => exact ih

theorem active_supersedeAll (s : Store) (ids : List String) :
    (ids.foldr (fun id s => s.supersede id) s).activeGeneration = s.activeGeneration := by
  induction ids with
  | nil => rfl
  | cons id ids ih => exact ih

theorem advance_failAll (s : Store) (now : String) (ids : List String) (own : Option String) :
    Advance s (ids.foldr (fun id s => s.fail now id) s) own := by
  induction ids with
  | nil => exact Advance.refl s own
  | cons id ids ih => exact ih.trans (advance_fail _ now id own) rfl

theorem advance_supersedeAll (s : Store) (ids : List String) (own : Option String) :
    Advance s (ids.foldr (fun id s => s.supersede id) s) own := by
  induction ids with
  | nil => exact Advance.refl s own
  | cons id ids ih => exact ih.trans (advance_supersede _ id own) rfl

theorem lookup_insertBuilding {hash createdAt : String} (id : String) :
    (s.insertBuilding generationId hash createdAt).rows.lookup id =
      (s.rows.lookup id).or
        (if id = generationId then some ⟨.building, hash, createdAt, none, none, none⟩ else none) := by
  show (s.rows ++ [_]).lookup id = _
  rw [List.lookup_append, Grouping.lookup_cons, List.lookup_nil]

theorem advance_insertBuilding {hash createdAt : String}
    (hnone : s.rows.lookup generationId = none) (hhash : hash ≠ "") :
    Advance s (s.insertBuilding generationId hash createdAt) own where
  tidy h := by
    refine ⟨?_, fun id row hrow => ?_⟩
    · show ((s.rows ++ [_]).map Prod.fst).Nodup
      rw [List.map_append, List.nodup_append]
      refine ⟨h.nodup, List.nodup_singleton _, ?_⟩
      intro id hid other hother
      rw [List.map_singleton, List.mem_singleton] at hother
      rintro rfl
      obtain ⟨entry, hentry, rfl⟩ := List.mem_map.mp hid
      rw [show generationId = entry.1 from hother.symm,
        Grouping.lookup_eq_some_of_mem h.nodup hentry] at hnone
      cases hnone
    · rw [lookup_insertBuilding] at hrow
      cases hlookup : s.rows.lookup id with
      | some before =>
        rw [hlookup] at hrow
        cases hrow
        exact h.hash id row hlookup
      | none =>
        rw [hlookup] at hrow
        split_ifs at hrow
        · cases hrow
          exact hhash
        · cases hrow
  rows id row hrow := by
    refine ⟨row, ?_, fun h => h, fun h _ => h⟩
    rw [lookup_insertBuilding, hrow]
    rfl
  active := .inl rfl
  staging _ _ := .inl rfl
  generations _ _ := .inl rfl

theorem advance_unlink (s : Store) (artifact : Artifact) (own : Option String) :
    Advance s (s.unlink artifact) own := by
  cases artifact with
  | staging generationId =>
    refine ⟨fun h => ⟨h.nodup, h.hash⟩, fun _ row h => ⟨row, h, fun h => h, fun h _ => h⟩, .inl rfl,
      fun id _ => ?_, fun _ _ => .inl rfl⟩
    show Function.update s.staging generationId none id = _ ∨
      Function.update s.staging generationId none id = none
    by_cases hid : id = generationId
    · right
      rw [hid, Function.update_self]
    · left
      rw [Function.update_of_ne hid]
  | generation generationId =>
    refine ⟨fun h => ⟨h.nodup, h.hash⟩, fun _ row h => ⟨row, h, fun h => h, fun h _ => h⟩, .inl rfl,
      fun _ _ => .inl rfl, fun id _ => ?_⟩
    show Function.update s.generations generationId none id = _ ∨
      Function.update s.generations generationId none id = none
    by_cases hid : id = generationId
    · right
      rw [hid, Function.update_self]
    · left
      rw [Function.update_of_ne hid]

theorem advance_staging (s : Store) (file : Option (List UInt8)) :
    Advance s { s with staging := Function.update s.staging generationId file }
      (some generationId) where
  tidy h := ⟨h.nodup, h.hash⟩
  rows _ row h := ⟨row, h, fun h => h, fun h _ => h⟩
  active := .inl rfl
  staging id hid := by
    left
    show Function.update s.staging generationId file id = _
    rw [Function.update_of_ne (fun heq => hid (congrArg some heq))]
  generations _ _ := .inl rfl

theorem advance_writeStaging (s : Store) (image : List UInt8) :
    Advance s (s.writeStaging generationId image) (some generationId) := by
  unfold Store.writeStaging
  split
  · exact Advance.refl s _
  · exact advance_staging s _

theorem advance_replace (s : Store) (image : List UInt8) :
    Advance s (s.replace generationId image) (some generationId) where
  tidy h := ⟨h.nodup, h.hash⟩
  rows _ row h := ⟨row, h, fun h => h, fun h _ => h⟩
  active := .inl rfl
  staging id hid := by
    left
    show Function.update s.staging generationId none id = _
    rw [Function.update_of_ne (fun heq => hid (congrArg some heq))]
  generations id hid := by
    left
    show Function.update s.generations generationId (some image) id = _
    rw [Function.update_of_ne (fun heq => hid (congrArg some heq))]

theorem advance_publish {sha256 completedAt activatedAt : String} {size : Nat}
    (hbuilding : s.isBuilding generationId = true) :
    Advance s (s.publish generationId sha256 size completedAt activatedAt)
      (some generationId) where
  tidy h := by
    refine ⟨by unfold Store.publish; rw [names_updateRow]; exact h.nodup, fun id row hrow => ?_⟩
    unfold Store.publish at hrow
    rw [lookup_updateRow] at hrow
    split_ifs at hrow
    · obtain ⟨before, hbefore, rfl⟩ := Option.map_eq_some_iff.mp hrow
      exact h.hash id before hbefore
    · exact h.hash id row hrow
  rows id row hrow := by
    unfold Store.publish
    rw [lookup_updateRow, hrow]
    by_cases hid : id = generationId
    · rw [if_pos hid]
      exact ⟨_, rfl, fun _ => by simp, fun _ hown => absurd (congrArg some hid) hown⟩
    · rw [if_neg hid]
      exact ⟨row, rfl, fun h => h, fun h _ => h⟩
  active := .inr ⟨generationId, rfl, hbuilding⟩
  staging _ _ := .inl rfl
  generations _ _ := .inl rfl

/-! ## What keeps the active generation served -/

theorem Store.Served.ready (h : s.Served) (hactive : s.activeGeneration.map Prod.fst = some generationId) :
    ∃ row, s.rows.lookup generationId = some row ∧ row.state = .ready := by
  obtain ⟨⟨id, activatedAt⟩, hpointer, rfl⟩ := Option.map_eq_some_iff.mp hactive
  obtain ⟨row, _, _, _, hserves⟩ := h id activatedAt hpointer
  exact ⟨row, hserves.lookup, hserves.ready⟩

theorem Store.Served.ne_of_building (h : s.Served) (hbuilding : s.isBuilding generationId = true) :
    s.activeGeneration.map Prod.fst ≠ some generationId := by
  intro hactive
  obtain ⟨row, hrow, hready⟩ := h.ready hactive
  obtain ⟨row', hrow', hstate⟩ := isBuilding_iff.mp hbuilding
  cases hrow.symm.trans hrow'
  cases hready.symm.trans hstate

theorem Store.Served.ne_of_unpublished (h : s.Served) (hrow : s.Unpublished generationId) :
    s.activeGeneration.map Prod.fst ≠ some generationId := by
  intro hactive
  obtain ⟨row, hlookup, hready⟩ := h.ready hactive
  obtain ⟨row', hlookup', hstate⟩ := hrow
  cases hlookup.symm.trans hlookup'
  exact hstate hready

/-- The pointer, its row and its file stay, and no ready generation is new. -/
theorem Store.Served.keep (h : s.Served) (hactive : s'.activeGeneration = s.activeGeneration)
    (hkept : ∀ id, s.activeGeneration.map Prod.fst = some id →
      s'.rows.lookup id = s.rows.lookup id ∧ s'.generations id = s.generations id)
    (hahead : ∀ id time, s'.ahead id time ≤ s.ahead id time) : s'.Served := by
  intro id activatedAt hpointer
  rw [hactive] at hpointer
  obtain ⟨row, sha256, size, completedAt, hserves⟩ := h id activatedAt hpointer
  obtain ⟨hrow, hfile⟩ := hkept id (by rw [hpointer]; rfl)
  refine ⟨row, sha256, size, completedAt, ?_⟩
  exact {
    lookup := hrow.trans hserves.lookup
    ready := hserves.ready
    recorded := hserves.recorded
    completed := hserves.completed
    named := hserves.named
    intact := by
      unfold Store.Intact
      rw [hfile]
      exact hserves.intact
    retained := lt_of_le_of_lt (hahead id _) hserves.retained }

theorem ahead_updateRow_le (s : Store) (id : String) {change : Row → Row}
    (hstate : ∀ row, (change row).state ≠ .ready) (other : String) (time : Option String) :
    ({ s with rows := updateRow id change s.rows } : Store).ahead other time ≤
      s.ahead other time := by
  unfold Store.ahead updateRow
  rw [List.countP_map]
  refine List.countP_mono_left fun entry _ hentry => ?_
  rw [Function.comp_apply] at hentry
  split_ifs at hentry
  · rw [decide_eq_true_eq] at hentry
    exact absurd hentry.1 (hstate entry.2)
  · exact hentry

theorem Store.Served.retire (h : s.Served) {change : Row → Row}
    (hid : s.activeGeneration.map Prod.fst ≠ some generationId)
    (hstate : ∀ row, (change row).state ≠ .ready) :
    Store.Served { s with rows := updateRow generationId change s.rows } := by
  refine h.keep rfl (fun id hactive => ⟨?_, rfl⟩) (ahead_updateRow_le s generationId hstate)
  rw [lookup_updateRow, if_neg]
  rintro rfl
  exact hid hactive

theorem Store.Served.fail (h : s.Served) (now : String)
    (hid : s.activeGeneration.map Prod.fst ≠ some generationId) : (s.fail now generationId).Served :=
  h.retire hid fun _ => by simp

theorem Store.Served.failAll (h : s.Served) (now : String) {ids : List String}
    (hids : ∀ id ∈ ids, s.activeGeneration.map Prod.fst ≠ some id) :
    (ids.foldr (fun id s => s.fail now id) s).Served := by
  induction ids with
  | nil => exact h
  | cons id ids ih =>
    refine (ih fun id hid => hids id (List.mem_cons_of_mem _ hid)).fail now ?_
    rw [active_failAll]
    exact hids id List.mem_cons_self

theorem Store.Served.supersedeAll (h : s.Served) {ids : List String}
    (hids : ∀ id ∈ ids, s.activeGeneration.map Prod.fst ≠ some id) :
    (ids.foldr (fun id s => s.supersede id) s).Served := by
  induction ids with
  | nil => exact h
  | cons id ids ih =>
    refine (ih fun id hid => hids id (List.mem_cons_of_mem _ hid)).retire ?_ fun _ => by simp
    rw [active_supersedeAll]
    exact hids id List.mem_cons_self

theorem Store.Served.insertBuilding {hash createdAt : String} (h : s.Served) :
    (s.insertBuilding generationId hash createdAt).Served := by
  refine h.keep rfl (fun id hactive => ⟨?_, rfl⟩) fun id time => ?_
  · obtain ⟨row, hrow, -⟩ := h.ready hactive
    rw [lookup_insertBuilding, hrow]
    rfl
  · unfold Store.ahead Store.insertBuilding
    rw [List.countP_append, List.countP_singleton, if_neg (by simp)]
    exact le_rfl

theorem Store.Served.unlink (h : s.Served) {artifact : Artifact}
    (hid : s.activeGeneration.map Prod.fst ≠ some artifact.generationId) :
    (s.unlink artifact).Served := by
  cases artifact with
  | staging generationId => exact h.keep rfl (fun _ _ => ⟨rfl, rfl⟩) fun _ _ => le_rfl
  | generation generationId =>
    refine h.keep rfl (fun id hactive => ⟨rfl, ?_⟩) fun _ _ => le_rfl
    show Function.update s.generations generationId none id = _
    rw [Function.update_of_ne]
    rintro rfl
    exact hid hactive

theorem Store.Served.replace (h : s.Served) {image : List UInt8}
    (hid : s.activeGeneration.map Prod.fst ≠ some generationId) :
    (s.replace generationId image).Served := by
  refine h.keep rfl (fun id hactive => ⟨rfl, ?_⟩) fun _ _ => le_rfl
  show Function.update s.generations generationId _ id = _
  rw [Function.update_of_ne]
  rintro rfl
  exact hid hactive

theorem Store.Served.writeStaging (h : s.Served) (image : List UInt8) :
    (s.writeStaging generationId image).Served := by
  unfold Store.writeStaging
  split
  · exact h
  · exact h.keep rfl (fun _ _ => ⟨rfl, rfl⟩) fun _ _ => le_rfl

theorem ahead_publish (s : Store) {sha256 completedAt activatedAt : String} {size : Nat}
    (time : Option String) :
    (s.publish generationId sha256 size completedAt activatedAt).ahead generationId time =
      s.ahead generationId time := by
  unfold Store.ahead Store.publish updateRow
  rw [List.countP_map]
  refine List.countP_congr fun entry _ => ?_
  rw [Function.comp_apply, decide_eq_true_eq, decide_eq_true_eq]
  split_ifs with hid
  · exact ⟨fun h => absurd hid h.2.1, fun h => absurd hid h.2.1⟩
  · exact Iff.rfl

/-- A file that is intact and few ready generations that were completed later. -/
theorem Store.Tidy.served_publish (h : s.Tidy) {sha256 completedAt activatedAt : String} {size : Nat}
    (hbuilding : s.isBuilding generationId = true) (hintact : s.Intact generationId sha256 size)
    (hnamed : sha256 ≠ "" ∧ completedAt ≠ "" ∧ activatedAt ≠ "")
    (hahead : s.ahead generationId (some completedAt) < retainReadyGenerations) :
    (s.publish generationId sha256 size completedAt activatedAt).Served := by
  intro id at' hpointer
  cases hpointer
  obtain ⟨row, hrow, -⟩ := isBuilding_iff.mp hbuilding
  refine ⟨{ row with
    state := .ready, dbSha256 := some sha256, dbSize := some size,
    completedAt := some completedAt }, sha256, size, completedAt, ?_⟩
  exact {
    lookup := by
      unfold Store.publish
      rw [lookup_updateRow, if_pos rfl, hrow]
      rfl
    ready := rfl
    recorded := ⟨rfl, rfl⟩
    completed := rfl
    named := ⟨h.hash generationId row hrow, hnamed⟩
    intact := hintact
    retained := by
      rw [ahead_publish]
      exact hahead }

/-- Retention keeps the generation of the pointer. -/
theorem Store.Served.retired_of_unretained (h : s.Served) (htidy : s.Tidy)
    (hid : generationId ∈ s.unretained) : s.Retired generationId := by
  constructor
  · obtain ⟨row, hmem, hready⟩ := mem_of_mem_unretained hid
    exact ⟨row, Grouping.lookup_eq_some_of_mem htidy.nodup hmem, by rw [hready]; decide⟩
  · intro hactive
    obtain ⟨⟨id, activatedAt⟩, hpointer, rfl⟩ := Option.map_eq_some_iff.mp hactive
    obtain ⟨row, _, _, _, hserves⟩ := h id activatedAt hpointer
    refine notMem_unretained htidy.nodup (Grouping.mem_of_lookup hserves.lookup) ?_ hid
    rw [hserves.completed]
    exact hserves.retained

end

end PowerFramework.Generation
