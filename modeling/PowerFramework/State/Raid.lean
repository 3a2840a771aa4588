import PowerFramework.State.Trust
/-!
# RAID lists

Each register keeps the ids of its open or active entities on a list of their own.  The list
agrees with the statuses of the entities as long as no event gives a listed id a status that its
handler does not take off the list.
-/

namespace PowerFramework.State

open Lib Lib.Failure Lib.Json Lib.Run Ledger

/-! ## Registers -/

section
variable {fields : List Field} {on : String → Bool} {register : Register fields}

/-- The list holds the ids of the entities whose status counts, each of them once. -/
structure Register.Matches (on : String → Bool) (register : Register fields) : Prop where
  nodup : register.listed.Nodup
  mem : ∀ id, id ∈ register.listed ↔
    ∃ entity, register.entities[id]? = some entity ∧ on entity.status = true

theorem Register.matches_empty : (Register.empty fields).Matches on :=
  ⟨List.nodup_nil, fun id => by simp [Register.empty]⟩

theorem ListMove.nodup_apply {listed : List String} (h : listed.Nodup) (move : ListMove)
    (id : String) : (move.apply id listed).Nodup := by
  cases move with
  | stay => exact h
  | enter =>
      rw [ListMove.apply]
      split_ifs with hmem
      · exact h
      · exact List.nodup_append.mpr ⟨h, List.nodup_singleton id, by
          intro x hx y hy heq
          rw [List.mem_singleton] at hy
          exact hmem (hy ▸ heq ▸ hx)⟩
  | leave => exact h.erase id

/-- A move concerns its own id only. -/
theorem ListMove.mem_apply_of_ne {listed : List String} (move : ListMove) {id other : String}
    (hne : other ≠ id) : other ∈ move.apply id listed ↔ other ∈ listed := by
  cases move with
  | stay => exact Iff.rfl
  | enter =>
      rw [ListMove.apply]
      split_ifs
      · exact Iff.rfl
      · simp [hne]
  | leave => exact List.mem_erase_of_ne hne

theorem ListMove.mem_enter {listed : List String} {id : String} :
    id ∈ ListMove.enter.apply id listed := by
  rw [ListMove.apply]
  split_ifs with hmem
  · exact hmem
  · simp

theorem ListMove.notMem_leave {listed : List String} (h : listed.Nodup) {id : String} :
    id ∉ ListMove.leave.apply id listed :=
  fun hmem => ((List.Nodup.mem_erase_iff h).mp hmem).1 rfl

/-- A list that agrees with its entities agrees after a change exactly when the changed entity is
listed by its status. -/
theorem Register.Matches.put (h : register.Matches on) (id : String) (entity : Record fields)
    (move : ListMove) : (register.put id entity move).Matches on ↔
      (id ∈ move.apply id register.listed ↔ on entity.status = true) := by
  constructor
  · intro hafter
    rw [show move.apply id register.listed = (register.put id entity move).listed from rfl,
      hafter.mem id]
    simp [Register.put]
  · intro hid
    refine ⟨move.nodup_apply h.nodup id, fun other => ?_⟩
    change other ∈ move.apply id register.listed ↔
      ∃ found, (register.entities.insert id entity)[other]? = some found ∧ on found.status = true
    by_cases hother : other = id
    · subst hother
      simp [hid]
    · rw [move.mem_apply_of_ne hother, h.mem other, Std.ExtTreeMap.getElem?_insert,
        if_neg (by simpa [compare_eq_iff_eq] using fun heq => hother heq.symm)]

/-- Taking an id without entity off the list changes no agreement. -/
theorem Register.Matches.move (h : register.Matches on) {id : String} {move : ListMove}
    (habsent : register.entities[id]? = none) (hmove : move ≠ .enter) :
    (register.move id move).Matches on := by
  have hid : id ∉ register.listed := by
    rw [h.mem id, habsent]
    simp
  refine ⟨move.nodup_apply h.nodup id, fun other => ?_⟩
  change other ∈ move.apply id register.listed ↔ _
  have hsame : move.apply id register.listed = register.listed := by
    cases move with
    | stay => rfl
    | enter => exact absurd rfl hmove
    | leave => exact List.erase_of_not_mem hid
  rw [hsame]
  exact h.mem other

theorem Register.Matches.sorted (h : register.Matches on) : register.sorted.Matches on :=
  ⟨nodup_sortedSet _, fun id => mem_sortedSet.trans (h.mem id)⟩

end

/-! ## Handlers -/

section
variable [PythonText] {event : ProjectEvent} {idField : String}

/-- The text that identifies the entity a trusted event is about. -/
theorem raidId_ok {id : Value} (h : raidId idField event = some id) :
    isUntrustedEvent event = false ∧ getItem event.payload idField = id := by
  unfold raidId at h
  dsimp only at h
  split_ifs at h with hcond
  exact ⟨hcond.2, Option.some.inj h⟩

variable {fields : List Field} {register after : Register fields}

theorem createEntity_ok {args : Except Exn Dict} {move : Record fields → ListMove}
    (h : createEntity idField event args move register = .ok after) :
    after = register ∨ ∃ d entity, isUntrustedEvent event = false ∧ args = .ok d ∧
      Record.modelValidate fields d = .ok entity ∧
      after = register.put (entity.text idField) entity (move entity) := by
  unfold createEntity at h
  cases hid : raidId idField event with
  | none =>
      rw [hid] at h
      cases h
      exact .inl rfl
  | some id =>
      rw [hid] at h
      obtain ⟨d, hd, h⟩ := bind_eq_ok.mp h
      obtain ⟨entity, hentity, h⟩ := bind_eq_ok.mp h
      cases h
      exact .inr ⟨d, entity, (raidId_ok hid).1, hd, hentity, rfl⟩

theorem updateEntity_ok {changes : Except Exn Dict} {move : Option (Record fields) → ListMove}
    (h : updateEntity idField event changes move register = .ok after) :
    after = register ∨ ∃ key, isUntrustedEvent event = false ∧
      getItem event.payload idField = .str key ∧
      ((register.entities[key]? = none ∧ after = register.move key (move none)) ∨
        ∃ old d entity, register.entities[key]? = some old ∧ changes = .ok d ∧
          Record.modelValidate fields (updatedDict old event.eventId d) = .ok entity ∧
          after = register.put key entity (move (some entity))) := by
  unfold updateEntity at h
  cases hid : raidId idField event with
  | none =>
      rw [hid] at h
      cases h
      exact .inl rfl
  | some id =>
      rw [hid] at h
      obtain ⟨huntrusted, hitem⟩ := raidId_ok hid
      obtain ⟨key, hkey, h⟩ := bind_eq_ok.mp h
      cases key with
      | none =>
          cases h
          exact .inl rfl
      | some key =>
          refine .inr ⟨key, huntrusted, hitem.trans (hashKey_eq_some.mp hkey), ?_⟩
          dsimp only at h
          cases hold : register.entities[key]? with
          | none =>
              rw [hold] at h
              cases h
              exact .inl ⟨rfl, rfl⟩
          | some old =>
              rw [hold] at h
              obtain ⟨d, hd, h⟩ := bind_eq_ok.mp h
              obtain ⟨entity, hentity, h⟩ := bind_eq_ok.mp h
              cases h
              exact .inr ⟨old, d, entity, rfl, hd, hentity, rfl⟩

end

/-! ## Statuses -/

/-- A model of RAID entities: its id has its own lead and its status is one of a few. -/
structure RaidModel (fields : List Field) (idField lead : String) (statuses : List String) :
    Prop where
  nodup : (fields.map Field.name).Nodup
  id : Field.required idField (isTextWith (isEntityId lead)) ∈ fields
  status : Field.required "status" (isChoice statuses) ∈ fields

theorem raidModel_risk : RaidModel riskFields "risk_id" "rsk_"
    ["identified", "mitigated", "materialized", "retired"] :=
  ⟨by decide, by simp [riskFields], by simp [riskFields]⟩

theorem raidModel_assumption : RaidModel assumptionFields "assumption_id" "asm_"
    ["valid", "invalidated", "confirmed"] :=
  ⟨by decide, by simp [assumptionFields], by simp [assumptionFields]⟩

theorem raidModel_issue : RaidModel issueFields "issue_id" "iss_"
    ["open", "investigating", "resolved", "closed"] :=
  ⟨by decide, by simp [issueFields], by simp [issueFields]⟩

theorem raidModel_dependency : RaidModel dependencyFields "dependency_id" "dep_"
    ["pending", "satisfied", "broken"] :=
  ⟨by decide, by simp [dependencyFields], by simp [dependencyFields]⟩

section
variable {fields : List Field} {idField lead : String} {statuses : List String}

theorem Record.text_of_get {record : Record fields} {name text : String}
    (h : record.get name = .str text) : record.text name = text := by
  rw [Record.text, h]

/-- A text field holds the text that the record reads from it. -/
theorem Record.get_text (record : Record fields) (hnodup : (fields.map Field.name).Nodup)
    {name : String} {ok : String → Bool} (hfield : Field.required name (isTextWith ok) ∈ fields) :
    record.get name = .str (record.text name) ∧ ok (record.text name) = true := by
  have hok : isTextWith ok (record.get name) = true := record.get_ok hnodup hfield
  cases hvalue : record.get name with
  | str text =>
      rw [hvalue] at hok
      rw [Record.text_of_get hvalue]
      exact ⟨rfl, hok⟩
  | _ =>
      rw [hvalue] at hok
      cases hok

theorem RaidModel.status_mem (model : RaidModel fields idField lead statuses) (record : Record fields) :
    record.status ∈ statuses :=
  of_decide_eq_true (record.get_text model.nodup model.status).2

/-- The status of a built entity is the one that its arguments give. -/
theorem RaidModel.status_eq (model : RaidModel fields idField lead statuses) {d : Dict}
    {record : Record fields} (h : Record.modelValidate fields d = .ok record) {value : Value}
    (hvalue : d.lookup "status" = some value) : value = .str record.status := by
  rw [← Record.get_of_modelValidate h model.nodup model.status hvalue]
  exact (record.get_text model.nodup model.status).1

theorem RaidModel.id_eq (model : RaidModel fields idField lead statuses) {d : Dict}
    {record : Record fields} (h : Record.modelValidate fields d = .ok record) {value : Value}
    (hvalue : d.lookup idField = some value) : value = .str (record.text idField) := by
  rw [← Record.get_of_modelValidate h model.nodup model.id hvalue]
  exact (record.get_text model.nodup model.id).1

theorem lookup_foldl_setItem (items d : Dict) (name : String) :
    (items.foldl (fun d item => setItem item.1 item.2 d) d).lookup name =
      (items.reverse.lookup name).or (d.lookup name) := by
  induction items generalizing d with
  | nil => rfl
  | cons item items ih =>
      rw [List.foldl_cons, ih, lookup_setItem, List.reverse_cons, List.lookup_append, Option.or_assoc,
        lookup_cons]
      split_ifs <;> rfl

/-- The last change of a field counts; an unchanged one stays. -/
theorem lookup_updatedDict (old : Record fields) (eventId : String) (changes : Dict) {name : String}
    (hname : name ≠ "provenance") : (updatedDict old eventId changes).lookup name =
      (changes.reverse.lookup name).or (old.values.lookup name) := by
  rw [updatedDict, lookup_setItem, if_neg hname, lookup_foldl_setItem]

theorem lookup_overwritten (keys : List String) (payload : Dict) (name : String) :
    (overwritten keys payload).lookup name =
      if name ∈ keys then payload.lookup name else none := by
  induction keys with
  | nil => rfl
  | cons key keys ih =>
      cases hvalue : payload.lookup key with
      | none =>
          have hskip : overwritten (key :: keys) payload = overwritten keys payload := by
            simp [overwritten, hvalue]
          rw [hskip, ih]
          by_cases hname : name = key
          · subst hname
            simp [hvalue]
          · simp [hname]
      | some value =>
          have htake : overwritten (key :: keys) payload = (key, value) :: overwritten keys payload := by
            simp [overwritten, hvalue]
          rw [htake, lookup_cons, ih]
          by_cases hname : name = key
          · subst hname
            simp [hvalue]
          · simp [hname]

theorem reverse_overwritten (keys : List String) (payload : Dict) :
    (overwritten keys payload).reverse = overwritten keys.reverse payload :=
  (List.filterMap_reverse ..).symm

end

/-! ## What the handlers keep -/

/-- An event that creates an entity whose id is listed gives it a status that counts. -/
def CreatesListed [PythonText] (on : String → Bool) (idField default : String)
    (event : ProjectEvent) (listed : List String) : Prop :=
  ∀ id status, isUntrustedEvent event = false → getItem event.payload idField = .str id →
    getItemD event.payload "status" (.str default) = .str status → id ∈ listed → on status = true

section
variable [PythonText] {event : ProjectEvent} {fields : List Field} {idField lead default : String}
  {statuses : List String} {on : String → Bool} {register after : Register fields}

/-- A handler that creates an entity and lists it if its status counts. -/
theorem Register.Matches.createEntity (h : register.Matches on)
    (model : RaidModel fields idField lead statuses) {args : Except Exn Dict}
    {move : Record fields → ListMove}
    (hcreate : State.createEntity idField event args move register = .ok after)
    (hargs : ∀ d, args = .ok d → d.lookup idField = some (getItem event.payload idField) ∧
      d.lookup "status" = some (getItemD event.payload "status" (.str default)))
    (hmove : ∀ entity : Record fields,
      move entity = if on entity.status = true then .enter else .stay)
    (hkeeps : CreatesListed on idField default event register.listed) : after.Matches on := by
  rcases createEntity_ok hcreate with rfl | ⟨d, entity, htrusted, hd, hentity, rfl⟩
  · exact h
  · rw [h.put, hmove entity]
    by_cases hon : on entity.status = true
    · rw [if_pos hon]
      exact ⟨fun _ => hon, fun _ => ListMove.mem_enter⟩
    · rw [if_neg hon]
      refine ⟨fun hmem => ?_, fun htrue => absurd htrue hon⟩
      obtain ⟨hid, hstatus⟩ := hargs d hd
      exact hkeeps _ _ htrusted (model.id_eq hentity hid) (model.status_eq hentity hstatus) hmem

/-- A handler that changes an entity and moves its id to where its status belongs. -/
theorem Register.Matches.updateEntity (h : register.Matches on) {changes : Except Exn Dict}
    {move : Option (Record fields) → ListMove}
    (hupdate : State.updateEntity idField event changes move register = .ok after)
    (hnone : move none ≠ .enter)
    (hsome : ∀ key old d entity, isUntrustedEvent event = false →
      getItem event.payload idField = .str key → register.entities[key]? = some old →
      changes = .ok d → Record.modelValidate fields (updatedDict old event.eventId d) = .ok entity →
      (key ∈ (move (some entity)).apply key register.listed ↔ on entity.status = true)) :
    after.Matches on := by
  rcases updateEntity_ok hupdate with
    rfl | ⟨key, htrusted, hkey, ⟨habsent, rfl⟩ | ⟨old, d, entity, hold, hd, hentity, rfl⟩⟩
  · exact h
  · exact h.move habsent hnone
  · rw [h.put]
    exact hsome key old d entity htrusted hkey hold hd hentity

/-- A handler that puts an entity into a status that does not count, and takes its id off. -/
theorem Register.Matches.closeEntity (h : register.Matches on)
    (model : RaidModel fields idField lead statuses) {changes : Dict}
    (hupdate : State.updateEntity idField event (.ok changes) (fun _ => .leave) register =
      .ok after) (status : String) (hstatus : changes.reverse.lookup "status" = some (.str status))
    (hoff : on status = false) : after.Matches on := by
  refine h.updateEntity hupdate (by simp) ?_
  intro key old d entity _ _ _ hd hentity
  cases hd
  have hlookup : (updatedDict old event.eventId changes).lookup "status" = some (.str status) := by
    rw [lookup_updatedDict _ _ _ (by decide), hstatus]
    rfl
  have heq := model.status_eq hentity hlookup
  rw [← (Value.str.inj heq), hoff]
  exact ⟨fun hmem => absurd hmem (ListMove.notMem_leave h.nodup), fun hfalse => by cases hfalse⟩

omit [PythonText] in
/-- Where the moves of an update agree with the status on its own. -/
theorem listed_by_status {listed : List String} (hnodup : listed.Nodup) {move : ListMove}
    {status key : String} (henter : on status = true → move = .enter)
    (hleave : on status = false → move = .leave) :
    key ∈ move.apply key listed ↔ on status = true := by
  cases hon : on status with
  | true =>
      rw [henter hon]
      exact ⟨fun _ => rfl, fun _ => ListMove.mem_enter⟩
  | false =>
      rw [hleave hon]
      exact ⟨fun hmem => absurd hmem (ListMove.notMem_leave hnodup), fun hfalse => by cases hfalse⟩

end

/-! ## The four registers -/

def isOpenRisk (status : String) : Bool := status = "identified"

def isOpenIssue (status : String) : Bool := status = "open" || status = "investigating"

def isActiveAssumption (status : String) : Bool := status = "valid" || status = "confirmed"

def isActiveDependency (status : String) : Bool := status ≠ "satisfied"

/-- Each list of the state agrees with the statuses of its entities. -/
structure ListsMatch (s : ProjectState) : Prop where
  risks : s.risks.Matches isOpenRisk
  issues : s.issues.Matches isOpenIssue
  assumptions : s.assumptions.Matches isActiveAssumption
  dependencies : s.dependencies.Matches isActiveDependency

/-- The event gives no listed id a status that does not count and that its handler leaves listed:
it creates no entity over a listed one with such a status, and materializes no listed risk. -/
structure KeepsLists [PythonText] (s : ProjectState) (event : ProjectEvent) : Prop where
  riskOpened : event.eventType = .riskOpened →
    CreatesListed isOpenRisk "risk_id" "identified" event s.risks.listed
  riskUpdated : event.eventType = .riskUpdated → ∀ id, isUntrustedEvent event = false →
    getItem event.payload "risk_id" = .str id →
    event.payload.lookup "status" = some (.str "materialized") → id ∉ s.risks.listed
  issueOpened : event.eventType = .issueOpened →
    CreatesListed isOpenIssue "issue_id" "open" event s.issues.listed
  assumptionCreated : event.eventType = .assumptionCreated →
    CreatesListed isActiveAssumption "assumption_id" "valid" event s.assumptions.listed
  dependencyCreated : event.eventType = .dependencyCreated →
    CreatesListed isActiveDependency "dependency_id" "pending" event s.dependencies.listed

section
variable [PythonText] {s : ProjectState} {event : ProjectEvent}

omit [PythonText] in
/-- The status behind an update of a risk: the one of the event, or the one it had. -/
theorem status_of_riskUpdated {old entity : Risk}
    (hentity : Record.modelValidate riskFields (updatedDict old event.eventId
      (overwritten ["title", "description", "probability", "impact", "mitigation_plan", "owner",
        "status"] event.payload ++ [("updated_at", .str event.timestamp)])) = .ok entity) :
    event.payload.lookup "status" = some (.str entity.status) ∨ entity.status = old.status := by
  have hlookup := lookup_updatedDict old event.eventId (overwritten ["title", "description",
      "probability", "impact", "mitigation_plan", "owner", "status"] event.payload ++
    [("updated_at", .str event.timestamp)]) (show "status" ≠ "provenance" by decide)
  rw [List.reverse_append, reverse_overwritten, List.reverse_singleton, List.singleton_append,
    lookup_cons, if_neg (by decide), lookup_overwritten, if_pos (by decide)] at hlookup
  cases hstatus : event.payload.lookup "status" with
  | some value =>
      rw [hstatus] at hlookup
      exact .inl (congrArg some (raidModel_risk.status_eq hentity hlookup))
  | none =>
      obtain ⟨value, hvalue, -⟩ := lookup_of_fits old.fitting raidModel_risk.nodup raidModel_risk.status
      change old.values.lookup "status" = some value at hvalue
      rw [hstatus, Option.none_or, hvalue] at hlookup
      have hnew := raidModel_risk.status_eq hentity hlookup
      have hsame : old.status = entity.status := by
        apply Record.text_of_get
        rw [Record.get, getItem, hvalue]
        exact hnew
      exact .inr hsame.symm

theorem handleRisk_matches {after : Register riskFields} (h : s.risks.Matches isOpenRisk)
    (hkeeps : KeepsLists s event)
    (hrisks : (event.eventType = .riskOpened ∧ handleRiskOpened s event = .ok after) ∨
      (event.eventType = .riskUpdated ∧ handleRiskUpdated s event = .ok after) ∨
      (event.eventType = .riskClosed ∧ handleRiskClosed s event = .ok after)) :
    after.Matches isOpenRisk := by
  rcases hrisks with ⟨htype, hopened⟩ | ⟨htype, hupdated⟩ | ⟨-, hclosed⟩
  · refine h.createEntity raidModel_risk hopened ?_ ?_ (hkeeps.riskOpened htype)
    · intro d hd
      obtain ⟨provenance, -, hd⟩ := bind_eq_ok.mp hd
      obtain ⟨related, -, hd⟩ := bind_eq_ok.mp hd
      cases hd
      exact ⟨rfl, rfl⟩
    · intro entity
      simp [moveByStatus, isOpenRisk]
  · refine h.updateEntity hupdated (by simp [ifPresent]) ?_
    intro key old d entity htrusted hkey hold hd hentity
    cases hd
    have hmem := raidModel_risk.status_mem entity
    by_cases hmaterialized : entity.status = "materialized"
    · -- the one status that moves nothing and does not count: the id was not listed
      have hunlisted : key ∉ s.risks.listed := by
        rcases status_of_riskUpdated hentity with hgiven | hkept
        · rw [hmaterialized] at hgiven
          exact hkeeps.riskUpdated htype key htrusted hkey hgiven
        · intro hlisted
          obtain ⟨found, hfound, hon⟩ := (h.mem key).mp hlisted
          rw [hold] at hfound
          cases hfound
          rw [← hkept, hmaterialized] at hon
          cases hon
      have hstay : (ifPresent (moveByStatus ["mitigated", "retired", "closed"] ["identified"])
          (some entity)) = .stay := by
        simp [ifPresent, moveByStatus, hmaterialized]
      rw [hstay, hmaterialized]
      exact ⟨fun hlisted => absurd hlisted hunlisted, fun hfalse => by cases hfalse⟩
    · apply listed_by_status h.nodup
      · intro hon
        simp only [isOpenRisk, decide_eq_true_eq] at hon
        simp [ifPresent, moveByStatus, hon]
      · intro hoff
        simp only [isOpenRisk, decide_eq_false_iff_not] at hoff
        simp only [List.mem_cons, List.not_mem_nil, or_false] at hmem
        rcases hmem with hstatus | hstatus | hstatus | hstatus
        · exact absurd hstatus hoff
        · simp [ifPresent, moveByStatus, hstatus]
        · exact absurd hstatus hmaterialized
        · simp [ifPresent, moveByStatus, hstatus]
  · exact h.closeEntity raidModel_risk hclosed "retired" rfl rfl

theorem handleAssumption_matches {after : Register assumptionFields}
    (h : s.assumptions.Matches isActiveAssumption) (hkeeps : KeepsLists s event)
    (hassumptions :
      (event.eventType = .assumptionCreated ∧ handleAssumptionCreated s event = .ok after) ∨
      ((event.eventType = .assumptionUpdated ∨ event.eventType = .assumptionConfirmed) ∧
        handleAssumptionUpdated s event = .ok after) ∨
      (event.eventType = .assumptionInvalidated ∧ handleAssumptionInvalidated s event = .ok after)) :
    after.Matches isActiveAssumption := by
  rcases hassumptions with ⟨htype, hcreated⟩ | ⟨-, hupdated⟩ | ⟨-, hinvalidated⟩
  · refine h.createEntity raidModel_assumption hcreated ?_ ?_ (hkeeps.assumptionCreated htype)
    · intro d hd
      obtain ⟨provenance, -, hd⟩ := bind_eq_ok.mp hd
      dsimp only at hd
      split at hd
      · obtain ⟨confidence, -, hd⟩ := bind_eq_ok.mp hd
        cases hd
        exact ⟨rfl, rfl⟩
      · obtain ⟨confidence, -, hd⟩ := bind_eq_ok.mp hd
        cases hd
        exact ⟨rfl, rfl⟩
    · intro entity
      simp [moveByStatus, isActiveAssumption]
  · refine h.updateEntity hupdated (by simp [ifPresent]) ?_
    intro key old d entity _ _ _ _ _
    have hmem := raidModel_assumption.status_mem entity
    simp only [List.mem_cons, List.not_mem_nil, or_false] at hmem
    apply listed_by_status h.nodup
    · intro hon
      rcases hmem with hstatus | hstatus | hstatus <;>
        simp_all [ifPresent, isActiveAssumption]
    · intro hoff
      rcases hmem with hstatus | hstatus | hstatus <;>
        simp_all [ifPresent, isActiveAssumption]
  · exact h.closeEntity raidModel_assumption hinvalidated "invalidated" rfl rfl

theorem handleIssue_matches {after : Register issueFields} (h : s.issues.Matches isOpenIssue)
    (hkeeps : KeepsLists s event)
    (hissues : (event.eventType = .issueOpened ∧ handleIssueOpened s event = .ok after) ∨
      (event.eventType = .issueUpdated ∧ handleIssueUpdated s event = .ok after) ∨
      ((event.eventType = .issueResolved ∨ event.eventType = .issueClosed) ∧
        handleIssueClosed s event = .ok after)) : after.Matches isOpenIssue := by
  rcases hissues with ⟨htype, hopened⟩ | ⟨-, hupdated⟩ | ⟨htype, hclosed⟩
  · refine h.createEntity raidModel_issue hopened ?_ ?_ (hkeeps.issueOpened htype)
    · intro d hd
      obtain ⟨provenance, -, hd⟩ := bind_eq_ok.mp hd
      obtain ⟨blocking, -, hd⟩ := bind_eq_ok.mp hd
      cases hd
      exact ⟨rfl, rfl⟩
    · intro entity
      simp [moveByStatus, isOpenIssue]
  · refine h.updateEntity hupdated (by simp [ifPresent]) ?_
    intro key old d entity _ _ _ _ _
    have hmem := raidModel_issue.status_mem entity
    simp only [List.mem_cons, List.not_mem_nil, or_false] at hmem
    apply listed_by_status h.nodup
    · intro hon
      rcases hmem with hstatus | hstatus | hstatus | hstatus <;>
        simp_all [ifPresent, moveByStatus, isOpenIssue]
    · intro hoff
      rcases hmem with hstatus | hstatus | hstatus | hstatus <;>
        simp_all [ifPresent, moveByStatus, isOpenIssue]
  · unfold handleIssueClosed at hclosed
    rcases htype with htype | htype
    · rw [if_pos htype] at hclosed
      refine h.closeEntity raidModel_issue hclosed "resolved" ?_ rfl
      rw [List.reverse_append, reverse_overwritten, List.lookup_append, lookup_overwritten,
        if_neg (by decide)]
      rfl
    · rw [if_neg (by rw [htype]; decide)] at hclosed
      refine h.closeEntity raidModel_issue hclosed "closed" ?_ rfl
      rw [List.reverse_append, reverse_overwritten, List.lookup_append, lookup_overwritten,
        if_neg (by decide)]
      rfl

theorem handleDependency_matches {after : Register dependencyFields}
    (h : s.dependencies.Matches isActiveDependency) (hkeeps : KeepsLists s event)
    (hdependencies :
      (event.eventType = .dependencyCreated ∧ handleDependencyCreated s event = .ok after) ∨
      (event.eventType = .dependencyUpdated ∧ handleDependencyUpdated s event = .ok after) ∨
      (event.eventType = .dependencyResolved ∧ handleDependencyResolved s event = .ok after)) :
    after.Matches isActiveDependency := by
  rcases hdependencies with ⟨htype, hcreated⟩ | ⟨-, hupdated⟩ | ⟨-, hresolved⟩
  · refine h.createEntity raidModel_dependency hcreated ?_ ?_ (hkeeps.dependencyCreated htype)
    · intro d hd
      obtain ⟨provenance, -, hd⟩ := bind_eq_ok.mp hd
      cases hd
      exact ⟨rfl, rfl⟩
    · intro entity
      by_cases hstatus : entity.status = "satisfied" <;> simp [isActiveDependency, hstatus]
  · refine h.updateEntity hupdated (by simp [ifPresent]) ?_
    intro key old d entity _ _ _ _ _
    apply listed_by_status h.nodup
    · intro hon
      simp_all [ifPresent, isActiveDependency]
    · intro hoff
      simp_all [ifPresent, isActiveDependency]
  · exact h.closeEntity raidModel_dependency hresolved "satisfied" rfl rfl

variable [LaxInt] {self : ProjectStateReducer} {authority : Option AuthorityContext}
  {t : ProjectState}

/-- One accepted event keeps the lists in agreement when it meets the condition. -/
theorem Dispatched.lists (h : ListsMatch s) (hkeeps : KeepsLists s event)
    (hdispatched : Dispatched self authority s event t) : ListsMatch t := by
  cases hdispatched with
  | risks risks hrisks =>
      exact ⟨handleRisk_matches h.risks hkeeps hrisks, h.issues, h.assumptions, h.dependencies⟩
  | assumptions assumptions hassumptions =>
      exact ⟨h.risks, h.issues, handleAssumption_matches h.assumptions hkeeps hassumptions,
        h.dependencies⟩
  | issues issues hissues =>
      exact ⟨h.risks, handleIssue_matches h.issues hkeeps hissues, h.assumptions, h.dependencies⟩
  | dependencies dependencies hdependencies =>
      exact ⟨h.risks, h.issues, h.assumptions,
        handleDependency_matches h.dependencies hkeeps hdependencies⟩
  | _ => exact ⟨h.risks, h.issues, h.assumptions, h.dependencies⟩

theorem ListsMatch.run {start final : ProjectState} {events : List ProjectEvent}
    (hstart : ListsMatch start) (h : applyEvents self authority start events = .ok final)
    (hkeeps : Throughout (applyEvent self authority) start KeepsLists events) :
    ListsMatch final := by
  refine foldlM_history (P := fun events s => Throughout (applyEvent self authority) start
    KeepsLists events → ListsMatch s) (fun _ => hstart) ?_ h hkeeps
  intro before mid event next hmid ih hnext hall
  obtain ⟨hbefore, hevent⟩ := (throughout_concat hmid).mp hall
  obtain ⟨applied, -, -, hdispatched, rfl⟩ := applyEvent_dispatched hnext
  obtain ⟨hrisks, hissues, hassumptions, hdependencies⟩ := hdispatched.lists (ih hbefore) hevent
  exact ⟨hrisks, hissues, hassumptions, hdependencies⟩

/-- In a replay whose every event meets the condition in the state it is applied to, the lists of
the resulting state hold the ids of the entities whose status counts, and no others. -/
theorem raid_lists_match {events : List ProjectEvent} {tasks : List TaskAuthorityView}
    {decisions : List DecisionAuthorityView} {projectId : Option String}
    (h : reduceInternal self events none tasks decisions projectId authority = .ok t)
    (hkeeps : ∀ start, preparedState self events tasks decisions projectId authority = .ok start →
      Throughout (applyEvent self authority) start KeepsLists events) : ListsMatch t := by
  obtain ⟨start, final, hprepared, hfinal, hprojected⟩ := reduceInternal_ok.mp h
  have hstart : ListsMatch start := by
    obtain ⟨target, taskViews, decisionViews, -, rfl, -⟩ := preparedState_ok hprepared
    exact ⟨Register.matches_empty, Register.matches_empty, Register.matches_empty,
      Register.matches_empty⟩
  obtain ⟨hrisks, hissues, hassumptions, hdependencies⟩ := hstart.run hfinal (hkeeps start hprepared)
  obtain ⟨-, revision, -, rfl⟩ := computeProjections_ok.mp hprojected
  exact ⟨hrisks.sorted, hissues.sorted, hassumptions.sorted, hdependencies.sorted⟩

end

section

attribute [local instance] PythonText.ascii LaxInt.intOnly

def openedRisk (status : String) : Dict := [("risk_id", .str "rsk_aa"), ("status", .str status)]

/-- The dumped provenance of an entity that the event of `alice` built. -/
def openedProvenance (eventId : String) : Dict := [
  ("actor", .str "alice"), ("confidence", .null), ("correlation_id", .null),
  ("evidence_refs", .list []), ("invalidates", .null), ("primary_source_event_id", .null),
  ("source_event_ids", strList [eventId]), ("source_type", .str "event_replay"),
  ("supersedes", .null), ("timestamp", .str "2026-01-01T00:00:00Z"), ("valid_from", .null),
  ("valid_to", .null), ("verification_status", .str "verified")]

theorem readFields_provenance {eventId : String} (hid : eventId ∈ ["evt_1", "evt_2"]) :
    readFields provenanceFields [
      ("source_event_ids", strList [eventId]), ("actor", .str "alice"),
      ("timestamp", .str "2026-01-01T00:00:00Z"), ("source_type", .str "event_replay"),
      ("verification_status", .str "verified")] = .ok (openedProvenance eventId) := by
  simp only [List.mem_cons, List.not_mem_nil, or_false] at hid
  rcases hid with rfl | rfl
  · rfl
  · rfl

/-- The dumped risk that an opening event of `alice` records. -/
def openedRiskDump (eventId status : String) : Dict := [
  ("created_at", .str "2026-01-01T00:00:00Z"), ("description", .str ""), ("impact", .str "medium"),
  ("mitigation_plan", .str ""), ("owner", .str "alice"), ("probability", .str "medium"),
  ("project_id", .str "prj_abc"), ("provenance", .dict (openedProvenance eventId)),
  ("related_task_ids", strList []), ("risk_id", .str "rsk_aa"), ("status", .str status),
  ("title", .str "Risk rsk_aa"), ("updated_at", .str "2026-01-01T00:00:00Z")]

theorem readFields_risk {eventId status : String} (hid : eventId ∈ ["evt_1", "evt_2"])
    (hstatus : status ∈ ["identified", "retired"]) :
    readFields riskFields [
      ("risk_id", .str "rsk_aa"), ("project_id", .str "prj_abc"), ("title", .str "Risk rsk_aa"),
      ("description", .str ""), ("probability", .str "medium"), ("impact", .str "medium"),
      ("mitigation_plan", .str ""), ("owner", .str "alice"), ("status", .str status),
      ("related_task_ids", strList []), ("provenance", .dict (openedProvenance eventId)),
      ("created_at", .str "2026-01-01T00:00:00Z"), ("updated_at", .str "2026-01-01T00:00:00Z")] =
        .ok (openedRiskDump eventId status) := by
  simp only [List.mem_cons, List.not_mem_nil, or_false] at hid hstatus
  rcases hid with rfl | rfl <;> rcases hstatus with rfl | rfl
  all_goals rfl

/-- What an opening event of `alice` does with the risks, in the status it gives. -/
theorem handleRiskOpened_openedRisk {s : ProjectState} (hproject : s.projectId = "prj_abc")
    (eventId status : String) (hid : eventId ∈ ["evt_1", "evt_2"])
    (hstatus : status ∈ ["identified", "retired"]) :
    ∃ risk : Risk, risk.status = status ∧ Canonical risk.modelDump ∧
      handleRiskOpened s (nextEvent s (governedEvent .riskOpened eventId (openedRisk status))) =
        .ok (s.risks.put "rsk_aa" risk (moveByStatus [] ["identified"] risk)) := by
  have hprovenance := readFields_provenance hid
  have hread := readFields_risk hid hstatus
  let provenance : Record provenanceFields := ⟨_, fits_of_readFields hprovenance⟩
  let risk : Risk := ⟨_, fits_of_readFields hread⟩
  have hbuilt : Record.modelValidate riskFields _ = .ok risk := Record.modelValidate_ok.mpr
    ⟨by simp [riskFields, Field.required, Field.withDefault, provenanceField], hread⟩
  have hsource : Record.modelValidate provenanceFields _ = .ok provenance :=
    Record.modelValidate_ok.mpr
      ⟨by simp [provenanceFields, Field.required, Field.optional, Field.withDefault], hprovenance⟩
  have hraid : raidId "risk_id" (nextEvent s
      (governedEvent .riskOpened eventId (openedRisk status))) = some (.str "rsk_aa") := by
    have htrusted : isUntrustedEvent (nextEvent s
        (governedEvent .riskOpened eventId (openedRisk status))) = false :=
      trusted_governedEvent (by decide) rfl rfl
    rw [raidId, htrusted]
    rfl
  have hrelated : sortedTexts "related_task_ids" (.list []) = .ok [] := by
    change Except.ok (sortTexts []) = _
    simp [sortTexts]
  have hnull : Canonical .null := canonical_optValue none
  refine ⟨risk, rfl, ?_, ?_⟩
  · simp [risk, Record.modelDump, openedRiskDump, openedProvenance, canonical_dict, canonical_str,
      canonical_strList, canonical_list_iff, hnull]
  · unfold handleRiskOpened
    dsimp only
    rw [createEntity, hraid, hproject]
    dsimp only
    exact bind_eq_ok.mpr ⟨_, bind_eq_ok.mpr ⟨_, congrArg (Except.map Record.modelDump) hsource,
      bind_eq_ok.mpr ⟨[], hrelated, rfl⟩⟩, bind_eq_ok.mpr ⟨risk, hbuilt, rfl⟩⟩

theorem reached_openedRisk : ∃ event, ∃ risk : Risk,
    Reached defaultReducer (some serviceAuthority) "prj_abc" [event]
      ({ ProjectState.initial "prj_abc" governanceRulesVersion with
        risks := (Register.empty riskFields).put "rsk_aa" risk .enter }.advance event) ∧
      event.sequence = 1 ∧ risk.status = "identified" ∧ Canonical risk.modelDump := by
  have hnew : Reached defaultReducer (some serviceAuthority) "prj_abc" []
      (.initial "prj_abc" governanceRulesVersion) := reached_nil
  obtain ⟨risk, hidentified, hcanonical, hopened⟩ := handleRiskOpened_openedRisk
    (s := .initial "prj_abc" governanceRulesVersion) rfl "evt_1" "identified" (by decide) (by decide)
  have hmove : moveByStatus [] ["identified"] risk = .enter := by
    rw [moveByStatus, hidentified]
    rfl
  rw [hmove] at hopened
  have hreached := hnew.governed .riskOpened "evt_1" (openedRisk "identified") (by decide) rfl rfl
    (by simp [canonical_dict, canonical_str, openedRisk]) (printable_small (by decide))
    (bind_eq_ok.mpr ⟨_, hopened, rfl⟩)
  exact ⟨_, risk, hreached, rfl, hidentified, hcanonical⟩

/-- The theorem on a stream that opens a risk. -/
theorem raid_lists_match_sample : ∃ events t,
    reduceInternal defaultReducer events none [] [] (some "prj_abc") (some serviceAuthority) = .ok t ∧
      t.risks.listed = ["rsk_aa"] ∧ ListsMatch t := by
  obtain ⟨event, risk, hreached, hsequence, -, hcanonical⟩ := reached_openedRisk
  have hprintable : Printable event.sequence := by
    rw [hsequence]
    exact printable_small (by decide)
  have hrisks : Entries (fun risk : Risk => Canonical risk.modelDump)
      ((∅ : Table Risk).insert "rsk_aa" risk) :=
    Entries.insert (p := fun risk : Risk => Canonical risk.modelDump) entries_empty hcanonical _
  obtain ⟨t, ht, hprojected⟩ := hreached.reduce (by decide) rfl
    ⟨hprintable, entries_empty, entries_empty, entries_empty, entries_empty, entries_empty, hrisks,
      entries_empty, entries_empty, entries_empty⟩ [] []
  refine ⟨_, t, ht, ?_, raid_lists_match ht ?_⟩
  · obtain ⟨-, revision, -, rfl⟩ := computeProjections_ok.mp hprojected
    change sortedSet ["rsk_aa"] = ["rsk_aa"]
    decide
  · intro start hstart
    obtain ⟨target, _, _, -, -, hinitial⟩ := preparedState_ok hstart
    obtain rfl := hinitial rfl
    refine throughout_singleton.mpr ?_
    exact ⟨fun _ _ _ _ _ _ hmem => absurd hmem List.not_mem_nil, fun _ _ _ _ _ hmem => absurd hmem List.not_mem_nil,
      fun _ _ _ _ _ _ hmem => absurd hmem List.not_mem_nil, fun _ _ _ _ _ _ hmem => absurd hmem List.not_mem_nil,
      fun _ _ _ _ _ _ hmem => absurd hmem List.not_mem_nil⟩

/-- A risk that is recorded again as retired stays on the list of open risks. -/
theorem retired_risk_open : ∃ events t risk,
    reduceInternal defaultReducer events none [] [] (some "prj_abc") (some serviceAuthority) = .ok t ∧
      t.risks.entities["rsk_aa"]? = some risk ∧ risk.status = "retired" ∧
      "rsk_aa" ∈ t.risks.listed ∧ ¬ ListsMatch t := by
  obtain ⟨event, first, hone, hsequence, -, hfirst⟩ := reached_openedRisk
  obtain ⟨second, hretired, hsecond, hreopened⟩ := handleRiskOpened_openedRisk hone.kept.1
    "evt_2" "retired" (by decide) (by decide)
  have hmove : moveByStatus [] ["identified"] second = .stay := by
    rw [moveByStatus, hretired]
    rfl
  rw [hmove] at hreopened
  have hprintable : Printable (event.sequence + 1) := by
    rw [hsequence]
    exact printable_small (by decide)
  have htwo := hone.governed .riskOpened "evt_2" (openedRisk "retired") (by decide) rfl rfl
    (by simp [canonical_dict, canonical_str, openedRisk]) hprintable
    (bind_eq_ok.mpr ⟨_, hreopened, rfl⟩)
  have hrisks : Entries (fun risk : Risk => Canonical risk.modelDump)
      (((∅ : Table Risk).insert "rsk_aa" first).insert "rsk_aa" second) :=
    Entries.insert (p := fun risk : Risk => Canonical risk.modelDump)
      (Entries.insert (p := fun risk : Risk => Canonical risk.modelDump) entries_empty hfirst _)
      hsecond _
  obtain ⟨t, ht, hprojected⟩ := htwo.reduce (by decide) rfl
    ⟨hprintable, entries_empty, entries_empty, entries_empty, entries_empty,
      entries_empty, hrisks, entries_empty, entries_empty, entries_empty⟩ [] []
  obtain ⟨-, revision, -, rfl⟩ := computeProjections_ok.mp hprojected
  have hentity : (((∅ : Table Risk).insert "rsk_aa" first).insert "rsk_aa" second)["rsk_aa"]? =
      some second := by simp
  have hlisted : "rsk_aa" ∈ sortedSet ["rsk_aa"] := mem_sortedSet.mpr List.mem_cons_self
  refine ⟨_, _, second, ht, hentity, hretired, hlisted, ?_⟩
  intro hmatch
  obtain ⟨found, hfound, hopen⟩ := (hmatch.risks.mem "rsk_aa").mp hlisted
  change (((∅ : Table Risk).insert "rsk_aa" first).insert "rsk_aa" second)["rsk_aa"]? =
    some found at hfound
  rw [hentity] at hfound
  cases hfound
  rw [hretired] at hopen
  cases hopen

end

end PowerFramework.State
