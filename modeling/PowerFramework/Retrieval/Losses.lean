import PowerFramework.Retrieval.Screening
/-!
# What a retrieval loses

Which search results and records a retrieval comes to, and that a retrieval that calls itself
complete represents all of them exactly when none of its loops broke off before them.
-/

namespace PowerFramework.Retrieval

open Lib Lib.Failure Lib.Json Lib.Loop State Search

set_option linter.unusedSectionVars false

section
variable [PythonText] [PythonYaml] [PythonWord] [PythonMath] {planner : Planner} {stores : Stores}
  {plan : RetrievalPlan} {intent : QueryIntent} {accessPolicy : AccessPolicy}
  {result : PlannerResult} {owner : Owner} {record : CanonicalRecord}

/-! ## The records of a store -/

/-- The tasks or the decisions of the stores. -/
def Stores.records (stores : Stores) : Owner → List CanonicalRecord
  | .task => (stores.tasks.map fun store => store.tasks.map PowerTask.record).getD []
  | .decision => (stores.decisions.map fun store => store.decisions.map Decision.record).getD []
  | .project => []

/-- The store of the owner can be listed. -/
def Stores.Lists (stores : Stores) : Owner → Prop
  | .task => ∃ store, stores.tasks = some store ∧ store.failure = none
  | .decision => ∃ store, stores.decisions = some store ∧ store.failure = none
  | .project => False

/-- The records that are listed within the budget. -/
def listed (stores : Stores) (plan : RetrievalPlan) (owner : Owner) : List CanonicalRecord :=
  (stores.records owner).take plan.budget.maxCandidates

/-- The turn of the loop over the records of the owner. -/
def turn (stores : Stores) (plan : RetrievalPlan) (intent : QueryIntent) (owner : Owner) :
    CanonicalRecord → Except Exn (Option ContextItem) :=
  readRecord plan intent (scopedRecords intent (listed stores plan owner))

/-- The loop over the records of the owner comes to the record. -/
def RecordReached (stores : Stores) (plan : RetrievalPlan) (intent : QueryIntent) (owner : Owner)
    (record : CanonicalRecord) : Prop :=
  owner ∈ canonicalOwners intent.intent ∧ stores.Lists owner ∧
    Reaches (turn stores plan intent owner) (listed stores plan owner) record

/-- The query admits the record by its own evidence. -/
def Admits (stores : Stores) (plan : RetrievalPlan) (intent : QueryIntent) (owner : Owner)
    (record : CanonicalRecord) : Prop :=
  record.admissible intent (scopedRecords intent (listed stores plan owner)) = true

/-- The reading of the store of an owner. -/
def reading (stores : Stores) (plan : RetrievalPlan) (intent : QueryIntent) : Owner → StoreReading
  | .task => readTasks stores plan intent
  | .decision => readDecisions stores plan intent
  | .project => .nothing

theorem candidates_le (budget : RetrievalBudget) :
    1 ≤ budget.maxCandidates ∧ budget.maxCandidates ≤ 400 := by
  have h := budget.accepted
  simp only [BudgetArguments.valid, Bool.and_eq_true, decide_eq_true_eq] at h
  refine ⟨h.1.1.1.1.1.1.1.1.1.1, ?_⟩
  have hcap : budget.budgetClass.caps.1 ≤ 400 := by
    cases budget.budgetClass <;> decide
  omega

/-- The reading of a store is the loop over its listed records, or nothing. -/
theorem reading_cases (stores : Stores) (plan : RetrievalPlan) (intent : QueryIntent)
    (owner : Owner) :
    (owner ∈ canonicalOwners intent.intent ∧ stores.Lists owner ∧
        reading stores plan intent owner = readRecords plan intent (listed stores plan owner)) ∨
      ¬ (owner ∈ canonicalOwners intent.intent ∧ stores.Lists owner) ∧
        (reading stores plan intent owner).registered = [] ∧
        (reading stores plan intent owner).admitted = [] ∧
        (reading stores plan intent owner).items = [] := by
  cases owner with
  | project => exact .inr ⟨fun h => h.2, rfl, rfl, rfl⟩
  | task =>
    rw [reading, readTasks]
    cases htasks : stores.tasks with
    | none => exact .inr ⟨fun h => by simp [Stores.Lists, htasks] at h, rfl, rfl, rfl⟩
    | some store =>
      simp only
      split_ifs with hconsulted
      · cases hfailure : store.failure with
        | none =>
          refine .inl ⟨hconsulted, ⟨store, htasks, hfailure⟩, ?_⟩
          rw [TaskStore.listTasks, hfailure]
          simp [Except.map, readListing, listed, Stores.records, htasks]
        | some exn =>
          refine .inr ⟨fun h => ?_, ?_, ?_, ?_⟩
          · obtain ⟨other, hother, hnone⟩ := h.2
            rw [htasks] at hother
            cases hother
            rw [hfailure] at hnone
            cases hnone
          all_goals
            rw [TaskStore.listTasks, hfailure]
            rfl
      · exact .inr ⟨fun h => hconsulted h.1, rfl, rfl, rfl⟩
  | decision =>
    have hlimit := candidates_le plan.budget
    rw [reading, readDecisions]
    cases hdecisions : stores.decisions with
    | none => exact .inr ⟨fun h => by simp [Stores.Lists, hdecisions] at h, rfl, rfl, rfl⟩
    | some store =>
      simp only
      split_ifs with hconsulted
      · rw [DecisionStore.listDecisions, if_neg (not_not.mpr ⟨hlimit.1, by omega⟩)]
        cases hfailure : store.failure with
        | none =>
          refine .inl ⟨hconsulted, ⟨store, hdecisions, hfailure⟩, ?_⟩
          simp [Except.map, readListing, listed, Stores.records, hdecisions]
        | some exn =>
          refine .inr ⟨fun h => ?_, rfl, rfl, rfl⟩
          obtain ⟨other, hother, hnone⟩ := h.2
          rw [hdecisions] at hother
          cases hother
          rw [hfailure] at hnone
          cases hnone
      · exact .inr ⟨fun h => hconsulted h.1, rfl, rfl, rfl⟩

/-- The records that are registered are those the loop comes to. -/
theorem mem_registered :
    record ∈ (reading stores plan intent owner).registered ↔
      RecordReached stores plan intent owner record := by
  rcases reading_cases stores plan intent owner with
    ⟨hconsulted, hlists, heq⟩ | ⟨hnot, hregistered, -, -⟩
  · rw [heq]
    constructor
    · intro h
      exact ⟨hconsulted, hlists, mem_reached.mp h⟩
    · intro h
      exact mem_reached.mpr h.2.2
  · rw [hregistered]
    constructor
    · intro h
      cases h
    · intro h
      exact absurd ⟨h.1, h.2.1⟩ hnot

theorem mem_admitted :
    record ∈ (reading stores plan intent owner).admitted ↔
      RecordReached stores plan intent owner record ∧ Admits stores plan intent owner record := by
  rcases reading_cases stores plan intent owner with
    ⟨hconsulted, hlists, heq⟩ | ⟨hnot, -, hadmitted, -⟩
  · rw [heq, readRecords, List.mem_filter, mem_reached]
    constructor
    · intro h
      exact ⟨⟨hconsulted, hlists, h.1⟩, h.2⟩
    · intro h
      exact ⟨h.1.2.2, h.2⟩
  · rw [hadmitted]
    constructor
    · intro h
      cases h
    · intro h
      exact absurd ⟨h.1.1, h.1.2.1⟩ hnot

/-- The scope of the records related to a reading is that of its store. -/
theorem listed_of_reached (h : RecordReached stores plan intent owner record) :
    (reading stores plan intent owner).listed = listed stores plan owner := by
  rcases reading_cases stores plan intent owner with ⟨-, -, heq⟩ | ⟨hnot, -⟩
  · rw [heq]
    rfl
  · exact absurd ⟨h.1, h.2.1⟩ hnot

/-- The item of a record stands for the record. -/
theorem sourceId_of_record {score : ℚ} {item : ContextItem}
    (h : contextItem (record.evidence plan score) = .ok item) : item.sourceId = record.sourceId :=
  congrArg Evidence.sourceId (contextItem_eq_ok.mp h)

/-- A turn that makes an item of the record admits it. -/
theorem turn_eq_some {item : ContextItem} (h : turn stores plan intent owner record = .ok (some item)) :
    Admits stores plan intent owner record ∧ item.sourceId = record.sourceId := by
  unfold turn readRecord at h
  split_ifs at h with hadmissible
  · obtain ⟨item', hitem, heq⟩ := map_eq_ok.mp h
    cases heq
    exact ⟨hadmissible, sourceId_of_record hitem⟩
  · cases h

/-- A record the loop comes to, and of which it makes an item. -/
def RecordRead (stores : Stores) (plan : RetrievalPlan) (intent : QueryIntent) (owner : Owner)
    (record : CanonicalRecord) : Prop :=
  RecordReached stores plan intent owner record ∧
    ∃ item, turn stores plan intent owner record = .ok (some item)

/-- The items of a reading are those of the records that are read. -/
theorem exists_item_iff {id : String} :
    (∃ entry ∈ (reading stores plan intent owner).items, entry.1.sourceId = id) ↔
      ∃ record, RecordRead stores plan intent owner record ∧ record.sourceId = id := by
  rcases reading_cases stores plan intent owner with
    ⟨hconsulted, hlists, heq⟩ | ⟨hnot, -, -, hitems⟩
  · rw [heq]
    constructor
    · rintro ⟨⟨item, revision⟩, hentry, hid⟩
      obtain ⟨⟨record, read⟩, hread, hsome⟩ := List.mem_filterMap.mp hentry
      obtain ⟨item', hitem, hpair⟩ := Option.map_eq_some_iff.mp hsome
      cases hpair
      obtain ⟨hreach, hturn⟩ := mem_untilFailure.mp hread
      have hturn : turn stores plan intent owner record = .ok (some item) := hitem ▸ hturn
      exact ⟨record, ⟨⟨hconsulted, hlists, hreach⟩, item, hturn⟩,
        (turn_eq_some hturn).2.symm.trans hid⟩
    · rintro ⟨record, ⟨⟨-, -, hreach⟩, item, hturn⟩, hid⟩
      refine ⟨(item, record.revision), ?_, (turn_eq_some hturn).2.trans hid⟩
      exact List.mem_filterMap.mpr
        ⟨(record, some item), mem_untilFailure.mpr ⟨hreach, hturn⟩, rfl⟩
  · rw [hitems]
    constructor
    · rintro ⟨entry, hentry, -⟩
      cases hentry
    · rintro ⟨record, ⟨hreach, -⟩, -⟩
      exact absurd ⟨hreach.1, hreach.2.1⟩ hnot

/-! ## Related records -/

/-- For a kind of query, the owner whose records bind those of the other owner to it. -/
def bindings : QueryIntentKind → Option (Owner × Owner)
  | .task => some (.task, .decision)
  | .decision => some (.decision, .task)
  | _ => none

/-- One of the two records is a decision on the other, a task. -/
def Binds : Owner → CanonicalRecord → CanonicalRecord → Prop
  | .task, binder, record => record.taskId = binder.objectId
  | .decision, binder, record => record.objectId = binder.taskId
  | .project, _, _ => False

/-- The record shares words with the query, within its scope. -/
def Shares (stores : Stores) (plan : RetrievalPlan) (intent : QueryIntent) (owner : Owner)
    (record : CanonicalRecord) : Prop :=
  inScope (scopedRecords intent (listed stores plan owner)) record.objectId = true ∧
    (record.eligibility intent.query).matched.isEmpty = false

/-- A record of which the stage makes an item because an admitted record binds it. -/
structure RelatedRead (stores : Stores) (plan : RetrievalPlan) (intent : QueryIntent)
    (binder owner : Owner) (record : CanonicalRecord) : Prop where
  bindings : bindings intent.intent = some (binder, owner)
  reached : RecordReached stores plan intent owner record
  shares : Shares stores plan intent owner record
  notAdmitted : ∀ other, RecordReached stores plan intent owner other →
    Admits stores plan intent owner other → other.objectId ≠ record.objectId
  bound : ∃ other, RecordReached stores plan intent binder other ∧
    Admits stores plan intent binder other ∧ Binds binder other record

theorem akin_iff (h : RecordReached stores plan intent owner record) :
    (reading stores plan intent owner).akin intent record = true ↔
      (∀ other, RecordReached stores plan intent owner other →
        Admits stores plan intent owner other → other.objectId ≠ record.objectId) ∧
      Shares stores plan intent owner record := by
  unfold StoreReading.akin Shares
  rw [listed_of_reached h, Bool.and_eq_true, Bool.and_eq_true, decide_eq_true_eq, List.mem_map,
    Bool.not_eq_true', and_assoc]
  refine and_congr_left fun _ => ?_
  constructor
  · intro hnone other hreach hadmits hid
    exact hnone ⟨other, mem_admitted.mpr ⟨hreach, hadmits⟩, hid⟩
  · rintro hnone ⟨other, hother, hid⟩
    obtain ⟨hreach, hadmits⟩ := mem_admitted.mp hother
    exact hnone other hreach hadmits hid

theorem relatedRead_iff {binder : Owner} (h : bindings intent.intent = some (binder, owner)) :
    RelatedRead stores plan intent binder owner record ↔
      record ∈ (reading stores plan intent owner).registered ∧
        (reading stores plan intent owner).akin intent record = true ∧
        ∃ other ∈ (reading stores plan intent binder).admitted, Binds binder other record := by
  constructor
  · intro hread
    obtain ⟨other, hreach, hadmits, hbinds⟩ := hread.bound
    exact ⟨mem_registered.mpr hread.reached,
      (akin_iff hread.reached).mpr ⟨hread.notAdmitted, hread.shares⟩, other,
      mem_admitted.mpr ⟨hreach, hadmits⟩, hbinds⟩
  · rintro ⟨hregistered, hakin, other, hother, hbinds⟩
    have hreach := mem_registered.mp hregistered
    obtain ⟨hnone, hshares⟩ := (akin_iff hreach).mp hakin
    obtain ⟨hother, hadmits⟩ := mem_admitted.mp hother
    exact ⟨h, hreach, hshares, hnone, other, hother, hadmits, hbinds⟩

/-- The related records are those of the two readings that an admitted record binds. -/
theorem mem_relatedRecords :
    record ∈ relatedRecords intent (reading stores plan intent .task)
        (reading stores plan intent .decision) ↔
      ∃ binder owner, RelatedRead stores plan intent binder owner record := by
  unfold relatedRecords
  split
  · next htask =>
    have hbindings : bindings intent.intent = some (.task, .decision) := by rw [htask]; rfl
    rw [List.mem_filter, Bool.and_eq_true, decide_eq_true_eq]
    constructor
    · rintro ⟨hregistered, hakin, hid⟩
      obtain ⟨other, hother, hid⟩ := List.mem_map.mp hid
      exact ⟨.task, .decision, (relatedRead_iff hbindings).mpr
        ⟨hregistered, hakin, other, hother, hid.symm⟩⟩
    · rintro ⟨binder, owner, hread⟩
      have howners := hread.bindings
      rw [hbindings] at howners
      cases howners
      obtain ⟨hregistered, hakin, other, hother, hid⟩ := (relatedRead_iff hbindings).mp hread
      exact ⟨hregistered, hakin, List.mem_map.mpr ⟨other, hother, Eq.symm hid⟩⟩
  · next hdecision =>
    have hbindings : bindings intent.intent = some (.decision, .task) := by rw [hdecision]; rfl
    rw [List.mem_filter, Bool.and_eq_true, decide_eq_true_eq]
    constructor
    · rintro ⟨hregistered, hakin, hid⟩
      obtain ⟨other, hother, hid⟩ := List.mem_map.mp hid
      exact ⟨.decision, .task, (relatedRead_iff hbindings).mpr
        ⟨hregistered, hakin, other, hother, hid.symm⟩⟩
    · rintro ⟨binder, owner, hread⟩
      have howners := hread.bindings
      rw [hbindings] at howners
      cases howners
      obtain ⟨hregistered, hakin, other, hother, hid⟩ := (relatedRead_iff hbindings).mp hread
      exact ⟨hregistered, hakin, List.mem_map.mpr ⟨other, hother, Eq.symm hid⟩⟩
  · next htask hdecision =>
    constructor
    · intro h
      cases h
    · rintro ⟨binder, owner, hread⟩
      have howners := hread.bindings
      unfold bindings at howners
      split at howners
      · next hkind => exact absurd hkind htask
      · next hkind => exact absurd hkind hdecision
      · cases howners

/-- The related items are those of the related records. -/
theorem exists_related_iff {related : List (ContextItem × String)} {id : String}
    (h : relatedItems plan intent (readTasks stores plan intent) (readDecisions stores plan intent) =
      .ok related) :
    (∃ entry ∈ related, entry.1.sourceId = id) ↔
      ∃ binder owner record, RelatedRead stores plan intent binder owner record ∧
        record.sourceId = id := by
  constructor
  · rintro ⟨entry, hentry, hid⟩
    obtain ⟨record, hrecord, hitem⟩ := mem_of_mapM h hentry
    obtain ⟨item, hmade, rfl⟩ := map_eq_ok.mp hitem
    obtain ⟨binder, owner, hread⟩ := mem_relatedRecords.mp hrecord
    exact ⟨binder, owner, record, hread, (sourceId_of_record hmade).symm.trans hid⟩
  · rintro ⟨binder, owner, record, hread, hid⟩
    obtain ⟨entry, hentry, hitem⟩ := exists_of_mapM h (mem_relatedRecords.mpr ⟨binder, owner, hread⟩)
    obtain ⟨item, hmade, rfl⟩ := map_eq_ok.mp hitem
    exact ⟨_, hentry, (sourceId_of_record hmade).trans hid⟩

/-! ## Projects -/

/-- The query admits the project, whose state can be read. -/
def AdmitsProject (store : ProjectStore) (intent : QueryIntent) (projectId : String)
    (summary : ProjectSummary) : Prop :=
  projectAdmission store intent (scopedObjectIds intent.query store.projectIds) projectId =
    .ok (some summary)

/-- A project of which the stage makes an item. -/
def ProjectRead (stores : Stores) (plan : RetrievalPlan) (intent : QueryIntent)
    (projectId : String) : Prop :=
  .project ∈ canonicalOwners intent.intent ∧ stores.projectStatus = .available ∧
    ∃ store, stores.projects = some store ∧ store.failure = none ∧
      projectId ∈ store.projectIds ∧ ∃ summary, AdmitsProject store intent projectId summary ∧
        ∃ item, projectItem store plan intent projectId summary = .ok (some item)

/-- The source of a project. -/
def projectSource (projectId : String) : String := "project:" ++ projectId

theorem sourceId_of_project {store : ProjectStore} {projectId : String} {summary : ProjectSummary}
    {entry : ContextItem × String}
    (h : projectItem store plan intent projectId summary = .ok (some entry)) :
    entry.1.sourceId = projectSource projectId := by
  unfold projectItem at h
  simp only at h
  split_ifs at h
  · cases h
  · obtain ⟨item, hitem, heq⟩ := map_eq_ok.mp h
    cases heq
    exact sourceId_of_record hitem

theorem readProject_item {store : ProjectStore} {named : Option (List String)} {projectId : String}
    {entry : ContextItem × String} :
    (readProject store plan intent named projectId).item = some entry ↔
      ∃ summary, projectAdmission store intent named projectId = .ok (some summary) ∧
        projectItem store plan intent projectId summary = .ok (some entry) := by
  unfold readProject
  simp only
  cases hadmission : projectAdmission store intent named projectId with
  | error exn => simp
  | ok admitted =>
    cases admitted with
    | none => simp
    | some summary =>
      cases hitem : projectItem store plan intent projectId summary with
      | error exn => simp [hitem]
      | ok item => cases item <;> simp [hitem]

/-- The items of the projects are those of the projects that are read. -/
theorem exists_project_iff {id : String} :
    (∃ entry ∈ (projectPart stores plan intent).1.filterMap ProjectReading.item,
        entry.1.sourceId = id) ↔
      ∃ projectId, ProjectRead stores plan intent projectId ∧ projectSource projectId = id := by
  unfold projectPart ProjectRead
  by_cases hconsulted : Owner.project ∈ canonicalOwners intent.intent
  · rw [if_pos hconsulted]
    cases hprojects : stores.projects with
    | none => simp
    | some store =>
      simp only
      by_cases hstatus : stores.projectStatus = .available
      · rw [if_pos hstatus]
        unfold readProjects ProjectStore.listProjectIds
        cases hfailure : store.failure with
        | some exn => simp [hfailure]
        | none =>
          simp only [List.filterMap_map, List.mem_filterMap, Function.comp_apply, List.mem_mergeSort,
            readProject_item]
          constructor
          · rintro ⟨entry, ⟨projectId, hmem, summary, hadmission, hitem⟩, hid⟩
            exact ⟨projectId, ⟨hconsulted, hstatus, store, rfl, hfailure, hmem, summary, hadmission,
              entry, hitem⟩, (sourceId_of_project hitem).symm.trans hid⟩
          · rintro ⟨projectId, ⟨-, -, other, hother, -, hmem, summary, hadmission, entry, hitem⟩, hid⟩
            cases hother
            exact ⟨entry, ⟨projectId, hmem, summary, hadmission, hitem⟩,
              (sourceId_of_project hitem).trans hid⟩
      · simp [hstatus]
  · simp [hconsulted]

/-! ## The stages -/

/-- The stage of canonical records makes an item of the source. -/
def CanonicalRead (stores : Stores) (plan : RetrievalPlan) (intent : QueryIntent) (id : String) :
    Prop :=
  (∃ owner record, RecordRead stores plan intent owner record ∧ record.sourceId = id) ∨
    (∃ binder owner record, RelatedRead stores plan intent binder owner record ∧
      record.sourceId = id) ∨
    ∃ projectId, ProjectRead stores plan intent projectId ∧ projectSource projectId = id

/-- The query needs the project store, which is not there. -/
def OwnerMissing (stores : Stores) (intent : QueryIntent) : Prop :=
  .project ∈ canonicalOwners intent.intent ∧
    (stores.projects = none ∨ stores.projectStatus ≠ .available)

theorem exists_append_iff {front back : List (ContextItem × String)} {id : String} :
    (∃ entry ∈ front ++ back, entry.1.sourceId = id) ↔
      (∃ entry ∈ front, entry.1.sourceId = id) ∨ ∃ entry ∈ back, entry.1.sourceId = id := by
  simp only [List.mem_append, or_and_right, exists_or]

/-- A record of a store that is read is a task or a decision. -/
theorem exists_read_iff {id : String} :
    (∃ owner record, RecordRead stores plan intent owner record ∧ record.sourceId = id) ↔
      (∃ record, RecordRead stores plan intent .task record ∧ record.sourceId = id) ∨
        ∃ record, RecordRead stores plan intent .decision record ∧ record.sourceId = id := by
  constructor
  · rintro ⟨owner, hread⟩
    cases owner with
    | task => exact .inl hread
    | decision => exact .inr hread
    | project =>
      obtain ⟨record, ⟨hreach, -⟩, -⟩ := hread
      exact False.elim hreach.2.1
  · rintro (hread | hread)
    · exact ⟨.task, hread⟩
    · exact ⟨.decision, hread⟩

theorem canonicalStage_items {harvest : Harvest}
    (h : canonicalStage stores plan intent = .ok harvest) {id : String} :
    (∃ entry ∈ harvest.items, entry.1.sourceId = id) ↔ CanonicalRead stores plan intent id := by
  obtain ⟨related, hrelated, h⟩ := bind_eq_ok.mp h
  cases h
  have htasks : (∃ entry ∈ (reading stores plan intent .task).items, entry.1.sourceId = id) ↔
      ∃ record, RecordRead stores plan intent .task record ∧ record.sourceId = id :=
    exists_item_iff
  have hdecisions : (∃ entry ∈ (reading stores plan intent .decision).items,
      entry.1.sourceId = id) ↔
      ∃ record, RecordRead stores plan intent .decision record ∧ record.sourceId = id :=
    exists_item_iff
  rw [CanonicalRead, exists_read_iff, ← htasks, ← hdecisions, ← exists_related_iff hrelated,
    ← exists_project_iff, exists_append_iff, exists_append_iff, exists_append_iff]
  change (((∃ entry ∈ (reading stores plan intent .task).items, entry.1.sourceId = id) ∨
    (∃ entry ∈ (reading stores plan intent .decision).items, entry.1.sourceId = id)) ∨ _) ∨ _ ↔ _
  simp only [or_assoc]

/-- The intents that consult the projects are sensitive to authority. -/
theorem sensitive_of_project {kind : QueryIntentKind} (h : Owner.project ∈ canonicalOwners kind) :
    authoritySensitive kind = true := by
  cases kind <;> first | rfl | exact absurd h (by decide)

theorem canonicalStage_status {harvest : Harvest}
    (h : canonicalStage stores plan intent = .ok harvest) :
    harvest.status = .complete ↔ ¬ OwnerMissing stores intent := by
  obtain ⟨related, -, h⟩ := bind_eq_ok.mp h
  cases h
  unfold projectPart OwnerMissing
  by_cases hconsulted : Owner.project ∈ canonicalOwners intent.intent
  · have hsensitive := sensitive_of_project hconsulted
    rw [if_pos hconsulted]
    cases hprojects : stores.projects with
    | none => simp [hconsulted, hsensitive]
    | some store =>
      by_cases hstatus : stores.projectStatus = .available
      · simp [hstatus]
      · simp [hconsulted, hsensitive, hstatus]
  · simp [hconsulted]

/-- The item of a search result stands for its path. -/
theorem sourceId_of_hit {files : NoteFiles} {stage : RetrievalStage} {hit : Hit}
    {item : ContextItem} (h : noteItem files plan stage hit = .ok item) :
    item.sourceId = hit.relPath := by
  obtain ⟨verdict, -, h⟩ := bind_eq_ok.mp h
  obtain ⟨score, -, h⟩ := bind_eq_ok.mp h
  exact congrArg Evidence.sourceId (contextItem_eq_ok.mp h)

/-- The items of a search are those of the results before the first that fails. -/
theorem exists_hit_iff {stage : RetrievalStage} {mode id : String} (hstage : stage ∈ plan.stages) :
    (∃ entry ∈ (searchItems planner plan intent accessPolicy stage mode).1,
        entry.1.sourceId = id) ↔
      ∃ hit, CollectedBy planner plan intent accessPolicy stage mode hit ∧ hit.relPath = id := by
  unfold searchItems CollectedBy
  cases hsearch : planner.search intent.query plan.budget.maxCandidates mode plan.scope
      accessPolicy with
  | error exn => simp
  | ok hits =>
    constructor
    · rintro ⟨entry, hentry, hid⟩
      obtain ⟨⟨hit, item⟩, hread, rfl⟩ := List.mem_map.mp hentry
      obtain ⟨hreach, hitem⟩ := mem_untilFailure.mp hread
      exact ⟨hit, ⟨hstage, hits, rfl, hreach, item, hitem⟩, (sourceId_of_hit hitem).symm.trans hid⟩
    · rintro ⟨hit, ⟨-, hits', heq, hreach, item, hitem⟩, hid⟩
      cases heq
      exact ⟨_, List.mem_map_of_mem (mem_untilFailure.mpr ⟨hreach, hitem⟩),
        (sourceId_of_hit hitem).trans hid⟩

/-- The search raises, or one of its results is no item. -/
def SearchFails (planner : Planner) (plan : RetrievalPlan) (intent : QueryIntent)
    (accessPolicy : AccessPolicy) (stage : RetrievalStage) (mode : String) : Prop :=
  ∀ hits, planner.search intent.query plan.budget.maxCandidates mode plan.scope accessPolicy =
    .ok hits → ∃ hit ∈ hits, ∀ item, noteItem planner.files plan stage hit ≠ .ok item

theorem searchItems_failure {stage : RetrievalStage} {mode : String} :
    (searchItems planner plan intent accessPolicy stage mode).2 = none ↔
      ¬ SearchFails planner plan intent accessPolicy stage mode := by
  unfold searchItems SearchFails
  cases planner.search intent.query plan.budget.maxCandidates mode plan.scope accessPolicy with
  | error exn => simp
  | ok hits => simp [noteItems, failure_eq_none_iff]

/-- The dense search has what it needs. -/
def DenseReady (planner : Planner) (plan : RetrievalPlan) : Prop :=
  plan.budget.denseAllowed = true ∧ planner.denseReady.1 = true ∧
    planner.activeGeneration = .ok true

/-- The dense stage falls back to the lexical one. -/
def DenseFails (planner : Planner) (plan : RetrievalPlan) (intent : QueryIntent)
    (accessPolicy : AccessPolicy) : Prop :=
  plan.budget.denseAllowed = true ∧ (DenseReady planner plan →
    SearchFails planner plan intent accessPolicy .semantic "vector")

/-- A dense stage is not allowed, is not ready, or is the dense search. -/
theorem semanticStage_cases {harvest : DenseHarvest}
    (h : semanticStage planner plan intent accessPolicy = .ok harvest) :
    (plan.budget.denseAllowed = false ∧ harvest.items = [] ∧ harvest.status = .complete) ∨
      (plan.budget.denseAllowed = true ∧ ¬ DenseReady planner plan ∧ harvest.items = [] ∧
        harvest.status = .degraded) ∨
      (DenseReady planner plan ∧
        harvest.items =
          (searchItems planner plan intent accessPolicy .semantic "vector").1 ∧
        (harvest.status = .degraded ↔
          SearchFails planner plan intent accessPolicy .semantic "vector") ∧
        (harvest.status ≠ .degraded → harvest.status = .complete)) := by
  unfold semanticStage at h
  split_ifs at h with hallowed
  · cases h
    exact .inl ⟨hallowed, rfl, rfl⟩
  · have hallowed : plan.budget.denseAllowed = true := by simpa using hallowed
    obtain ⟨active, hactive, h⟩ := map_eq_ok.mp h
    have hactive : planner.activeGeneration = .ok active := by
      cases hgeneration : planner.activeGeneration with
      | error message =>
        rw [hgeneration] at hactive
        cases hactive
      | ok found =>
        rw [hgeneration] at hactive
        cases hactive
        rfl
    split_ifs at h with hready
    · rw [Bool.and_eq_true] at hready
      have hdense : DenseReady planner plan := ⟨hallowed, hready.1, by rw [hactive, hready.2]⟩
      refine .inr (.inr ⟨hdense, ?_⟩)
      have hfailure : (searchItems planner plan intent accessPolicy .semantic "vector").2 = none ↔
          ¬ SearchFails planner plan intent accessPolicy .semantic "vector" := searchItems_failure
      simp only at h
      split at h
      · next hnone =>
        subst h
        exact ⟨rfl, ⟨fun hdegraded => (by cases hdegraded), fun hfails =>
          absurd hfails (hfailure.mp hnone)⟩, fun _ => rfl⟩
      · next exn hsome =>
        subst h
        refine ⟨rfl, ⟨fun _ => ?_, fun _ => rfl⟩, fun hnot => absurd rfl hnot⟩
        by_contra hfails
        rw [hfailure.mpr hfails] at hsome
        cases hsome
    · subst h
      refine .inr (.inl ⟨hallowed, fun hdense => hready ?_, rfl, rfl⟩)
      have heq := hactive.symm.trans hdense.2.2
      cases heq
      rw [hdense.2.1]
      rfl

/-- The stages make an item of the source. -/
def Gathered (planner : Planner) (plan : RetrievalPlan) (intent : QueryIntent)
    (accessPolicy : AccessPolicy) (id : String) : Prop :=
  .projectState ∈ plan.stages ∧ CanonicalRead planner.stores plan intent id ∨
    ∃ hit, Collected planner plan intent accessPolicy hit ∧ hit.relPath = id

/-- The planner has to do without the project store or without the dense search. -/
def Degrades (planner : Planner) (plan : RetrievalPlan) (intent : QueryIntent)
    (accessPolicy : AccessPolicy) : Prop :=
  .projectState ∈ plan.stages ∧ OwnerMissing planner.stores intent ∨
    .semantic ∈ plan.stages ∧ DenseFails planner plan intent accessPolicy

/-- The parts of a collection. -/
theorem collect_ok {collection : Collection}
    (h : collect planner plan intent accessPolicy = .ok collection) :
    ∃ canonical lexical dense,
      (if .projectState ∈ plan.stages then canonicalStage planner.stores plan intent
        else .ok Harvest.nothing) = .ok canonical ∧
      lexical = (if .fts ∈ plan.stages then ftsStage planner plan intent accessPolicy
        else Harvest.nothing) ∧
      (if .semantic ∈ plan.stages then semanticStage planner plan intent accessPolicy
        else .ok { Harvest.nothing with attempted := false, used := false }) = .ok dense ∧
      collection.items = canonical.items ++ lexical.items ++ dense.items ∧
      collection.status =
        (if dense.status = .degraded then .degraded else canonical.status) := by
  unfold collect at h
  by_cases hcanonical : RetrievalStage.projectState ∈ plan.stages <;>
    by_cases hsemantic : RetrievalStage.semantic ∈ plan.stages <;>
    simp only [hcanonical, hsemantic, if_true, if_false] at h ⊢
  all_goals
    obtain ⟨canonical, hcanonical, h⟩ := bind_eq_ok.mp h
    obtain ⟨dense, hdense, h⟩ := bind_eq_ok.mp h
    cases h
    exact ⟨canonical, _, dense, hcanonical, rfl, hdense, rfl, rfl⟩

theorem lexical_iff {id : String} :
    (∃ entry ∈ (if .fts ∈ plan.stages then ftsStage planner plan intent accessPolicy
        else Harvest.nothing).items, entry.1.sourceId = id) ↔
      ∃ hit, CollectedBy planner plan intent accessPolicy .fts "fts" hit ∧ hit.relPath = id := by
  by_cases hstage : RetrievalStage.fts ∈ plan.stages
  · rw [if_pos hstage]
    exact exists_hit_iff hstage
  · rw [if_neg hstage]
    constructor
    · rintro ⟨entry, hentry, -⟩
      cases hentry
    · rintro ⟨hit, hcollected, -⟩
      exact absurd hcollected.1 hstage

theorem dense_iff {dense : DenseHarvest}
    (h : (if .semantic ∈ plan.stages then semanticStage planner plan intent accessPolicy
        else .ok { Harvest.nothing with attempted := false, used := false }) = .ok dense) :
    (∀ id, (∃ entry ∈ dense.items, entry.1.sourceId = id) ↔ DenseReady planner plan ∧
        ∃ hit, CollectedBy planner plan intent accessPolicy .semantic "vector" hit ∧
          hit.relPath = id) ∧
      (dense.status = .degraded ↔
        .semantic ∈ plan.stages ∧ DenseFails planner plan intent accessPolicy) := by
  by_cases hstage : RetrievalStage.semantic ∈ plan.stages
  · rw [if_pos hstage] at h
    rw [DenseFails, and_iff_right hstage]
    rcases semanticStage_cases h with
      ⟨hforbidden, hitems, hstatus⟩ | ⟨hallowed, hnot, hitems, hstatus⟩ | ⟨hdense, hitems, hstatus, -⟩
    · rw [hitems, hstatus, hforbidden, DenseReady, hforbidden]
      simp
    · rw [hitems, hstatus]
      simp [hallowed, hnot]
    · rw [hitems, hstatus, and_iff_right hdense.1]
      refine ⟨fun id => ?_, fun hfails _ => hfails, fun hfails => hfails hdense⟩
      rw [exists_hit_iff hstage, and_iff_right hdense]
  · rw [if_neg hstage] at h
    cases h
    constructor
    · intro id
      constructor
      · rintro ⟨entry, hentry, -⟩
        cases hentry
      · rintro ⟨-, hit, hcollected, -⟩
        exact absurd hcollected.1 hstage
    · constructor
      · intro hdegraded
        cases hdegraded
      · intro hfails
        exact absurd hfails.1 hstage

theorem canonical_iff {canonical : Harvest}
    (h : (if .projectState ∈ plan.stages then canonicalStage stores plan intent
      else .ok Harvest.nothing) = .ok canonical) :
    (∀ id, (∃ entry ∈ canonical.items, entry.1.sourceId = id) ↔
        .projectState ∈ plan.stages ∧ CanonicalRead stores plan intent id) ∧
      (canonical.status = .complete ↔
        ¬ (.projectState ∈ plan.stages ∧ OwnerMissing stores intent)) := by
  by_cases hstage : RetrievalStage.projectState ∈ plan.stages
  · rw [if_pos hstage] at h
    simp only [hstage, true_and]
    exact ⟨fun id => canonicalStage_items h, canonicalStage_status h⟩
  · rw [if_neg hstage] at h
    cases h
    simp [hstage, Harvest.nothing]

/-- The sources of the items of the stages. -/
theorem collect_items {collection : Collection} {id : String}
    (h : collect planner plan intent accessPolicy = .ok collection) :
    (∃ item ∈ collection.items.map Prod.fst, item.sourceId = id) ↔
      Gathered planner plan intent accessPolicy id := by
  obtain ⟨canonical, lexical, dense, hcanonical, rfl, hdense, hitems, -⟩ := collect_ok h
  have hentries : (∃ item ∈ collection.items.map Prod.fst, item.sourceId = id) ↔
      ∃ entry ∈ collection.items, entry.1.sourceId = id := by
    simp only [List.mem_map, exists_exists_and_eq_and]
  rw [hentries, hitems, exists_append_iff, exists_append_iff, (canonical_iff hcanonical).1,
    lexical_iff, (dense_iff hdense).1, Gathered, or_assoc]
  refine or_congr_right ?_
  constructor
  · rintro (⟨hit, hcollected, hid⟩ | ⟨hready, hit, hcollected, hid⟩)
    · exact ⟨hit, .inl hcollected, hid⟩
    · exact ⟨hit, .inr ⟨hready.1, hready.2.1, hready.2.2, hcollected⟩, hid⟩
  · rintro ⟨hit, hcollected | ⟨hallowed, hready, hactive, hcollected⟩, hid⟩
    · exact .inl ⟨hit, hcollected, hid⟩
    · exact .inr ⟨⟨hallowed, hready, hactive⟩, hit, hcollected, hid⟩

theorem collect_status {collection : Collection}
    (h : collect planner plan intent accessPolicy = .ok collection) :
    collection.status = .complete ↔ ¬ Degrades planner plan intent accessPolicy := by
  obtain ⟨canonical, lexical, dense, hcanonical, -, hdense, -, hstatus⟩ := collect_ok h
  rw [Degrades, not_or, ← (canonical_iff hcanonical).2, ← (dense_iff hdense).2, hstatus]
  split_ifs with hdegraded
  · simp [hdegraded]
  · simp [hdegraded]

/-! ## Nothing is lost silently -/

/-- The source stands among the candidates, or among the exclusions with a reason. -/
def Represented (result : PlannerResult) (id : String) : Prop :=
  (∃ candidate ∈ result.candidates, candidate.sourceId = id) ∨
    ∃ excluded ∈ result.excluded, excluded.sourceId = id ∧ excluded.reason ≠ ""

/-- Screening leaves a candidate or an exclusion that stands for the same source. -/
theorem screen_represents {item : ContextItem} {screened : Screened}
    (h : screen planner.files plan accessPolicy item = .ok screened) :
    (∃ candidate, screened = .kept candidate ∧ candidate.sourceId = item.sourceId) ∨
      ∃ reason, reason ≠ "" ∧ screened = .excluded ⟨item.sourceId, reason⟩ := by
  obtain ⟨scan, -, ⟨-, candidate, hkept, heq⟩ | ⟨-, hexcluded⟩⟩ := screen_ok h
  · refine .inl ⟨candidate, hkept, ?_⟩
    rw [heq, screenedItem_sourceId]
  · exact .inr hexcluded

/-- The sources that are represented are those the stages make an item of. -/
theorem represented_iff (h : retrieve planner plan intent accessPolicy = .ok result) {id : String} :
    Represented result id ↔ Gathered planner plan intent accessPolicy id := by
  obtain ⟨collection, kept, screened, hcollect, hkept, hscreened, hcandidates, hexcluded, -⟩ :=
    retrieve_ok h
  rw [← collect_items hcollect]
  constructor
  · intro hrepresented
    have hitem : ∃ item ∈ kept, item.sourceId = id := by
      rcases hrepresented with ⟨candidate, hcandidate, hid⟩ | ⟨excluded, hmem, hid, -⟩
      · obtain ⟨outcome, houtcome, hkeep⟩ :=
          List.mem_filterMap.mp ((hcandidates candidate).mp hcandidate)
        obtain ⟨item, hitem, hscreen⟩ := mem_of_mapM hscreened houtcome
        rcases screen_represents hscreen with ⟨other, rfl, hother⟩ | ⟨reason, -, rfl⟩
        · cases hkeep
          exact ⟨item, hitem, hother.symm.trans hid⟩
        · cases hkeep
      · rw [hexcluded] at hmem
        obtain ⟨outcome, houtcome, hexclude⟩ := List.mem_filterMap.mp hmem
        obtain ⟨item, hitem, hscreen⟩ := mem_of_mapM hscreened houtcome
        rcases screen_represents hscreen with ⟨other, rfl, hother⟩ | ⟨reason, -, rfl⟩
        · cases hexclude
        · cases hexclude
          exact ⟨item, hitem, hid⟩
    obtain ⟨item, hitem, hid⟩ := hitem
    obtain ⟨source, hsource, hsame⟩ := same_of_kept hkept hitem
    exact ⟨source, hsource, hsame.sourceId.symm.trans hid⟩
  · rintro ⟨source, hsource, hid⟩
    obtain ⟨item, hitem, hsame⟩ := kept_of_collected hkept hsource
    obtain ⟨outcome, houtcome, hscreen⟩ := exists_of_mapM hscreened hitem
    rcases screen_represents hscreen with ⟨candidate, rfl, hother⟩ | ⟨reason, hreason, rfl⟩
    · refine .inl ⟨candidate, (hcandidates candidate).mpr ?_, hother.trans (hsame.trans hid)⟩
      exact List.mem_filterMap.mpr ⟨_, houtcome, rfl⟩
    · refine .inr ⟨⟨item.sourceId, reason⟩, ?_, hsame.trans hid, hreason⟩
      rw [hexcluded]
      exact List.mem_filterMap.mpr ⟨_, houtcome, rfl⟩

/-- A search of the stages returned the result. -/
def SearchedBy (planner : Planner) (plan : RetrievalPlan) (intent : QueryIntent)
    (accessPolicy : AccessPolicy) (stage : RetrievalStage) (mode : String) (hit : Hit) : Prop :=
  stage ∈ plan.stages ∧
    ∃ hits, planner.search intent.query plan.budget.maxCandidates mode plan.scope accessPolicy =
      .ok hits ∧ hit ∈ hits

/-- The lexical or the dense search returned the result. -/
def Searched (planner : Planner) (plan : RetrievalPlan) (intent : QueryIntent)
    (accessPolicy : AccessPolicy) (hit : Hit) : Prop :=
  SearchedBy planner plan intent accessPolicy .fts "fts" hit ∨
    DenseReady planner plan ∧ SearchedBy planner plan intent accessPolicy .semantic "vector" hit

/-- A record of the stores whose owner the query consults, and that it admits by itself, through
a record bound to it, or as a project. -/
inductive Eligible (stores : Stores) (plan : RetrievalPlan) (intent : QueryIntent) :
    String → Prop where
  | own {owner : Owner} {record : CanonicalRecord} : owner ∈ canonicalOwners intent.intent →
      record ∈ stores.records owner → Admits stores plan intent owner record → Eligible stores plan intent record.sourceId
  | related {binder owner : Owner} {record other : CanonicalRecord} :
      bindings intent.intent = some (binder, owner) →
      record ∈ stores.records owner → Shares stores plan intent owner record →
      other ∈ stores.records binder → Admits stores plan intent binder other →
      Binds binder other record → Eligible stores plan intent record.sourceId
  | project {store : ProjectStore} {projectId : String} {summary : ProjectSummary} :
      .project ∈ canonicalOwners intent.intent →
      stores.projects = some store → projectId ∈ store.projectIds →
      AdmitsProject store intent projectId summary →
      Eligible stores plan intent (projectSource projectId)

/-- A retrieval that is complete represents every search result and every eligible record. -/
structure LosesNothing (planner : Planner) (plan : RetrievalPlan) (intent : QueryIntent)
    (accessPolicy : AccessPolicy) (result : PlannerResult) : Prop where
  hits : result.retrievalStatus = .complete →
    ∀ hit, Searched planner plan intent accessPolicy hit → Represented result hit.relPath
  records : result.retrievalStatus = .complete → .projectState ∈ plan.stages →
    ∀ id, Eligible planner.stores plan intent id → Represented result id

/-- No result and no record stands behind the end of its loop alone. -/
structure LoopsReach (planner : Planner) (plan : RetrievalPlan) (intent : QueryIntent)
    (accessPolicy : AccessPolicy) : Prop where
  hits : ∀ hit, Searched planner plan intent accessPolicy hit →
    Gathered planner plan intent accessPolicy hit.relPath
  records : .projectState ∈ plan.stages → ∀ id, Eligible planner.stores plan intent id →
    Gathered planner plan intent accessPolicy id

/-- Nothing is lost silently exactly when the planner has to degrade the retrieval, or every
search result and every eligible record has a source that a stage comes to before its loop ends. -/
theorem losesNothing_iff (h : retrieve planner plan intent accessPolicy = .ok result) :
    LosesNothing planner plan intent accessPolicy result ↔
      Degrades planner plan intent accessPolicy ∨
        LoopsReach planner plan intent accessPolicy := by
  obtain ⟨collection, kept, screened, hcollect, -, -, -, -, hstatus⟩ := retrieve_ok h
  have hcomplete : result.retrievalStatus = .complete ↔
      ¬ Degrades planner plan intent accessPolicy := by
    rw [hstatus]
    exact collect_status hcollect
  constructor
  · intro hloses
    by_cases hdegrades : Degrades planner plan intent accessPolicy
    · exact .inl hdegrades
    · have hcomplete := hcomplete.mpr hdegrades
      refine .inr ⟨fun hit hsearched => ?_, fun hstage id heligible => ?_⟩
      · exact (represented_iff h).mp (hloses.hits hcomplete hit hsearched)
      · exact (represented_iff h).mp (hloses.records hcomplete hstage id heligible)
  · rintro (hdegrades | hreach)
    · exact ⟨fun hok => absurd hdegrades (hcomplete.mp hok),
        fun hok => absurd hdegrades (hcomplete.mp hok)⟩
    · refine ⟨fun _ hit hsearched => ?_, fun _ hstage id heligible => ?_⟩
      · exact (represented_iff h).mpr (hreach.hits hit hsearched)
      · exact (represented_iff h).mpr (hreach.records hstage id heligible)

end

/-! ## A path with a blank -/

attribute [local instance] PythonText.ascii PythonWord.asciiOnly PythonYaml.quarantineTag
  PythonMath.identity

/-- A result whose path is no identifier. -/
def blankHit : Hit := ⟨"notes/b c.md", plainNote, "", .finite 1⟩

def blankPlanner : Planner := lexicalPlanner (oneNote "notes/b.md" plainNote) [blankHit, plainHit]

/-- The only search result is an ordinary note. -/
theorem losesNothing_plain : ∃ result,
    retrieve plainPlanner fastPlan (lookupIntent "deploy") rawCaller = .ok result ∧
    LosesNothing plainPlanner fastPlan (lookupIntent "deploy") rawCaller result := by
  obtain ⟨result, hresult⟩ := exists_of_isOk retrieve_plain
  refine ⟨result, hresult, (losesNothing_iff hresult).mpr (.inr ⟨?_, ?_⟩)⟩
  · have hitem : (noteItem plainPlanner.files fastPlan .fts plainHit).isOk = true := by
      decide +kernel
    rintro hit (⟨-, hits, hsearch, hmem⟩ | ⟨hready, -⟩)
    · cases hsearch
      rw [List.mem_singleton.mp hmem]
      exact .inr ⟨plainHit, .inl ⟨by decide, [plainHit], rfl, ⟨[], [], rfl, by simp⟩,
        exists_of_isOk hitem⟩, rfl⟩
    · cases hready.1
  · rintro - id (⟨howner, -⟩ | ⟨hbindings, -⟩ | ⟨howner, -⟩)
    · cases howner
    · cases hbindings
    · cases howner

/-- A result behind one with a blank in its path is lost, and the retrieval is complete. -/
theorem losesNothing_blank : ∃ result,
    retrieve blankPlanner fastPlan (lookupIntent "deploy") rawCaller = .ok result ∧
    ¬ LosesNothing blankPlanner fastPlan (lookupIntent "deploy") rawCaller result := by
  have hrun : ((retrieve blankPlanner fastPlan (lookupIntent "deploy") rawCaller).toOption.map
      fun result => (result.retrievalStatus,
        result.candidates.map (fun item => item.sourceId) ++
          result.excluded.map fun item => item.sourceId)) = some (.complete, []) := by
    decide +kernel
  obtain ⟨result, hresult, hrun⟩ := Option.map_eq_some_iff.mp hrun
  obtain ⟨hstatus, hsources⟩ := Prod.mk.inj hrun
  refine ⟨result, toOption_eq_some.mp hresult, fun hloses => ?_⟩
  have hsearched : Searched blankPlanner fastPlan (lookupIntent "deploy") rawCaller plainHit :=
    .inl ⟨by decide, [blankHit, plainHit], rfl, by simp⟩
  have hnone := List.append_eq_nil_iff.mp hsources
  rcases hloses.hits hstatus plainHit hsearched with ⟨candidate, hmem, -⟩ | ⟨excluded, hmem, -⟩
  · rw [List.map_eq_nil_iff.mp hnone.1] at hmem
    cases hmem
  · rw [List.map_eq_nil_iff.mp hnone.2] at hmem
    cases hmem

end PowerFramework.Retrieval
