import Mathlib.Data.Rat.Floor
import PowerFramework.Lib.Loop
import PowerFramework.Retrieval.Inspection
/-!
# Canonical records

Which records of the task, decision and project stores a query admits, and the reader that turns
them into context items.
-/

namespace PowerFramework.Retrieval

open Lib Lib.Failure Lib.Json Lib.Loop State

/-- `math.log1p` on natural numbers. -/
class PythonMath where
  log1p : Nat → ℚ

/-! ## Eligibility -/

section
variable [PythonText] [PythonWord] [PythonMath]

/-- `_TOKEN_RE.findall(text)` -/
def words (text : List Char) : List (List Char) :=
  (text.splitOnP fun c => !PythonWord.isWord c).filter (· ≠ [])

/-- `_eligibility_tokens` -/
def eligibilityTokens (text : String) : List String :=
  ((words (PythonText.casefold text).toList).flatMap fun raw =>
    (raw.splitOn '_').filter (2 ≤ ·.length)).map String.ofList

/-- `_meaningful_tokens` -/
def meaningfulTokens (text : String) : List String :=
  (eligibilityTokens text).filter (3 ≤ ·.length)

/-- `_PROJECT_TOPICAL_TOKENS` -/
def projectTopicalTokens : List String := ["project", "phase", "state", "status", "проєкт",
  "проект", "проєкту", "проекту", "фаза", "фази", "фазу", "стан", "статус"]

/-- `_CanonicalEligibility` -/
structure CanonicalEligibility where
  eligibleStrong : Bool
  eligibleWeak : Bool
  relevance : ℚ
  matched : List String
  deriving DecidableEq, Repr

def CanonicalEligibility.none : CanonicalEligibility := ⟨false, false, 0, []⟩

/-- `round(x, 4)`, ties aside. -/
def round4 (x : ℚ) : ℚ := (⌊x * 10000 + 1 / 2⌋ : ℚ) / 10000

/-- The positions of the matched tokens. -/
def positions (textTokens matched : List String) : List Nat :=
  (textTokens.zipIdx.filter fun entry => decide (entry.1 ∈ matched)).map Prod.snd

/-- `max(positions) - min(positions)` -/
def span (positions : List Nat) : Nat :=
  positions.foldl max 0 - (positions.head?.map fun first => positions.foldl min first).getD 0

/-- The relevance of a record in which several tokens of the query occur. -/
def proximityRelevance (textTokens matched : List String) : ℚ :=
  let span := span (positions textTokens matched)
  let proximity : ℚ :=
    if span ≤ 20 then 15 / 100 * (1 - PythonMath.log1p span / PythonMath.log1p 20) else 0
  round4 (min (55 / 100 + 5 / 100 * min (matched.length - 2) 3 + proximity) (9 / 10))

/-- `_canonical_eligibility` -/
def canonicalEligibility (query objectId matchText : String) : CanonicalEligibility :=
  let q := stripText (PythonText.casefold query)
  let oid := PythonText.casefold objectId
  let text := PythonText.casefold matchText
  let textTokens := eligibilityTokens matchText
  let matched := sortedSet ((meaningfulTokens query).filter (· ∈ textTokens))
  let queryTokens := eligibilityTokens query
  if q = "" ∨ oid = "" then .none
  else if 3 ≤ oid.length ∧ (Search.isWithin oid q ∨ q = oid ∨
      4 ≤ q.length ∧ Search.isWithin q oid) then
    ⟨true, true, 95 / 100, if matched = [] then [oid] else matched⟩
  else if 6 ≤ q.length ∧ Search.isWithin q text then ⟨true, true, 8 / 10, matched⟩
  else if (queryTokens.zip queryTokens.tail).any
      (fun pair => Search.isWithin (pair.1 ++ " " ++ pair.2) text) then
    ⟨true, true, 8 / 10, matched⟩
  else if 2 ≤ matched.length then ⟨true, true, proximityRelevance textTokens matched, matched⟩
  else if matched.length = 1 then ⟨false, true, 4 / 10, matched⟩
  else .none

/-- `_scoped_object_ids` -/
def scopedObjectIds (query : String) (objectIds : List String) : Option (List String) :=
  let named := objectIds.filter fun oid =>
    3 ≤ oid.length && Search.isWithin (PythonText.casefold oid) (PythonText.casefold query)
  if named = [] then .none else some named

/-- `named is None or object_id in named` -/
def inScope (named : Option (List String)) (objectId : String) : Bool :=
  named.all fun ids => decide (objectId ∈ ids)

end

/-! ## Owners -/

inductive Owner where
  | task | decision | project
  deriving DecidableEq, Repr

/-- `_CANONICAL_OWNERS_BY_INTENT` -/
def canonicalOwners : QueryIntentKind → List Owner
  | .projectState => [.project, .task, .decision]
  | .decision => [.decision, .task]
  | .task => [.task, .decision]
  | .governance => [.project, .decision, .task]
  | _ => []

/-- `_PRIMARY_OWNER_BY_INTENT` -/
def primaryOwner : QueryIntentKind → Option Owner
  | .projectState => some .project
  | .decision => some .decision
  | .task => some .task
  | _ => none

/-- `_AUTHORITY_SENSITIVE_INTENTS` -/
def authoritySensitive : QueryIntentKind → Bool
  | .projectState | .decision | .task | .governance => true
  | _ => false

/-- `query_intent.intent.value` -/
def QueryIntentKind.value : QueryIntentKind → String
  | .lookup => "lookup"
  | .projectState => "project_state"
  | .decision => "decision"
  | .task => "task"
  | .code => "code"
  | .infrastructure => "infrastructure"
  | .research => "research"
  | .governance => "governance"
  | .conversation => "conversation"
  | .log => "log"
  | .crossDomain => "cross_domain"
  | .unknown => "unknown"

/-! ## Records -/

/-- What the reader makes of a record of a store. -/
structure CanonicalRecord where
  objectId : String
  owner : Owner
  /-- The task a decision is bound to. -/
  taskId : String
  matchText : String
  itemText : String
  revision : String
  deriving DecidableEq, Repr

/-- `PowerTask` as far as it is read. -/
structure PowerTask where
  taskId : String
  title : String
  objective : String
  state : String
  deriving DecidableEq, Repr

def PowerTask.record (self : PowerTask) : CanonicalRecord where
  objectId := self.taskId
  owner := .task
  taskId := self.taskId
  matchText := self.taskId ++ " " ++ self.title ++ " " ++ self.objective ++ " " ++ self.state
  itemText := "Task: " ++ self.title ++ "\nID: " ++ self.taskId ++ "\nState: " ++ self.state ++
    "\nObjective: " ++ self.objective
  revision := self.taskId

/-- `Decision` as far as it is read. -/
structure Decision where
  decisionId : String
  taskId : String
  title : String
  description : String
  status : String
  deriving DecidableEq, Repr

def Decision.record (self : Decision) : CanonicalRecord where
  objectId := self.decisionId
  owner := .decision
  taskId := self.taskId
  matchText := self.decisionId ++ " " ++ self.title ++ " " ++ self.description ++ " " ++ self.status
  itemText := "Decision: " ++ self.title ++ "\nID: " ++ self.decisionId ++ "\nStatus: " ++
    self.status ++ "\nDescription: " ++ self.description
  revision := self.decisionId

/-- The domain of the items of a store. -/
def Owner.label : Owner → String
  | .task => "tasks"
  | .decision => "decisions"
  | .project => "project-state"

/-- `source_id` -/
def CanonicalRecord.sourceId (self : CanonicalRecord) : String :=
  match self.owner with
  | .task => "task:" ++ self.objectId
  | .decision => "decision:" ++ self.objectId
  | .project => "project:" ++ self.objectId

/-- `source_type` -/
def Owner.sourceType : Owner → String
  | .task => "canonical_task"
  | .decision => "canonical_decision"
  | .project => "canonical_project"

/-- The only source reference. -/
def CanonicalRecord.sourceRef (self : CanonicalRecord) : String :=
  match self.owner with
  | .task => "tasks/" ++ self.objectId ++ ".json"
  | .decision => "decisions/" ++ self.objectId ++ ".json"
  | .project => ".power/projects/" ++ self.objectId ++ "/events.jsonl"

/-- `_deterministic_token_cost` -/
def deterministicTokenCost (text : String) : Nat :=
  if text = "" then 0 else max 1 ((text.utf8ByteSize + 3) / 4)

/-- The domains of a canonical item. -/
def canonicalDomains (plan : RetrievalPlan) (owner : Owner) : List String :=
  owner.label :: (plan.domainMatches.head?.map fun first => first.domain).toList

/-- The arguments of the `ContextItem` of a record. -/
def CanonicalRecord.evidence (self : CanonicalRecord) (plan : RetrievalPlan) (score : ℚ) :
    Evidence where
  sourceId := self.sourceId
  sourceType := self.owner.sourceType
  authority := .canonical
  trustState := .canonical
  domain := self.owner.label
  domains := canonicalDomains plan self.owner
  score := score
  retrievalStage := .projectState
  provenance := ⟨[self.sourceRef], self.revision, .canonicalLedger⟩
  freshness := .current
  contradictionState := .none
  noiseState := .clean
  tokenCost := deterministicTokenCost self.itemText
  excerpt := self.itemText
  contentKind := .excerpt
  redactionStatus := .verifiedSafe

/-! ## Stores -/

/-- A store of tasks: its tasks in the order they are listed, or why listing them fails. -/
structure TaskStore where
  tasks : List PowerTask
  failure : Option Exn

/-- `TaskService.list_tasks(limit=limit)` -/
def TaskStore.listTasks (self : TaskStore) (limit : Nat) : Except Exn (List PowerTask) :=
  match self.failure with
  | some exn => .error exn
  | none => .ok (self.tasks.take limit)

/-- A store of decisions. -/
structure DecisionStore where
  decisions : List Decision
  failure : Option Exn

/-- `DecisionService.list_decisions(limit=limit)` -/
def DecisionStore.listDecisions (self : DecisionStore) (limit : Nat) : Except Exn (List Decision) :=
  if ¬ (1 ≤ limit ∧ limit ≤ 500) then
    .error (valueError "decision limit must be between 1 and 500")
  else match self.failure with
    | some exn => .error exn
    | none => .ok (self.decisions.take limit)

/-- `ProjectState` as far as it is read. -/
structure ProjectSummary where
  currentPhase : String
  owner : Option String
  activeTasks : List String
  readyTasks : List String
  blockedTasks : List String
  validDecisions : List String
  stateRevision : String
  deriving DecidableEq, Repr

/-- `ProjectStateService`: its projects, or why they cannot be enumerated, and what reading the
ledger of a project comes to. -/
structure ProjectStore where
  projectIds : List String
  failure : Option Exn
  rebuildProjectState : String → Except Exn ProjectSummary
  ledgerHead : String → Except Exn (Nat × String)

/-- `ProjectStateService.list_project_ids()` -/
def ProjectStore.listProjectIds (self : ProjectStore) : Except Exn (List String) :=
  match self.failure with
  | some exn => .error exn
  | none => .ok self.projectIds

/-- The status the planner was given for the project service. -/
inductive ServiceStatus where
  | available | unavailable | degraded | failed
  deriving DecidableEq, Repr

/-- `self._project_state_status` -/
def ServiceStatus.text : ServiceStatus → String
  | .available => "AVAILABLE"
  | .unavailable => "UNAVAILABLE"
  | .degraded => "DEGRADED"
  | .failed => "FAILED"

/-- The stores a planner reads. -/
structure Stores where
  tasks : Option TaskStore
  decisions : Option DecisionStore
  projects : Option ProjectStore
  projectStatus : ServiceStatus
  projectReason : String

/-! ## Reading a store -/

section
variable [PythonText]

/-- What reading one store came to: the records that were listed, those it came to, those of them
it admitted, the items with their revisions, and the exception that ended it. -/
structure StoreReading where
  listed : List CanonicalRecord
  registered : List CanonicalRecord
  admitted : List CanonicalRecord
  items : List (ContextItem × String)
  failure : Option Exn

def StoreReading.nothing : StoreReading := ⟨[], [], [], [], none⟩

variable [PythonWord] [PythonMath]

/-- The eligibility of a record for the query. -/
def CanonicalRecord.eligibility (self : CanonicalRecord) (query : String) : CanonicalEligibility :=
  canonicalEligibility query self.objectId self.matchText

/-- The record is admitted by its own evidence. -/
def CanonicalRecord.admissible (self : CanonicalRecord) (intent : QueryIntent)
    (named : Option (List String)) : Bool :=
  inScope named self.objectId &&
    (primaryOwner intent.intent = some self.owner && (self.eligibility intent.query).eligibleWeak ||
      (self.eligibility intent.query).eligibleStrong)

/-- One turn of the loop over the records of a store. -/
def readRecord (plan : RetrievalPlan) (intent : QueryIntent) (named : Option (List String))
    (record : CanonicalRecord) : Except Exn (Option ContextItem) :=
  if record.admissible intent named then
    (contextItem (record.evidence plan (record.eligibility intent.query).relevance)).map some
  else .ok none

/-- The ids of the records the query is restricted to. -/
def scopedRecords (intent : QueryIntent) (records : List CanonicalRecord) : Option (List String) :=
  scopedObjectIds intent.query (records.map CanonicalRecord.objectId)

/-- The loop over the records of a store. -/
def readRecords (plan : RetrievalPlan) (intent : QueryIntent) (records : List CanonicalRecord) :
    StoreReading :=
  let read := readRecord plan intent (scopedRecords intent records)
  let registered := reached read records
  let results := untilFailure read records
  { listed := records
    registered := registered
    admitted := registered.filter fun record =>
      record.admissible intent (scopedRecords intent records)
    items := results.1.filterMap fun entry => entry.2.map fun item => (item, entry.1.revision)
    failure := results.2.map Prod.snd }

/-- A store whose records could be listed, or not. -/
def readListing (plan : RetrievalPlan) (intent : QueryIntent)
    (listing : Except Exn (List CanonicalRecord)) : StoreReading :=
  match listing with
  | .error exn => ⟨[], [], [], [], some exn⟩
  | .ok records => readRecords plan intent records

/-- The task store. -/
def readTasks (stores : Stores) (plan : RetrievalPlan) (intent : QueryIntent) : StoreReading :=
  match stores.tasks with
  | some store =>
      if .task ∈ canonicalOwners intent.intent then
        readListing plan intent
          ((store.listTasks plan.budget.maxCandidates).map (List.map PowerTask.record))
      else .nothing
  | none => .nothing

/-- The decision store. -/
def readDecisions (stores : Stores) (plan : RetrievalPlan) (intent : QueryIntent) : StoreReading :=
  match stores.decisions with
  | some store =>
      if .decision ∈ canonicalOwners intent.intent then
        readListing plan intent
          ((store.listDecisions plan.budget.maxCandidates).map (List.map Decision.record))
      else .nothing
  | none => .nothing

/-! ## Related records -/

/-- A record of the reading that is not admitted by itself, but shares words with the query. -/
def StoreReading.akin (self : StoreReading) (intent : QueryIntent) (record : CanonicalRecord) :
    Bool :=
  decide (record.objectId ∉ self.admitted.map CanonicalRecord.objectId) &&
    inScope (scopedRecords intent self.listed) record.objectId &&
    !(record.eligibility intent.query).matched.isEmpty

/-- The records that a record of the other store binds to the query. -/
def relatedRecords (intent : QueryIntent) (tasks decisions : StoreReading) :
    List CanonicalRecord :=
  match intent.intent with
  | .task => decisions.registered.filter fun record => decisions.akin intent record &&
      decide (record.taskId ∈ tasks.admitted.map CanonicalRecord.objectId)
  | .decision => tasks.registered.filter fun record => tasks.akin intent record &&
      decide (record.objectId ∈ decisions.admitted.map CanonicalRecord.taskId)
  | _ => []

/-- The items of the related records; here an exception is not caught. -/
def relatedItems (plan : RetrievalPlan) (intent : QueryIntent) (tasks decisions : StoreReading) :
    Except Exn (List (ContextItem × String)) :=
  (relatedRecords intent tasks decisions).mapM fun record =>
    (contextItem (record.evidence plan (4 / 10))).map fun item => (item, record.revision)

/-! ## Projects -/

/-- `p_members` -/
def ProjectSummary.members (self : ProjectSummary) : String :=
  " ".intercalate (sortedSet (self.activeTasks ++ self.readyTasks ++ self.blockedTasks ++
    self.validDecisions))

/-- The record of a project; `ProjectState` has no status. -/
def ProjectSummary.record (self : ProjectSummary) (projectId revision : String) :
    CanonicalRecord where
  objectId := projectId
  owner := .project
  taskId := ""
  matchText := projectId ++ " " ++ self.currentPhase ++ " " ++ self.owner.getD "" ++ " " ++
    self.members
  itemText := "Project: " ++ projectId ++ "\nStatus: active\nPhase: " ++
    if self.currentPhase = "" then "current" else self.currentPhase
  revision := revision

/-- Nothing in the query points to the project or to projects at all. -/
def offTopic (intent : QueryIntent) (named : Option (List String)) (projectId : String) : Bool :=
  let meaningful := meaningfulTokens intent.query
  named.isNone && !meaningful.isEmpty && primaryOwner intent.intent ≠ some .project &&
    !meaningful.any (fun token => decide (token ∈ projectTopicalTokens)) &&
    !meaningful.any (fun token => decide (token ∈ meaningfulTokens projectId))

/-- The state of a project that the query admits. -/
def projectAdmission (store : ProjectStore) (intent : QueryIntent) (named : Option (List String))
    (projectId : String) : Except Exn (Option ProjectSummary) :=
  if inScope named projectId = false ∨ offTopic intent named projectId = true then .ok none
  else (store.rebuildProjectState projectId).map fun summary =>
    if (summary.record projectId "").admissible intent none then some summary else none

/-- The revision of the state, or the head of the ledger. -/
def projectRevision (store : ProjectStore) (projectId : String) (summary : ProjectSummary) :
    String :=
  let revision := stripText summary.stateRevision
  if revision ≠ "" then revision
  else match store.ledgerHead projectId with
    | .ok (_, head) => stripText head
    | .error _ => ""

/-- The item of a project that the query admits, with its revision; without a revision there is
none. -/
def projectItem (store : ProjectStore) (plan : RetrievalPlan) (intent : QueryIntent)
    (projectId : String) (summary : ProjectSummary) : Except Exn (Option (ContextItem × String)) :=
  let revision := projectRevision store projectId summary
  if revision = "" then .ok none
  else
    let record := summary.record projectId revision
    (contextItem (record.evidence plan (record.eligibility intent.query).relevance)).map
      fun item => some (item, revision)

/-- What reading one project came to. -/
structure ProjectReading where
  found : Bool
  item : Option (ContextItem × String)
  decisions : List String

/-- One turn of the loop over the projects. -/
def readProject (store : ProjectStore) (plan : RetrievalPlan) (intent : QueryIntent)
    (named : Option (List String)) (projectId : String) : ProjectReading :=
  let skipped (exn : Exn) := ["Project state read skipped for " ++ projectId ++ ": " ++ exn.kind]
  match projectAdmission store intent named projectId with
  | .error exn => ⟨false, none, skipped exn⟩
  | .ok none => ⟨false, none, []⟩
  | .ok (some summary) =>
      match projectItem store plan intent projectId summary with
      | .error exn => ⟨true, none, skipped exn⟩
      | .ok none =>
          ⟨true, none, ["Project state revision unavailable for " ++ projectId ++ "; skipped"]⟩
      | .ok (some item) => ⟨true, some item, []⟩

/-- The project store. -/
def readProjects (store : ProjectStore) (plan : RetrievalPlan) (intent : QueryIntent) :
    List ProjectReading × List String :=
  match store.listProjectIds with
  | .error exn => ([], ["Project state enumeration skipped: " ++ exn.kind])
  | .ok projectIds =>
      ((projectIds.mergeSort).map
        (readProject store plan intent (scopedObjectIds intent.query projectIds)), [])

/-! ## The stage -/

/-- `retrieval_status`; the planner never sets `partial`. -/
inductive RetrievalStatus where
  | complete | partially | degraded | failed
  deriving DecidableEq, Repr

/-- What a stage adds to the retrieval. -/
structure Harvest where
  items : List (ContextItem × String)
  decisions : List String
  status : RetrievalStatus
  fallbackReason : String

def Harvest.nothing : Harvest := ⟨[], [], .complete, ""⟩

/-- The note on an exception that ended the reading of a store. -/
def skippedStore (name : String) (reading : StoreReading) : List String :=
  (reading.failure.map fun exn => name ++ " canonical read skipped: " ++ exn.kind).toList

/-- `owner_reason` -/
def ownerReason (stores : Stores) : String :=
  stripText ("canonical owner unavailable: ProjectStateService " ++ stores.projectStatus.text ++
    ": " ++ stores.projectReason)

/-- The project part of the stage: its readings, its notes, and whether the owner is missing. -/
def projectPart (stores : Stores) (plan : RetrievalPlan) (intent : QueryIntent) :
    List ProjectReading × List String × Bool :=
  if .project ∈ canonicalOwners intent.intent then
    match stores.projects with
    | some store =>
        if stores.projectStatus = .available then
          let readings := readProjects store plan intent
          (readings.1, readings.2 ++ readings.1.flatMap ProjectReading.decisions, false)
        else ([], [], authoritySensitive intent.intent)
    | none => ([], [], authoritySensitive intent.intent)
  else ([], [], false)

/-- The canonical stage. -/
def canonicalStage (stores : Stores) (plan : RetrievalPlan) (intent : QueryIntent) :
    Except Exn Harvest := do
  let tasks := readTasks stores plan intent
  let decisions := readDecisions stores plan intent
  let related ← relatedItems plan intent tasks decisions
  let projects := projectPart stores plan intent
  let found := !tasks.admitted.isEmpty || !decisions.admitted.isEmpty || !related.isEmpty ||
    projects.1.any ProjectReading.found
  return { items := tasks.items ++ decisions.items ++ related ++
             projects.1.filterMap ProjectReading.item
           decisions := (if canonicalOwners intent.intent = [] then
               ["No canonical owners consulted for non-authority intent " ++
                 intent.intent.value ++ "; relevance-ranked evidence only."] else []) ++
             skippedStore "Task" tasks ++ skippedStore "Decision" decisions ++ projects.2.1 ++
             (if projects.2.2 then [ownerReason stores] else []) ++
             (if found then
               ["Retrieved canonical ledger records with Authority.CANONICAL priority."] else [])
           status := if projects.2.2 then .degraded else .complete
           fallbackReason := if projects.2.2 then ownerReason stores else "" }

end

end PowerFramework.Retrieval
