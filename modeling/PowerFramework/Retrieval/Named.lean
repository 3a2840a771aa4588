import PowerFramework.Retrieval.Losses
/-!
# Records the query names

A record whose id occurs in the query is eligible for it, and whether it is retrieved depends on
the place it has in the listing of its store.
-/

namespace PowerFramework.Retrieval

open Lib Lib.Failure Lib.Json Lib.Loop Lib.Text State Search

set_option linter.unusedSectionVars false

/-! ## Names in a query -/

/-- `str.casefold` goes character by character, and only lowers the ASCII letters. -/
class LawfulCasefold [PythonText] : Prop where
  charwise : ∃ fold : Char → List Char,
    (∀ text, (PythonText.casefold text).toList = text.toList.flatMap fold) ∧
      ∀ c : Char, c.toNat < 128 → fold c = [c.toLower]

/-- The query names the record by its id, which has the characters an id may have. -/
structure Named (intent : QueryIntent) (record : CanonicalRecord) : Prop where
  long : 3 ≤ record.objectId.length
  chars : ∀ c ∈ record.objectId.toList, isTokenChar c = true ∨ c = ':'
  mentioned : isWithin record.objectId intent.query = true

/-- The characters of ids are ASCII and, also in lower case, no whitespace. -/
theorem idChar_facts {c : Char} (h : isTokenChar c = true ∨ c = ':') :
    c.toNat < 128 ∧ Ledger.isPySpace c.toLower = false := by
  have hascii : c.toNat < 128 := by
    rcases h with h | rfl
    · simp only [isTokenChar, isAlnum, isDigit, isUpper, isLower, Bool.or_eq_true,
        Bool.and_eq_true, decide_eq_true_eq, beq_iff_eq] at h
      rcases h with ((((h | h) | h) | rfl) | rfl) | rfl
      · omega
      · omega
      · omega
      · decide
      · decide
      · decide
    · decide
  have hall : ∀ n < 128, isTokenChar (Char.ofNat n) = true ∨ Char.ofNat n = ':' →
      Ledger.isPySpace (Char.ofNat n).toLower = false := by
    decide
  have hspace := hall c.toNat hascii
  rw [Char.ofNat_toNat] at hspace
  exact ⟨hascii, hspace h⟩

theorem infix_dropWhile {p : Char → Bool} {word text : List Char} (hword : ∀ c ∈ word, p c = false)
    (h : word <:+: text) : word <:+: text.dropWhile p := by
  obtain ⟨front, back, rfl⟩ := h
  induction front with
  | nil =>
    cases word with
    | nil => exact List.nil_infix
    | cons c word =>
      rw [List.nil_append, List.cons_append, List.dropWhile_cons_of_neg]
      · exact ⟨[], back, rfl⟩
      · rw [hword c List.mem_cons_self]
        exact Bool.false_ne_true
  | cons c front ih =>
    rw [List.cons_append, List.cons_append, List.dropWhile_cons]
    split
    · exact ih
    · exact ⟨c :: front, back, rfl⟩

/-- Stripping a text leaves the words in it. -/
theorem infix_strip {word text : List Char} (hword : ∀ c ∈ word, Ledger.isPySpace c = false)
    (h : word <:+: text) : word <:+: Ledger.strip text := by
  have hfront := infix_dropWhile hword h
  unfold Ledger.strip List.rdropWhile
  rw [← List.reverse_infix, List.reverse_reverse]
  refine infix_dropWhile (fun c hc => hword c (List.mem_reverse.mp hc)) ?_
  exact List.reverse_infix.mpr hfront

section
variable [PythonText] [LawfulCasefold] {intent : QueryIntent} {record : CanonicalRecord}

/-- An id keeps its length when it is folded, and has no whitespace then. -/
theorem casefold_id {id : String} (hchars : ∀ c ∈ id.toList, isTokenChar c = true ∨ c = ':') :
    (PythonText.casefold id).toList = id.toList.map Char.toLower := by
  obtain ⟨fold, hfold, hascii⟩ := LawfulCasefold.charwise
  rw [hfold, List.map_eq_flatMap]
  exact List.flatMap_congr fun c hc => hascii c (idChar_facts (hchars c hc)).1

theorem isWithin_casefold {part text : String} (h : isWithin part text = true) :
    isWithin (PythonText.casefold part) (PythonText.casefold text) = true := by
  obtain ⟨fold, hfold, -⟩ := LawfulCasefold.charwise
  have hinfix : part.toList <:+: text.toList := of_decide_eq_true h
  refine decide_eq_true ?_
  rw [hfold, hfold]
  exact hinfix.flatMap fold

/-- The folded id of a named record stands in the folded query, without its edges too. -/
theorem mentioned_folded (h : Named intent record) :
    3 ≤ (PythonText.casefold record.objectId).length ∧
      isWithin (PythonText.casefold record.objectId) (PythonText.casefold intent.query) = true ∧
      isWithin (PythonText.casefold record.objectId)
        (stripText (PythonText.casefold intent.query)) = true := by
  have hfold := casefold_id h.chars
  have hwithin := isWithin_casefold h.mentioned
  refine ⟨?_, hwithin, decide_eq_true ?_⟩
  · rw [← String.length_toList, hfold, List.length_map, String.length_toList]
    exact h.long
  · rw [stripText, String.toList_ofList]
    refine infix_strip ?_ (of_decide_eq_true hwithin)
    intro c hc
    rw [hfold] at hc
    obtain ⟨d, hd, rfl⟩ := List.mem_map.mp hc
    exact (idChar_facts (h.chars d hd)).2

theorem ne_empty_of_isWithin {part text : String} (hpart : part ≠ "")
    (h : isWithin part text = true) : text ≠ "" := by
  rintro rfl
  have hinfix : part.toList <:+: [] := of_decide_eq_true h
  have hnil : part.toList = [] := List.eq_nil_of_infix_nil hinfix
  exact hpart (String.toList_eq_nil_iff.mp hnil)

variable [PythonWord] [PythonMath] {planner : Planner} {stores : Stores} {plan : RetrievalPlan}
  {owner : Owner}

/-- A record that the query names is strongly eligible, with the relevance of an exact id. -/
theorem eligible_of_named (h : Named intent record) :
    (record.eligibility intent.query).eligibleStrong = true ∧
      (record.eligibility intent.query).relevance = 95 / 100 := by
  obtain ⟨hlong, -, hwithin⟩ := mentioned_folded h
  have hid : PythonText.casefold record.objectId ≠ "" := by
    intro hempty
    rw [hempty] at hlong
    exact absurd hlong (by decide)
  have hquery := ne_empty_of_isWithin hid hwithin
  unfold CanonicalRecord.eligibility canonicalEligibility
  simp only
  rw [if_neg (not_or.mpr ⟨hquery, hid⟩), if_pos ⟨hlong, .inl hwithin⟩]
  exact ⟨rfl, rfl⟩

/-- A listed record that the query names is admitted, whatever else is listed. -/
theorem admits_of_named (h : Named intent record) (hlisted : record ∈ listed stores plan owner) :
    Admits stores plan intent owner record := by
  have hscope : inScope (scopedRecords intent (listed stores plan owner)) record.objectId = true := by
    obtain ⟨-, hwithin, -⟩ := mentioned_folded h
    unfold scopedRecords scopedObjectIds
    have hnamed : record.objectId ∈ ((listed stores plan owner).map
        CanonicalRecord.objectId).filter fun oid => 3 ≤ oid.length &&
          isWithin (PythonText.casefold oid) (PythonText.casefold intent.query) := by
      rw [List.mem_filter, Bool.and_eq_true, decide_eq_true_eq]
      exact ⟨List.mem_map_of_mem hlisted, h.long, hwithin⟩
    simp only
    rw [if_neg (List.ne_nil_of_mem hnamed)]
    exact decide_eq_true hnamed
  unfold Admits CanonicalRecord.admissible
  rw [hscope, (eligible_of_named h).1]
  simp

end

/-! ## Kept items of canonical sources -/

section
variable [PythonText] [PythonYaml] [PythonWord] [PythonMath] {planner : Planner} {stores : Stores}
  {plan : RetrievalPlan} {intent : QueryIntent} {accessPolicy : AccessPolicy} {owner : Owner}
  {record : CanonicalRecord} {result : PlannerResult} {items kept : List ContextItem}

/-- The item is not replaced by the other one. -/
def Outranks (first item : ContextItem) : Prop :=
  first.authority.rank < item.authority.rank ∨
    first.authority.rank = item.authority.rank ∧ item.score ≤ first.score

theorem mergeItem_outranks {first item existing value : ContextItem} (hitem : Outranks first item)
    (hexisting : SameEvidence existing first ∧ existing.score = first.score)
    (h : mergeItem (some existing) item = .ok value) :
    SameEvidence value first ∧ value.score = first.score := by
  have hwinner : winner existing item = existing := by
    unfold winner
    rw [hexisting.1.authority, hexisting.2]
    rcases hitem with hitem | ⟨hrank, hscore⟩
    · rw [if_pos hitem]
    · rw [if_neg (by omega), if_neg (by omega), if_pos hscore]
  have hvalue := contextItem_eq_ok.mp h
  rw [hwinner] at hvalue
  have hsame : SameEvidence value existing :=
    ⟨(congrArg Evidence.sourceId hvalue).trans rfl, (congrArg Evidence.sourceType hvalue).trans rfl,
      (congrArg Evidence.authority hvalue).trans rfl, (congrArg Evidence.trustState hvalue).trans rfl,
      (congrArg Evidence.excerpt hvalue).trans rfl,
      (congrArg Evidence.redactionStatus hvalue).trans rfl⟩
  have hscore : value.score = existing.score := (congrArg Evidence.score hvalue).trans rfl
  exact ⟨hsame.trans hexisting.1, hscore.trans hexisting.2⟩

theorem combined_outranks {first value : ContextItem} (hbest : ∀ item ∈ items, Outranks first item)
    {existing : ContextItem} (hexisting : SameEvidence existing first ∧ existing.score = first.score)
    (h : items.foldlM (Grouping.combine mergeItem) (some existing) = .ok (some value)) :
    SameEvidence value first := by
  induction items generalizing existing with
  | nil =>
    rw [Run.foldlM_nil_eq_ok] at h
    cases h
    exact hexisting.1
  | cons item items ih =>
    rw [List.forall_mem_cons] at hbest
    obtain ⟨mid, hmid, h⟩ := Run.foldlM_cons_eq_ok.mp h
    obtain ⟨merged, hmerged, rfl⟩ := map_eq_ok.mp hmid
    exact ih hbest.2 (mergeItem_outranks hbest.1 hexisting hmerged) h

/-- What is kept for a source is its first item, when that outranks the other ones. -/
theorem same_of_first (h : dedupedItems items = .ok kept) {id : String} {first other : ContextItem}
    (hfirst : items.find? (fun item => decide (item.sourceId = id)) = some first)
    (hbest : ∀ item ∈ items, item.sourceId = id → Outranks first item)
    (hother : other ∈ kept) (hid : other.sourceId = id) : SameEvidence other first := by
  obtain ⟨d, hd, rfl⟩ := map_eq_ok.mp h
  obtain ⟨⟨key, other⟩, hentry, rfl⟩ := List.mem_map.mp hother
  have hkey : key = id := (keyed_of_kept hd _ hentry).symm.trans hid
  subst hkey
  have hlookup := Grouping.lookup_eq_some_of_mem (Grouping.nodup_keys_regrouped (by simp) hd) hentry
  have hfold := Grouping.lookup_regrouped hd key
  rw [hlookup] at hfold
  have hhead : (items.filter fun item => decide (item.sourceId = key)).head? = some first :=
    List.head?_filter.trans hfirst
  have hmem : ∀ item ∈ items.filter (fun item => decide (item.sourceId = key)),
      Outranks first item := by
    intro item hitem
    obtain ⟨hitem, hsource⟩ := List.mem_filter.mp hitem
    exact hbest item hitem (of_decide_eq_true hsource)
  cases hfilter : items.filter (fun item => decide (item.sourceId = key)) with
  | nil =>
    rw [hfilter] at hhead
    cases hhead
  | cons item rest =>
    rw [hfilter] at hhead hmem hfold
    cases hhead
    rw [List.forall_mem_cons] at hmem
    obtain ⟨mid, hmid, hfold⟩ := Run.foldlM_cons_eq_ok.mp hfold
    obtain ⟨merged, hmerged, rfl⟩ := map_eq_ok.mp hmid
    cases hmerged
    exact combined_outranks hmem.2 ⟨SameEvidence.refl _, rfl⟩ hfold

/-- An item of the stage of canonical records. -/
structure FromRecord (intent : QueryIntent) (record : CanonicalRecord) (item : ContextItem) : Prop where
  sourceId : item.sourceId = record.sourceId
  sourceType : item.sourceType = record.owner.sourceType
  authority : item.authority = .canonical
  trustState : item.trustState = .canonical
  excerpt : item.excerpt = record.itemText
  score : item.score = (record.eligibility intent.query).relevance ∨ item.score = 4 / 10

theorem fromRecord_of_evidence {score : ℚ} {item : ContextItem}
    (h : contextItem (record.evidence plan score) = .ok item)
    (hscore : score = (record.eligibility intent.query).relevance ∨ score = 4 / 10) :
    FromRecord intent record item := by
  have heq := contextItem_eq_ok.mp h
  have hitem : item.score = score := congrArg Evidence.score heq
  exact ⟨congrArg Evidence.sourceId heq, congrArg Evidence.sourceType heq,
    congrArg Evidence.authority heq, congrArg Evidence.trustState heq,
    congrArg Evidence.excerpt heq, hitem ▸ hscore⟩

/-- The items of a reading come from records of its owner. -/
theorem fromRecord_of_read {entry : ContextItem × String}
    (h : entry ∈ (reading stores plan intent owner).items) : ∃ record, FromRecord intent record entry.1 := by
  rcases reading_cases stores plan intent owner with ⟨-, -, heq⟩ | ⟨-, -, -, hitems⟩
  · rw [heq] at h
    obtain ⟨⟨record, read⟩, hread, hsome⟩ := List.mem_filterMap.mp h
    obtain ⟨item, hitem, hpair⟩ := Option.map_eq_some_iff.mp hsome
    subst hpair
    have hturn := (mem_untilFailure.mp hread).2
    unfold readRecord at hturn
    split_ifs at hturn
    · obtain ⟨made, hmade, heq⟩ := map_eq_ok.mp hturn
      have hsame : some made = some item := heq.trans hitem
      cases hsame
      exact ⟨record, fromRecord_of_evidence hmade (.inl rfl)⟩
    · cases hturn
      cases hitem
  · rw [hitems] at h
    cases h

/-- The readings of the projects are those of single projects. -/
theorem project_of_part {read : ProjectReading} (h : read ∈ (projectPart stores plan intent).1) :
    ∃ store named projectId, read = readProject store plan intent named projectId := by
  unfold projectPart at h
  by_cases hconsulted : Owner.project ∈ canonicalOwners intent.intent
  · rw [if_pos hconsulted] at h
    cases hprojects : stores.projects with
    | none =>
      rw [hprojects] at h
      cases h
    | some store =>
      rw [hprojects] at h
      simp only at h
      by_cases hstatus : stores.projectStatus = .available
      · rw [if_pos hstatus] at h
        unfold readProjects at h
        split at h
        · cases h
        · obtain ⟨projectId, -, rfl⟩ := List.mem_map.mp h
          exact ⟨store, _, projectId, rfl⟩
      · rw [if_neg hstatus] at h
        cases h
  · rw [if_neg hconsulted] at h
    cases h

/-- The items of the canonical stage come from records. -/
theorem fromRecord_of_stage {harvest : Harvest} (h : canonicalStage stores plan intent = .ok harvest)
    {entry : ContextItem × String} (hentry : entry ∈ harvest.items) :
    ∃ record, FromRecord intent record entry.1 := by
  obtain ⟨related, hrelated, h⟩ := bind_eq_ok.mp h
  cases h
  simp only [List.mem_append] at hentry
  rcases hentry with ((htask | hdecision) | hentry) | hproject
  · have hread : entry ∈ (reading stores plan intent .task).items := htask
    exact fromRecord_of_read hread
  · have hread : entry ∈ (reading stores plan intent .decision).items := hdecision
    exact fromRecord_of_read hread
  · obtain ⟨record, -, hmade⟩ := mem_of_mapM hrelated hentry
    obtain ⟨item, hitem, rfl⟩ := map_eq_ok.mp hmade
    exact ⟨record, fromRecord_of_evidence hitem (.inr rfl)⟩
  · obtain ⟨read, hread, hitem⟩ := List.mem_filterMap.mp hproject
    obtain ⟨store, named, projectId, rfl⟩ := project_of_part hread
    obtain ⟨summary, -, hmade⟩ := readProject_item.mp hitem
    unfold projectItem at hmade
    simp only at hmade
    split_ifs at hmade
    · cases hmade
    · obtain ⟨item, hcontext, heq⟩ := map_eq_ok.mp hmade
      cases heq
      exact ⟨_, fromRecord_of_evidence hcontext (.inl rfl)⟩

/-- The source types of notes. -/
def noteTypes : List String := ["vault_note", "noise_capture", "raw_capture", "unverified_research"]

theorem noteType_of_inspectText {rawText : String} {verdict : Inspection}
    (h : inspectText rawText = .ok verdict) : verdict.sourceType ∈ noteTypes := by
  obtain ⟨fm, -, h⟩ := bind_eq_ok.mp h
  cases h
  split_ifs
  · show Inspection.quarantined.sourceType ∈ noteTypes
    decide
  · cases hdeclared : declaredLowering fm with
    | none =>
      show (taggedLowering fm).sourceType ∈ noteTypes
      unfold taggedLowering
      simp only
      split_ifs
      all_goals decide
    | some verdict =>
      show verdict.sourceType ∈ noteTypes
      unfold declaredLowering at hdeclared
      simp only at hdeclared
      split at hdeclared
      · split at hdeclared
        all_goals cases hdeclared
        all_goals decide
      · cases hdeclared

theorem noteType_of_inspect {files : NoteFiles} {relPath content : String} {verdict : Inspection}
    (h : inspectVaultNoteAuthority files relPath content = .ok verdict) :
    verdict.sourceType ∈ noteTypes := by
  obtain ⟨present, -, h⟩ := bind_eq_ok.mp h
  exact noteType_of_inspectText h

/-- The items of a search are notes without authority. -/
theorem note_of_search {stage : RetrievalStage} {mode : String} {entry : ContextItem × String}
    (h : entry ∈ (searchItems planner plan intent accessPolicy stage mode).1) :
    entry.1.authority = .unverified ∧ entry.1.sourceType ∈ noteTypes := by
  unfold searchItems at h
  split at h
  · cases h
  · obtain ⟨⟨hit, item⟩, hread, rfl⟩ := List.mem_map.mp h
    obtain ⟨-, hitem⟩ := mem_untilFailure.mp hread
    obtain ⟨verdict, hverdict, hitem⟩ := bind_eq_ok.mp hitem
    obtain ⟨score, -, hitem⟩ := bind_eq_ok.mp hitem
    have hevidence := contextItem_eq_ok.mp hitem
    have hauthority : item.authority = verdict.authority := congrArg Evidence.authority hevidence
    have htype : item.sourceType = verdict.sourceType := congrArg Evidence.sourceType hevidence
    obtain ⟨hunverified, -⟩ := ordinary_of_inspect hverdict
    exact ⟨hauthority.trans hunverified, htype ▸ noteType_of_inspect hverdict⟩

/-- An item of the stages comes from a record or from a search. -/
theorem origin_of_collected {collection : Collection} {item : ContextItem}
    (h : collect planner plan intent accessPolicy = .ok collection)
    (hitem : item ∈ collection.items.map Prod.fst) :
    (.projectState ∈ plan.stages ∧ CanonicalRead planner.stores plan intent item.sourceId ∧
        ∃ record, FromRecord intent record item) ∨
      item.authority = .unverified ∧ item.sourceType ∈ noteTypes := by
  obtain ⟨canonical, lexical, dense, hcanonical, rfl, hdense, hitems, -⟩ := collect_ok h
  obtain ⟨entry, hentry, rfl⟩ := List.mem_map.mp hitem
  rw [hitems, List.mem_append, List.mem_append] at hentry
  rcases hentry with (hentry | hentry) | hentry
  · obtain ⟨hstage, hread⟩ := ((canonical_iff hcanonical).1 entry.1.sourceId).mp ⟨entry, hentry, rfl⟩
    rw [if_pos hstage] at hcanonical
    exact .inl ⟨hstage, hread, fromRecord_of_stage hcanonical hentry⟩
  · right
    split_ifs at hentry
    · exact note_of_search hentry
    · cases hentry
  · right
    split_ifs at hdense with hstage
    · rcases semanticStage_cases hdense with ⟨-, hnone, -⟩ | ⟨-, -, hnone, -⟩ | ⟨-, hfound, -⟩
      · rw [hnone] at hentry
        cases hentry
      · rw [hnone] at hentry
        cases hentry
      · rw [hfound] at hentry
        exact note_of_search hentry
    · cases hdense
      cases hentry

/-! ## Sources -/

/-- The source of a record tells its owner and its id. -/
theorem sourceId_inj {a b : CanonicalRecord} (h : a.sourceId = b.sourceId) :
    a.owner = b.owner ∧ a.objectId = b.objectId := by
  have hlist := congrArg String.toList h
  have htask : "task:".toList = ['t', 'a', 's', 'k', ':'] := by decide
  have hdecision : "decision:".toList = ['d', 'e', 'c', 'i', 's', 'i', 'o', 'n', ':'] := by decide
  have hproject : "project:".toList = ['p', 'r', 'o', 'j', 'e', 'c', 't', ':'] := by decide
  unfold CanonicalRecord.sourceId at hlist
  cases ha : a.owner <;> cases hb : b.owner
  all_goals
    simp only [ha, hb, String.toList_append, htask, hdecision, hproject, List.cons_append,
      List.nil_append, List.cons.injEq, true_and, String.toList_inj] at hlist
    simp_all

theorem owner_of_record (h : record ∈ stores.records owner) :
    record.owner = owner ∧ owner ≠ .project := by
  cases owner with
  | project => cases h
  | task =>
    unfold Stores.records at h
    cases htasks : stores.tasks with
    | none =>
      rw [htasks] at h
      cases h
    | some store =>
      rw [htasks] at h
      obtain ⟨task, -, rfl⟩ := List.mem_map.mp h
      exact ⟨rfl, by decide⟩
  | decision =>
    unfold Stores.records at h
    cases hdecisions : stores.decisions with
    | none =>
      rw [hdecisions] at h
      cases h
    | some store =>
      rw [hdecisions] at h
      obtain ⟨decision, -, rfl⟩ := List.mem_map.mp h
      exact ⟨rfl, by decide⟩

/-! ## The first record of an id -/

/-- The first listed record with the id of the record. -/
def firstListed (stores : Stores) (plan : RetrievalPlan) (owner : Owner) (record : CanonicalRecord) :
    Option CanonicalRecord :=
  (listed stores plan owner).find? fun other => decide (other.objectId = record.objectId)

/-- The records that the loop comes to first have no item of a source that is not theirs. -/
theorem find_untilFailure {front back : List CanonicalRecord} {first : CanonicalRecord}
    {item : ContextItem} {id : String}
    (hfront : ∀ other ∈ front, ∃ read, turn stores plan intent owner other = .ok read)
    (hother : ∀ other ∈ front, other.sourceId ≠ id)
    (hfirst : turn stores plan intent owner first = .ok (some item)) (hid : item.sourceId = id) :
    ((((untilFailure (turn stores plan intent owner) (front ++ first :: back)).1).filterMap
        fun entry => entry.2.map fun item => (item, entry.1.revision)).map Prod.fst).find?
      (fun item => decide (item.sourceId = id)) = some item := by
  induction front with
  | nil =>
    rw [List.nil_append, untilFailure, hfirst]
    simp [hid]
  | cons other front ih =>
    rw [List.forall_mem_cons] at hfront hother
    obtain ⟨⟨read, hread⟩, hfront⟩ := hfront
    rw [List.cons_append, untilFailure, hread]
    cases read with
    | none => exact ih hfront hother.2
    | some made =>
      have hmade : made.sourceId ≠ id := by
        rw [(turn_eq_some hread).2]
        exact hother.1
      simp only [List.filterMap_cons, Option.map_some, List.map_cons]
      rw [List.find?_cons_of_neg (by simpa using hmade)]
      exact ih hfront hother.2

/-- The sources of records of one owner are told apart by their ids. -/
theorem sourceId_eq_iff {a b : CanonicalRecord} (h : a.owner = b.owner) :
    a.sourceId = b.sourceId ↔ a.objectId = b.objectId := by
  constructor
  · intro hid
    exact (sourceId_inj hid).2
  · intro hid
    unfold CanonicalRecord.sourceId
    rw [h, hid]

theorem mem_records_of_listed (h : record ∈ listed stores plan owner) :
    record ∈ stores.records owner :=
  List.mem_of_mem_take h

/-- The reading of a store has the item of the first record with an id first. -/
theorem find_reading {first : CanonicalRecord} {item : ContextItem}
    (hfirst : firstListed stores plan owner record = some first)
    (hreach : RecordReached stores plan intent owner first)
    (hturn : turn stores plan intent owner first = .ok (some item)) :
    ((reading stores plan intent owner).items.map Prod.fst).find?
      (fun item => decide (item.sourceId = first.sourceId)) = some item := by
  rcases reading_cases stores plan intent owner with ⟨-, -, heq⟩ | ⟨hnot, -⟩
  · obtain ⟨hid, front, back, hlist, hfront⟩ := List.find?_eq_some_iff_append.mp hfirst
    have howner : ∀ other ∈ front ++ first :: back, other.owner = owner := by
      intro other hother
      rw [← hlist] at hother
      exact (owner_of_record (mem_records_of_listed hother)).1
    have hread : ∀ other ∈ front, ∃ read, turn stores plan intent owner other = .ok read := by
      have hreached := hreach.2.2
      rw [hlist] at hreached
      refine hreached.front_ok fun hmem => ?_
      have hnot := hfront first hmem
      rw [hid] at hnot
      cases hnot
    rw [heq, readRecords, hlist]
    have hturns : readRecord plan intent (scopedRecords intent (front ++ first :: back)) =
        turn stores plan intent owner := by
      rw [turn, hlist]
    simp only
    rw [hturns]
    refine find_untilFailure hread ?_ hturn (turn_eq_some hturn).2
    intro other hother hsource
    have hother' := howner other (List.mem_append_left _ hother)
    have hfirst' := howner first (List.mem_append_right _ List.mem_cons_self)
    have hsame := (sourceId_inj hsource).2
    have hnot := hfront other hother
    rw [hsame] at hnot
    simp only [hid] at hnot
    cases hnot
  · exact absurd ⟨hreach.1, hreach.2.1⟩ hnot

variable [LawfulCasefold]

/-- The turn of a named record makes an item, or fails. -/
theorem turn_of_named (h : Named intent record) (hlisted : record ∈ listed stores plan owner) :
    turn stores plan intent owner record = (contextItem (record.evidence plan (95 / 100))).map some := by
  have hadmits : record.admissible intent (scopedRecords intent (listed stores plan owner)) = true :=
    admits_of_named h hlisted
  rw [turn, readRecord, if_pos hadmits, (eligible_of_named h).2]

theorem named_of_id {other : CanonicalRecord} (h : Named intent record)
    (hid : other.objectId = record.objectId) : Named intent other := by
  obtain ⟨hlong, hchars, hmentioned⟩ := h
  rw [← hid] at hlong hchars hmentioned
  exact ⟨hlong, hchars, hmentioned⟩

/-- The stage reads the record a query names, from the first listed record with its id. -/
structure Served (stores : Stores) (plan : RetrievalPlan) (intent : QueryIntent)
    (accessPolicy : AccessPolicy) (owner : Owner) (record : CanonicalRecord) : Prop where
  stage : .projectState ∈ plan.stages
  first : ∃ first, firstListed stores plan owner record = some first ∧
    RecordReached stores plan intent owner first ∧
    (∃ item, contextItem (first.evidence plan (95 / 100)) = .ok item) ∧
    (injected first.itemText = true → accessPolicy.quarantineAccess = .privileged)

/-- A candidate stands for the record. -/
def Retrieved (result : PlannerResult) (record : CanonicalRecord) : Prop :=
  ∃ candidate ∈ result.candidates, candidate.sourceId = record.sourceId ∧
    candidate.sourceType = record.owner.sourceType

/-- A reading of a named record is one of its id in the store of its owner. -/
theorem read_of_canonical (h : Named intent record) (hrecord : record ∈ stores.records owner)
    (hread : CanonicalRead stores plan intent record.sourceId) :
    ∃ other, RecordRead stores plan intent owner other ∧ other.objectId = record.objectId := by
  obtain ⟨howner, hproject⟩ := owner_of_record hrecord
  rcases hread with ⟨owner', other, hother, hid⟩ | ⟨binder, owner', other, hrelated, hid⟩ |
    ⟨projectId, -, hid⟩
  · obtain ⟨hsame, hobject⟩ := sourceId_inj hid
    have hlisted := hother.1.2.2.mem
    rw [(owner_of_record (mem_records_of_listed hlisted)).1, howner] at hsame
    exact ⟨other, hsame ▸ hother, hobject⟩
  · obtain ⟨hsame, hobject⟩ := sourceId_inj hid
    have hlisted := hrelated.reached.2.2.mem
    have hadmits := admits_of_named (named_of_id h hobject) hlisted
    exact absurd rfl (hrelated.notAdmitted other hrelated.reached hadmits)
  · have hother : (CanonicalRecord.mk projectId .project "" "" "" "").sourceId = record.sourceId := hid
    have hsame := (sourceId_inj hother).1
    rw [howner] at hsame
    exact absurd hsame.symm hproject

/-- An item of another source type than a note is scanned as it is. -/
theorem scanText_of_record {files : NoteFiles} {item : ContextItem} {scan : String}
    (htype : item.sourceType ≠ "vault_note") (h : scanText files item = .ok scan) :
    scan = item.excerpt := by
  unfold scanText at h
  rw [if_neg htype] at h
  cases h
  rfl

theorem sourceType_notMem (owner : Owner) : owner.sourceType ∉ noteTypes := by
  cases owner
  all_goals
    unfold Owner.sourceType noteTypes
    decide

theorem screenedItem_sourceType (scan : String) (item : ContextItem) :
    (screenedItem scan item).sourceType = item.sourceType := by
  unfold screenedItem
  split_ifs
  · rfl
  · rfl

/-- Every item of the source of a named record is outranked by one of its first record. -/
theorem outranks_of_named {collection : Collection} {first : CanonicalRecord} {item other : ContextItem}
    (h : collect planner plan intent accessPolicy = .ok collection) (hnamed : Named intent first)
    (hitem : contextItem (first.evidence plan (95 / 100)) = .ok item)
    (hother : other ∈ collection.items.map Prod.fst) (hid : other.sourceId = first.sourceId) :
    Outranks item other := by
  have heq := contextItem_eq_ok.mp hitem
  have hauthority : item.authority = .canonical := congrArg Evidence.authority heq
  have hscore : item.score = 95 / 100 := congrArg Evidence.score heq
  unfold Outranks
  rw [hauthority, hscore]
  rcases origin_of_collected h hother with ⟨-, -, record, hrecord⟩ | ⟨hunverified, -⟩
  · right
    rw [hrecord.authority]
    refine ⟨rfl, ?_⟩
    have hobject := (sourceId_inj (hrecord.sourceId.symm.trans hid)).2
    rcases hrecord.score with hown | hrelated
    · rw [hown, (eligible_of_named (named_of_id hnamed hobject)).2]
    · rw [hrelated]
      norm_num
  · left
    rw [hunverified]
    decide

/-- The first item of the source of a named record that is read is that of its first record. -/
theorem find_collected {collection : Collection} {first : CanonicalRecord} {item : ContextItem}
    (h : collect planner plan intent accessPolicy = .ok collection)
    (hstage : .projectState ∈ plan.stages)
    (hfirst : firstListed planner.stores plan owner record = some first)
    (hreach : RecordReached planner.stores plan intent owner first)
    (hturn : turn planner.stores plan intent owner first = .ok (some item)) :
    (collection.items.map Prod.fst).find? (fun item => decide (item.sourceId = first.sourceId)) =
      some item := by
  obtain ⟨canonical, lexical, dense, hcanonical, -, -, hitems, -⟩ := collect_ok h
  rw [if_pos hstage] at hcanonical
  obtain ⟨related, hrelated, hcanonical⟩ := bind_eq_ok.mp hcanonical
  cases hcanonical
  have hfound := find_reading hfirst hreach hturn
  have howner := owner_of_record (mem_records_of_listed hreach.2.2.mem)
  rw [hitems]
  simp only [List.map_append, List.find?_append]
  cases hcase : owner with
  | project => exact absurd hcase howner.2
  | task =>
    rw [hcase] at hfound
    have hfound : ((readTasks planner.stores plan intent).items.map Prod.fst).find?
        (fun item => decide (item.sourceId = first.sourceId)) = some item := hfound
    rw [hfound]
    rfl
  | decision =>
    rw [hcase] at hfound howner
    have hfound : ((readDecisions planner.stores plan intent).items.map Prod.fst).find?
        (fun item => decide (item.sourceId = first.sourceId)) = some item := hfound
    have hnone : ((readTasks planner.stores plan intent).items.map Prod.fst).find?
        (fun item => decide (item.sourceId = first.sourceId)) = none := by
      rw [List.find?_eq_none]
      intro other hother hsource
      obtain ⟨entry, hentry, rfl⟩ := List.mem_map.mp hother
      have hentry : entry ∈ (reading planner.stores plan intent .task).items := hentry
      obtain ⟨task, htask, hid⟩ := exists_item_iff.mp ⟨entry, hentry, of_decide_eq_true hsource⟩
      have htaskOwner := (owner_of_record (mem_records_of_listed htask.1.2.2.mem)).1
      have hsame := (sourceId_inj hid).1
      rw [htaskOwner, howner.1] at hsame
      cases hsame
    rw [hnone, hfound]
    rfl

/-- The first listed record with the id of a record of the owner is one too. -/
theorem firstListed_facts {first : CanonicalRecord} (hrecord : record ∈ stores.records owner)
    (h : firstListed stores plan owner record = some first) :
    first.objectId = record.objectId ∧ first ∈ listed stores plan owner ∧ first.owner = owner ∧
      first.sourceId = record.sourceId := by
  have hmem := List.mem_of_find?_eq_some h
  have hid : first.objectId = record.objectId := by simpa using List.find?_some h
  have hfirst := (owner_of_record (mem_records_of_listed hmem)).1
  have howner := (owner_of_record hrecord).1
  exact ⟨hid, hmem, hfirst, (sourceId_eq_iff (hfirst.trans howner.symm)).mpr hid⟩

/-- What is kept for a record that the stage reads is the item of the first record with its id. -/
theorem kept_of_first {collection : Collection} {first : CanonicalRecord} {item other : ContextItem}
    (hcollect : collect planner plan intent accessPolicy = .ok collection)
    (hdeduped : dedupedItems (collection.items.map Prod.fst) = .ok kept)
    (hrecord : record ∈ planner.stores.records owner) (hnamed : Named intent record)
    (hstage : .projectState ∈ plan.stages)
    (hfind : firstListed planner.stores plan owner record = some first)
    (hreach : RecordReached planner.stores plan intent owner first)
    (hitem : contextItem (first.evidence plan (95 / 100)) = .ok item)
    (hother : other ∈ kept) (hid : other.sourceId = record.sourceId) : SameEvidence other item := by
  obtain ⟨hobject, hlisted, -, hsource⟩ := firstListed_facts hrecord hfind
  have hfirst := named_of_id hnamed hobject
  have hturn : turn planner.stores plan intent owner first = .ok (some item) := by
    rw [turn_of_named hfirst hlisted, hitem]
    rfl
  refine same_of_first hdeduped (find_collected hcollect hstage hfind hreach hturn) ?_ hother
    (hid.trans hsource.symm)
  intro source hmem hsourceId
  exact outranks_of_named hcollect hfirst hitem hmem hsourceId

/-- A named record that the stage reads is read from the first listed record with its id. -/
theorem first_of_read (hrecord : record ∈ stores.records owner) (hnamed : Named intent record)
    (hread : CanonicalRead stores plan intent record.sourceId) :
    ∃ first, firstListed stores plan owner record = some first ∧
      RecordReached stores plan intent owner first ∧
      ∃ item, contextItem (first.evidence plan (95 / 100)) = .ok item := by
  obtain ⟨other, ⟨hother, made, hmade⟩, hobject⟩ := read_of_canonical hnamed hrecord hread
  obtain ⟨first, hfind⟩ : ∃ first, firstListed stores plan owner record = some first := by
    rw [← Option.isSome_iff_exists, firstListed, List.find?_isSome]
    exact ⟨other, hother.2.2.mem, decide_eq_true hobject⟩
  obtain ⟨hfirstId, hlisted, -⟩ := firstListed_facts hrecord hfind
  obtain ⟨hreach, hok⟩ := hother.2.2.first (decide_eq_true hobject) hfind
  have hturn : ∃ read, turn stores plan intent owner first = .ok read := by
    rcases hok with rfl | hok
    · exact ⟨_, hmade⟩
    · exact hok
  obtain ⟨read, hturn⟩ := hturn
  rw [turn_of_named (named_of_id hnamed hfirstId) hlisted] at hturn
  obtain ⟨item, hitem, -⟩ := map_eq_ok.mp hturn
  exact ⟨first, hfind, ⟨hother.1, hother.2.1, hreach⟩, item, hitem⟩

theorem served_of_retrieved (h : retrieve planner plan intent accessPolicy = .ok result)
    (hrecord : record ∈ planner.stores.records owner) (hnamed : Named intent record)
    (hretrieved : Retrieved result record) :
    Served planner.stores plan intent accessPolicy owner record := by
  obtain ⟨candidate, hcandidate, hid, htype⟩ := hretrieved
  obtain ⟨kept, hkept, hcandidates, -⟩ := mem_candidates h
  obtain ⟨collection, hcollect, hdeduped⟩ := keptItems_ok.mp hkept
  obtain ⟨item, hitem, scan, hscan, hgrants, heq⟩ := hcandidates candidate hcandidate
  rw [heq, screenedItem_sourceId] at hid
  rw [heq, screenedItem_sourceType, (owner_of_record hrecord).1] at htype
  obtain ⟨source, hsource, hevidence⟩ := same_of_kept hdeduped hitem
  rcases origin_of_collected hcollect hsource with ⟨hstage, hread, -⟩ | ⟨-, hnote⟩
  · rw [hevidence.sourceId.symm.trans hid] at hread
    obtain ⟨first, hfind, hreach, firstItem, hfirstItem⟩ := first_of_read hrecord hnamed hread
    refine ⟨hstage, first, hfind, hreach, ⟨firstItem, hfirstItem⟩, fun hinjected => ?_⟩
    have hexcerpt := (kept_of_first hcollect hdeduped hrecord hnamed hstage hfind hreach hfirstItem
      hitem hid).excerpt
    have hscanned : scan = first.itemText := by
      rw [scanText_of_record (by rw [htype]; cases owner <;> decide) hscan, hexcerpt]
      exact congrArg Evidence.excerpt (contextItem_eq_ok.mp hfirstItem)
    rw [screenedTrust, hscanned, if_pos hinjected] at hgrants
    exact hgrants
  · rw [← hevidence.sourceType, htype] at hnote
    exact absurd hnote (sourceType_notMem owner)

theorem retrieved_of_served (h : retrieve planner plan intent accessPolicy = .ok result)
    (hrecord : record ∈ planner.stores.records owner) (hnamed : Named intent record)
    (hserved : Served planner.stores plan intent accessPolicy owner record) :
    Retrieved result record := by
  obtain ⟨hstage, first, hfind, hreach, ⟨firstItem, hfirstItem⟩, hquarantine⟩ := hserved
  obtain ⟨kept, hkept, -, hitems⟩ := mem_candidates h
  obtain ⟨collection, hcollect, hdeduped⟩ := keptItems_ok.mp hkept
  obtain ⟨hfirstId, hlisted, hfirstOwner, hfirstSource⟩ := firstListed_facts hrecord hfind
  have hfirst := named_of_id hnamed hfirstId
  have hmade : FromRecord intent first firstItem :=
    fromRecord_of_evidence hfirstItem (.inl (eligible_of_named hfirst).2.symm)
  have hturn : turn planner.stores plan intent owner first = .ok (some firstItem) := by
    rw [turn_of_named hfirst hlisted, hfirstItem]
    rfl
  have hcollected := List.mem_of_find?_eq_some (find_collected hcollect hstage hfind hreach hturn)
  obtain ⟨item, hitem, hid⟩ := kept_of_collected hdeduped hcollected
  have hsource : item.sourceId = record.sourceId := hid.trans (hmade.sourceId.trans hfirstSource)
  have hevidence := kept_of_first hcollect hdeduped hrecord hnamed hstage hfind hreach hfirstItem
    hitem hsource
  have htype : item.sourceType = owner.sourceType := by
    rw [hevidence.sourceType, hmade.sourceType, hfirstOwner]
  obtain ⟨scan, hscan, hcandidate⟩ := hitems item hitem
  have hscanned : scan = first.itemText := by
    rw [scanText_of_record (by rw [htype]; cases owner <;> decide) hscan, hevidence.excerpt,
      hmade.excerpt]
  have hgrants : Grants plan accessPolicy (screenedTrust scan item) := by
    unfold screenedTrust
    split_ifs with hinjected hclaims
    · rw [hscanned] at hinjected
      exact hquarantine hinjected
    · unfold claimsAuthority at hclaims
      rw [hevidence.authority, hmade.authority] at hclaims
      simp at hclaims
    · rw [hevidence.trustState, hmade.trustState]
      exact trivial
  obtain ⟨candidate, hmem, heq⟩ := hcandidate hgrants
  refine ⟨candidate, hmem, ?_, ?_⟩
  · rw [heq, screenedItem_sourceId, hsource]
  · rw [heq, screenedItem_sourceType, htype, (owner_of_record hrecord).1]

/-- A named record is retrieved exactly when the stage reads it: the listing of its store, cut to
the budget, still has it, nothing listed before it breaks the loop off, and what it says is not
quarantined. -/
theorem retrieved_iff (h : retrieve planner plan intent accessPolicy = .ok result)
    (hrecord : record ∈ planner.stores.records owner) (hnamed : Named intent record) :
    Retrieved result record ↔ Served planner.stores plan intent accessPolicy owner record :=
  ⟨served_of_retrieved h hrecord hnamed, retrieved_of_served h hrecord hnamed⟩

end

/-! ## A task behind ten others -/

attribute [local instance] PythonText.ascii PythonWord.asciiOnly PythonYaml.quarantineTag
  PythonMath.identity

/-- A task whose id is its title. -/
def titledTask (taskId : String) : PowerTask := ⟨taskId, taskId, "Ship it", "ready"⟩

/-- A planner over a store of tasks. -/
def taskPlanner (tasks : List PowerTask) : Planner :=
  { lexicalPlanner (oneNote "notes/b.md" plainNote) [] with
    stores := { noStores with tasks := some ⟨tasks, none⟩ } }

def taskIntent : QueryIntent := { lookupIntent "Where does task_42 stand?" with intent := .task }

def namedTask : CanonicalRecord := (titledTask "task_42").record

/-- Ten tasks that were updated after the one the query names. -/
def newerTasks : List PowerTask :=
  ["job_50", "job_51", "job_52", "job_53", "job_54", "job_55", "job_56", "job_57",
    "job_58", "job_59"].map titledTask

theorem lawfulCasefold_ascii : LawfulCasefold := by
  refine ⟨fun c => [c.toLower], fun text => ?_, fun c _ => rfl⟩
  show (String.ofList (text.toList.map Char.toLower)).toList = _
  rw [String.toList_ofList, List.map_eq_flatMap]

attribute [local instance] lawfulCasefold_ascii

theorem named_task : Named taskIntent namedTask :=
  ⟨by decide, by decide, by decide⟩

/-- Alone in its store the task is retrieved. -/
theorem retrieved_alone : ∃ result,
    retrieve (taskPlanner [titledTask "task_42"]) fastPlan taskIntent rawCaller = .ok result ∧
    Retrieved result namedTask := by
  have hrun : (retrieve (taskPlanner [titledTask "task_42"]) fastPlan taskIntent
      rawCaller).isOk = true := by
    decide +kernel
  have hitem : (contextItem (namedTask.evidence fastPlan (95 / 100))).isOk = true := by
    decide +kernel
  have hclean : injected namedTask.itemText = false := by
    decide +kernel
  obtain ⟨result, hresult⟩ := exists_of_isOk hrun
  have hmem : namedTask ∈ (taskPlanner [titledTask "task_42"]).stores.records .task := by
    show namedTask ∈ [namedTask]
    exact List.mem_singleton.mpr rfl
  refine ⟨result, hresult, (retrieved_iff hresult hmem named_task).mpr ⟨by decide, namedTask, ?_, ?_,
    exists_of_isOk hitem, ?_⟩⟩
  · rfl
  · exact ⟨by decide, ⟨_, rfl, rfl⟩, [], [], rfl, by simp⟩
  · rw [hclean]
    intro h
    cases h

/-- Behind ten newer tasks it is not. -/
theorem retrieved_behind : ∃ result,
    retrieve (taskPlanner (newerTasks ++ [titledTask "task_42"])) fastPlan taskIntent rawCaller =
      .ok result ∧
    namedTask ∈ (taskPlanner (newerTasks ++ [titledTask "task_42"])).stores.records .task ∧
    Named taskIntent namedTask ∧ ¬ Retrieved result namedTask := by
  have hrun : (retrieve (taskPlanner (newerTasks ++ [titledTask "task_42"])) fastPlan taskIntent
      rawCaller).isOk = true := by
    decide +kernel
  obtain ⟨result, hresult⟩ := exists_of_isOk hrun
  have hmem : namedTask ∈
      (taskPlanner (newerTasks ++ [titledTask "task_42"])).stores.records .task := by
    show namedTask ∈ (newerTasks ++ [titledTask "task_42"]).map PowerTask.record
    exact List.mem_map_of_mem (List.mem_append_right _ (List.mem_singleton.mpr rfl))
  refine ⟨result, hresult, hmem, named_task, fun hretrieved => ?_⟩
  obtain ⟨-, first, hfind, -⟩ := served_of_retrieved hresult hmem named_task hretrieved
  have hnone : firstListed (taskPlanner (newerTasks ++ [titledTask "task_42"])).stores fastPlan .task
      namedTask = none := by
    decide
  rw [hnone] at hfind
  cases hfind

end PowerFramework.Retrieval
