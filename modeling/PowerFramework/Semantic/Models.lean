import PowerFramework.Lib.Sha256
import PowerFramework.Lib.Utf8
import PowerFramework.State.Governance
import PowerFramework.Task.Fields
/-!
# Semantic entities

The nine entity models with their provenance, the candidate that carries an entity through the
compiler, and the constructor that keeps model extractions unverified.
-/

namespace PowerFramework.Semantic

open Lib Lib.Failure Lib.Json Ledger PowerFramework.Task

/-- Pydantic's lax reading of a `float` field.  A `float` is read as itself; what an `int`, a bool
or a numeric string gives is left to the library. -/
class LaxFloat where
  ofValue : Value → Option Double
  ofValue_float : ∀ x : Double, ofValue (.float x) = some x

/-- The strict reading, which the lax one extends. -/
abbrev LaxFloat.floatOnly : LaxFloat where
  ofValue
    | .float x => some x
    | _ => none
  ofValue_float _ := rfl

/-! ## Constants -/

def zero : Double := ⟨false, 0, 0⟩

def half : Double := ⟨false, 1022, 0⟩

def one : Double := ⟨false, 1023, 0⟩

/-- The decimal `0.75`. -/
def threeQuarters : Double := ⟨false, 1022, 0x8000000000000⟩

/-- The double nearest to `0.8`. -/
def eightTenths : Double := ⟨false, 1022, 0x999999999999A⟩

/-- The double nearest to `0.9`. -/
def nineTenths : Double := ⟨false, 1022, 0xCCCCCCCCCCCCD⟩

/-! ## Fields -/

variable [LaxFloat]

/-- `float` with `ge=0.0, le=1.0`. -/
def readUnit (value : Value) : Option Value :=
  (LaxFloat.ofValue value).bind fun x => if State.inUnit x then some (.float x) else none

def readOptUnit : Value → Option Value
  | .null => some .null
  | value => readUnit value

/-- `list[str]` whose texts are accepted as a whole. -/
def readTexts (ok : List String → Bool) (value : Value) : Option Value :=
  (readStrList value).bind fun value =>
    match value with
    | .list items => if (items.mapM strOf).any ok then some value else none
    | _ => none

theorem readUnit_ok {value value' : Value} (h : readUnit value = some value') :
    ∃ x, State.inUnit x = true ∧ value' = .float x := by
  obtain ⟨x, -, h⟩ := Option.bind_eq_some_iff.mp h
  split_ifs at h with hok
  cases h
  exact ⟨x, hok, rfl⟩

theorem readUnit_float {x : Double} (h : State.inUnit x = true) :
    readUnit (.float x) = some (.float x) := by
  rw [readUnit, LaxFloat.ofValue_float, Option.bind_some, if_pos h]

omit [LaxFloat] in
theorem readTexts_ok {ok : List String → Bool} {value value' : Value}
    (h : readTexts ok value = some value') :
    ∃ texts, value' = strList texts ∧ ok texts = true := by
  obtain ⟨value, hread, h⟩ := Option.bind_eq_some_iff.mp h
  obtain ⟨texts, rfl⟩ := readStrList_ok hread
  simp only [strList, mapM_strOf, Option.any_some] at h
  split_ifs at h with hok
  cases h
  exact ⟨texts, rfl, hok⟩

omit [LaxFloat] in
theorem readTexts_strList {ok : List String → Bool} {texts : List String} (h : ok texts = true) :
    readTexts ok (strList texts) = some (strList texts) := by
  rw [readTexts, readStrList_strList, Option.bind_some]
  simp only [strList, mapM_strOf, Option.any_some, if_pos h]

def unitField (name : String) : Field where
  name := name
  default := none
  read := readUnit
  read_read value value' h := by
    obtain ⟨x, hok, rfl⟩ := readUnit_ok h
    exact readUnit_float hok

/-- `float | None`, `None` by default. -/
def optUnitField (name : String) : Field where
  name := name
  default := some .null
  read := readOptUnit
  read_read value value' h := by
    unfold readOptUnit at h
    split at h
    · cases h
      rfl
    · obtain ⟨x, hok, rfl⟩ := readUnit_ok h
      exact readUnit_float hok

omit [LaxFloat] in
/-- `list[str]` with a check of its texts. -/
def textsField (name : String) (default : Option (List String)) (ok : List String → Bool) :
    Field where
  name := name
  default := default.map strList
  read := readTexts ok
  read_read value value' h := by
    obtain ⟨texts, rfl, hok⟩ := readTexts_ok h
    exact readTexts_strList hok

/-- `Literal[...]` -/
def choiceField (name : String) (default : Option String) (options : List String) : Field :=
  .str name default (· ∈ options)

/-- `min_length, max_length` -/
def lengthFrom (least most : Nat) (s : String) : Bool :=
  least ≤ s.toList.length && s.toList.length ≤ most

/-- A text with a default of its own. -/
def textField (name : String) (default : String) (ok : String → Bool) : Field :=
  .str name (some default) ok

def neededField (name : String) (ok : String → Bool) : Field := .str name none ok

/-! ## Entities -/

inductive SemanticEntityType where
  | fact | decision | assumption | hypothesis | risk | issue | dependency | observation | lesson
  deriving DecidableEq, Repr

def SemanticEntityType.value : SemanticEntityType → String
  | .fact => "FACT"
  | .decision => "DECISION"
  | .assumption => "ASSUMPTION"
  | .hypothesis => "HYPOTHESIS"
  | .risk => "RISK"
  | .issue => "ISSUE"
  | .dependency => "DEPENDENCY"
  | .observation => "OBSERVATION"
  | .lesson => "LESSON"

/-- `ENTITY_TYPE_PREFIX` -/
def SemanticEntityType.idPrefix : SemanticEntityType → String
  | .fact => "fct"
  | .decision => "dref"
  | .assumption => "asm"
  | .hypothesis => "hyp"
  | .risk => "rsk"
  | .issue => "iss"
  | .dependency => "dep"
  | .observation => "obs"
  | .lesson => "lsn"

inductive VerificationStatus where
  | proposed | verified | rejected | superseded | invalidated
  deriving DecidableEq, Repr

/-- `Provenance` -/
def provenanceFields : List Field := [
  neededField "actor" (lengthBetween 128),
  optUnitField "confidence",
  .optStr "correlation_id" (lengthAtMost 128),
  textsField "evidence_refs" (some []) (·.all (lengthAtMost 512)),
  .optStr "invalidates" (lengthAtMost 128),
  .optStr "primary_source_event_id" isEventId,
  textsField "source_event_ids" none
    (fun ids => !ids.isEmpty && ids.all State.matchesEventId && decide ids.Nodup),
  choiceField "source_type" none ["event_replay", "direct_mutation", "reconciliation",
    "agent_inference", "human_entry", "automated_test"],
  .optStr "supersedes" (lengthAtMost 128),
  neededField "timestamp" State.anyText,
  .optStr "valid_from" State.anyText,
  .optStr "valid_to" State.anyText,
  .optStr "verification_status" (· ∈ ["unverified", "verified", "refuted", "quarantined"])]

/-- `ENTITY_TYPE_TO_MODEL`: the fields of each model but its provenance. -/
def SemanticEntityType.fields : SemanticEntityType → List Field
  | .fact => [
      choiceField "category" (some "technical")
        ["domain", "technical", "organizational", "environmental", "historical"],
      neededField "created_at" State.anyText,
      neededField "fact_id" (State.isEntityId "fct_"),
      neededField "project_id" isProjectId,
      neededField "statement" (lengthBetween 2048),
      .optStr "updated_at" State.anyText,
      .optStr "verification_method" (lengthAtMost 256),
      .optStr "verified_at" State.anyText]
  | .decision => [
      neededField "created_at" State.anyText,
      neededField "decision_id" (lengthFrom 2 128),
      neededField "decision_ref_id" (State.isEntityId "dref_"),
      neededField "project_id" isProjectId,
      .optStr "receipt_ref" (lengthAtMost 256),
      textField "relation" "governs" (lengthBetween 128),
      choiceField "status" none ["proposed", "pending", "accepted", "rejected", "superseded"],
      .optStr "task_id" (lengthAtMost 128),
      .optStr "updated_at" State.anyText]
  | .assumption => [
      neededField "assumption_id" (State.isEntityId "asm_"),
      unitField "confidence",
      neededField "created_at" State.anyText,
      .optStr "invalidated_by" (lengthAtMost 128),
      neededField "project_id" isProjectId,
      textField "rationale" "" (lengthAtMost 4096),
      neededField "statement" (lengthBetween 1024),
      choiceField "status" none ["valid", "invalidated", "confirmed"],
      .optStr "validated_at" State.anyText]
  | .hypothesis => [
      unitField "confidence",
      neededField "created_at" State.anyText,
      neededField "hypothesis_id" (State.isEntityId "hyp_"),
      neededField "project_id" isProjectId,
      textField "rationale" "" (lengthAtMost 4096),
      neededField "statement" (lengthBetween 2048),
      choiceField "status" none ["proposed", "testing", "validated", "refuted", "abandoned"],
      .optStr "updated_at" State.anyText,
      textField "validation_criteria" "" (lengthAtMost 2048)]
  | .risk => [
      neededField "created_at" State.anyText,
      textField "description" "" (lengthAtMost 4096),
      choiceField "impact" none ["low", "medium", "high", "critical"],
      textField "mitigation_plan" "" (lengthAtMost 4096),
      neededField "owner" (lengthBetween 128),
      choiceField "probability" none ["low", "medium", "high"],
      neededField "project_id" isProjectId,
      .strList "related_task_ids" (some []),
      neededField "risk_id" (State.isEntityId "rsk_"),
      choiceField "status" none ["identified", "mitigated", "materialized", "retired"],
      neededField "title" (lengthBetween 256),
      neededField "updated_at" State.anyText]
  | .issue => [
      .strList "blocking_task_ids" (some []),
      neededField "created_at" State.anyText,
      textField "description" "" (lengthAtMost 4096),
      neededField "issue_id" (State.isEntityId "iss_"),
      neededField "project_id" isProjectId,
      .optStr "resolution" (lengthAtMost 4096),
      .optStr "resolved_at" State.anyText,
      choiceField "severity" none ["minor", "major", "critical", "blocker"],
      choiceField "status" none ["open", "investigating", "resolved", "closed"],
      neededField "title" (lengthBetween 256)]
  | .dependency => [
      neededField "created_at" State.anyText,
      neededField "dependency_id" (State.isEntityId "dep_"),
      choiceField "dependency_kind" none ["blocks", "blocked_by", "relates_to", "requires"],
      .optStr "external_ref" (lengthAtMost 512),
      neededField "project_id" isProjectId,
      neededField "source_id" (lengthBetween 128),
      choiceField "status" none ["pending", "satisfied", "broken"],
      neededField "target_id" (lengthBetween 128),
      choiceField "target_type" none ["task", "decision", "artifact", "project", "external"]]
  | .observation => [
      optUnitField "confidence",
      neededField "content" (lengthBetween 4096),
      textField "context" "" (lengthAtMost 2048),
      neededField "created_at" State.anyText,
      neededField "observation_id" (State.isEntityId "obs_"),
      neededField "observed_at" State.anyText,
      textField "observer" "" (lengthAtMost 128),
      neededField "project_id" isProjectId]
  | .lesson => [
      .strList "applies_to" (some []),
      choiceField "category" none
        ["process", "technical", "architecture", "coordination", "quality", "security"],
      neededField "created_at" State.anyText,
      neededField "lesson_id" (State.isEntityId "lsn_"),
      neededField "project_id" isProjectId,
      neededField "recommendation" (lengthBetween 4096),
      neededField "summary" (lengthBetween 4096),
      neededField "title" (lengthBetween 256)]

/-- `value is None` -/
def isNone : Value → Bool
  | .null => true
  | _ => false

/-- `exclude_none=True`: a model leaves out its fields that are `None`. -/
def excludeNone (values : Dict) : Dict := values.filter fun item => !isNone item.2

/-- `Provenance(...).model_dump(exclude_none=True)` -/
def makeProvenance (items : List (String × Value)) : Except Exn Dict :=
  (validate provenanceFields (.dict (dictFrom items))).map excludeNone

/-- `Model(provenance=provenance, ...).model_dump(exclude_none=True)`: a provenance that is an
instance already is not validated again. -/
def makeEntity (entityType : SemanticEntityType) (provenance : Dict)
    (items : List (String × Value)) : Except Exn Dict := do
  let values ← validate entityType.fields (.dict (dictFrom items))
  return setItem "provenance" (.dict provenance) (excludeNone values)

def readProvenance (d : Dict) : Except Exn Dict :=
  match d.lookup "provenance" with
  | some value => validate provenanceFields value
  | none => .error (missingField "provenance")

/-- `Model.model_validate(d).model_dump(exclude_none=True)` -/
def modelValidate (entityType : SemanticEntityType) (d : Dict) : Except Exn Dict := do
  let provenance ← readProvenance d
  let values ← validate entityType.fields (.dict (d.filter (·.1 ≠ "provenance")))
  return setItem "provenance" (.dict (excludeNone provenance)) (excludeNone values)

/-- `generate_deterministic_entity_id` -/
def generateDeterministicEntityId [PythonText] (projectId : String)
    (entityType : SemanticEntityType) (coreContent : String) : String :=
  let normalizedContent := PythonText.lower (State.stripText coreContent)
  let text := projectId ++ ":" ++ entityType.value ++ ":" ++ normalizedContent
  let digest := Sha256.hexdigest (Utf8.encode text.toList)
  entityType.idPrefix ++ "_" ++ String.ofList (digest.toList.take 16)

/-! ## Candidates -/

inductive CandidateSource where
  | structuredEvent | modelExtraction
  deriving DecidableEq, Repr

structure SemanticEntityCandidate where
  entityType : SemanticEntityType
  entityId : String
  entity : Dict
  verificationStatus : VerificationStatus
  source : CandidateSource
  confidence : Double
  metadata : Dict

/-- What `prov.get` reads; a dict with other keys than strings has nothing under a string. -/
def asDict : Value → Except Exn Dict
  | .dict items => .ok items
  | .keyed .. => .ok []
  | _ => .error ⟨"AttributeError", "object has no attribute 'get'"⟩

/-- A text that is not one of those allowed is replaced. -/
def ensureText (key : String) (allowed : List String) (text : String) (prov : Dict) : Dict :=
  if State.isChoice allowed (getItem prov key) then prov else setItem key (.str text) prov

/-- The provenance of a model extraction. -/
def unverified (prov : Dict) : Dict :=
  ensureText "source_type" ["agent_inference"] "agent_inference"
    (ensureText "verification_status" ["unverified", "quarantined"] "unverified" prov)

/-- `enforce_model_extraction_invariants` -/
def SemanticEntityCandidate.enforce (c : SemanticEntityCandidate) : SemanticEntityCandidate :=
  match c.source with
  | .structuredEvent => c
  | .modelExtraction =>
      { c with
        verificationStatus := .proposed
        entity := match (c.entity.lookup "provenance").map asDict with
          | some (.ok prov) => setItem "provenance" (.dict (unverified prov)) c.entity
          | _ => c.entity }

/-- `SemanticEntityCandidate(...)` -/
def SemanticEntityCandidate.make (c : SemanticEntityCandidate) :
    Except Exn SemanticEntityCandidate := do
  raiseIf (State.inUnit c.confidence = false) (invalidField "confidence")
  return c.enforce

/-! ## What the constructors keep -/

section
omit [LaxFloat]
variable {values : Dict}

theorem lookup_excludeNone (hnodup : (values.map Prod.fst).Nodup) (name : String) :
    (excludeNone values).lookup name =
      (values.lookup name).filter fun value => !isNone value := by
  unfold excludeNone
  induction values with
  | nil => rfl
  | cons item values ih =>
      obtain ⟨key, value⟩ := item
      rw [List.map_cons, List.nodup_cons] at hnodup
      have hrest := ih hnodup.2
      rw [List.filter_cons, lookup_cons]
      by_cases hkey : name = key
      · subst hkey
        rw [if_pos rfl, Option.filter_some]
        by_cases hnull : (!isNone value) = true
        · rw [if_pos hnull, if_pos hnull, lookup_cons, if_pos rfl]
        · rw [if_neg hnull, if_neg hnull, hrest]
          have hnone : values.lookup name = none := by
            by_contra hsome
            obtain ⟨v, hv⟩ := Option.ne_none_iff_exists'.mp hsome
            exact hnodup.1 (List.mem_map.mpr ⟨_, mem_of_lookup hv, rfl⟩)
          rw [hnone, Option.filter_none]
      · rw [if_neg hkey]
        split_ifs with hnull
        · rw [lookup_cons, if_neg hkey, hrest]
        · exact hrest

theorem getItem_excludeNone (hnodup : (values.map Prod.fst).Nodup) (name : String) :
    getItem (excludeNone values) name = getItem values name := by
  rw [getItem, getItem, lookup_excludeNone hnodup]
  cases values.lookup name with
  | none => rfl
  | some value => cases value <;> rfl

end

theorem names_provenanceFields : provenanceFields.map Field.name = ["actor", "confidence",
    "correlation_id", "evidence_refs", "invalidates", "primary_source_event_id",
    "source_event_ids", "source_type", "supersedes", "timestamp", "valid_from", "valid_to",
    "verification_status"] := rfl

theorem nodup_provenanceFields : (provenanceFields.map Field.name).Nodup := by
  rw [names_provenanceFields]
  decide

theorem names_fields (entityType : SemanticEntityType) :
    (entityType.fields.map Field.name).Nodup ∧
      "provenance" ∉ entityType.fields.map Field.name := by
  cases entityType <;> simp [SemanticEntityType.fields, choiceField, neededField, textField,
    unitField, optUnitField, Field.str, Field.optStr, Field.strList]

/-- A field of a provenance that was made has the value that it reads of its argument. -/
theorem getItem_makeProvenance {items : List (String × Value)} {prov : Dict}
    (h : makeProvenance items = .ok prov) (hnodup : (items.map Prod.fst).Nodup) {field : Field}
    (hfield : field ∈ provenanceFields) {given value : Value} (hgiven : (field.name, given) ∈ items)
    (hread : field.read given = some value) : getItem prov field.name = value := by
  obtain ⟨values, hvalid, rfl⟩ := map_eq_ok.mp h
  have hnames := names_of_validate hvalid
  rw [getItem_excludeNone (hnames ▸ nodup_provenanceFields)]
  have hvalue := read_of_validate hvalid nodup_provenanceFields hfield
    (lookup_dictFrom hnodup hgiven)
  rw [hread] at hvalue
  exact (Option.some.inj hvalue).symm

omit [LaxFloat] in
/-- An optional text is taken as it is given. -/
theorem getItem_optStr {fields : List Field} {items values : Dict}
    (h : validate fields (.dict items) = .ok values) (hnodup : (fields.map Field.name).Nodup)
    {name : String} {ok : String → Bool} (hfield : Field.optStr name ok ∈ fields) :
    getItem values name = getItem items name := by
  obtain ⟨d, hd, -, hread⟩ := validate_ok.mp h
  cases hd
  obtain ⟨value, hvalue, htake⟩ := lookup_of_readFields hread hnodup hfield
  change values.lookup name = some value at hvalue
  rw [getItem, hvalue, getItem]
  unfold Field.take at htake
  change (match items.lookup name with | some _ => _ | none => _) = _ at htake
  cases hgiven : items.lookup name with
  | none =>
      rw [hgiven] at htake
      cases htake
      rfl
  | some given =>
      rw [hgiven] at htake
      dsimp only at htake
      split at htake
      · rename_i taken hread
        cases htake
        exact (readOptStr_ok hread).1
      · cases htake

theorem makeEntity_ok {entityType : SemanticEntityType} {provenance entity : Dict}
    {items : List (String × Value)} (h : makeEntity entityType provenance items = .ok entity) :
    ∃ values, validate entityType.fields (.dict (dictFrom items)) = .ok values ∧
      entity = setItem "provenance" (.dict provenance) (excludeNone values) := by
  obtain ⟨values, hvalid, h⟩ := bind_eq_ok.mp h
  cases h
  exact ⟨values, hvalid, rfl⟩

theorem modelValidate_ok {entityType : SemanticEntityType} {d entity : Dict}
    (h : modelValidate entityType d = .ok entity) : ∃ value provenance values,
      d.lookup "provenance" = some value ∧ validate provenanceFields value = .ok provenance ∧
      validate entityType.fields (.dict (d.filter (·.1 ≠ "provenance"))) = .ok values ∧
      entity = setItem "provenance" (.dict (excludeNone provenance)) (excludeNone values) := by
  obtain ⟨provenance, hprov, h⟩ := bind_eq_ok.mp h
  obtain ⟨values, hvalid, h⟩ := bind_eq_ok.mp h
  cases h
  unfold readProvenance at hprov
  split at hprov
  · rename_i value hvalue
    exact ⟨value, provenance, values, hvalue, hprov, hvalid, rfl⟩
  · cases hprov

omit [LaxFloat] in
theorem make_ok {c made : SemanticEntityCandidate} :
    c.make = .ok made ↔ State.inUnit c.confidence = true ∧ c.enforce = made := by
  rw [SemanticEntityCandidate.make, bind_eq_ok]
  simp [pure, Except.pure]

omit [LaxFloat] in
theorem isChoice_ensureText {allowed : List String} {text : String} (htext : text ∈ allowed)
    (key : String) (prov : Dict) :
    State.isChoice allowed (getItem (ensureText key allowed text prov) key) = true := by
  unfold ensureText
  split_ifs with h
  · exact h
  · rw [getItem_setItem, if_pos rfl]
    exact decide_eq_true htext

omit [LaxFloat] in
theorem getItem_ensureText {key name : String} (hne : name ≠ key) (allowed : List String)
    (text : String) (prov : Dict) :
    getItem (ensureText key allowed text prov) name = getItem prov name := by
  unfold ensureText
  split_ifs
  · rfl
  · rw [getItem_setItem, if_neg hne]

omit [LaxFloat] in
theorem provenance_setItem (c : SemanticEntityCandidate) (prov : Dict) :
    asDict (getItemD (setItem "provenance" (.dict prov) c.entity) "provenance" (.dict [])) =
      .ok prov := by
  rw [getItemD, lookup_setItem, if_pos rfl]
  rfl

end PowerFramework.Semantic
