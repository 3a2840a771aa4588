import PowerFramework.Semantic.Parse
/-!
# What the parser gives

Every structured candidate carries the fields its model has validated and the provenance of its
event, and is verified only on the ledger's authority.
-/

set_option linter.unusedSectionVars false

namespace PowerFramework.Semantic

open Lib Lib.Failure Lib.Json Ledger PowerFramework.Task

variable [LaxFloat]

/-- The provenance of the event, with the link of a decision or the confidence of an observation. -/
inductive Stems (p : Parsing) : Dict → Prop where
  | own : Stems p p.provenance
  | superseding (link : Value) (h : link.truthy = true) :
      Stems p (setItem "supersedes" link p.provenance)
  | observed (label : String) (confidence : Double)
      (hlabel : label = "quarantined" ∨ label = provStatus p.authorized)
      (hconfidence : State.inUnit confidence = true) :
      Stems p (setItem "verification_status" (.str label)
        (setItem "confidence" (.float confidence) p.provenance))

structure ParsedFrom (p : Parsing) (c : SemanticEntityCandidate) : Prop where
  source : c.source = .structuredEvent
  status : c.verificationStatus = .verified → p.authorized = true
  confidence : State.inUnit c.confidence = true
  entity : ∃ prov values items, Stems p prov ∧
    validate c.entityType.fields (.dict items) = .ok values ∧
    c.entity = setItem "provenance" (.dict prov) (excludeNone values)

section
variable {p : Parsing} {c : SemanticEntityCandidate}

theorem structuredCandidate_ok {entityType : SemanticEntityType} {entityId : Value}
    {prov metadata : Dict} {status : VerificationStatus} {confidence : Double}
    {items : List (String × Value)}
    (h : structuredCandidate entityType entityId prov status confidence metadata items = .ok c) :
    ∃ id entity, entityId = .str id ∧ makeEntity entityType prov items = .ok entity ∧
      State.inUnit confidence = true ∧
      c = ⟨entityType, id, entity, status, .structuredEvent, confidence, metadata⟩ := by
  obtain ⟨entity, hentity, h⟩ := bind_eq_ok.mp h
  cases entityId with
  | str id =>
      obtain ⟨hunit, hmade⟩ := make_ok.mp h
      exact ⟨id, entity, rfl, hentity, hunit, hmade.symm⟩
  | _ => cases h

theorem parsedFrom_structured {entityType : SemanticEntityType} {entityId : Value}
    {prov metadata : Dict} {status : VerificationStatus} {confidence : Double}
    {items : List (String × Value)} (hprov : State.inUnit confidence = true → Stems p prov)
    (hstatus : status = .verified → p.authorized = true)
    (h : structuredCandidate entityType entityId prov status confidence metadata items = .ok c) :
    ParsedFrom p c := by
  obtain ⟨id, entity, -, hentity, hunit, rfl⟩ := structuredCandidate_ok h
  obtain ⟨values, hvalid, heq⟩ := makeEntity_ok hentity
  exact ⟨rfl, hstatus, hunit, prov, values, _, hprov hunit, hvalid, heq⟩

theorem candStatus_verified (h : p.candStatus = .verified) : p.authorized = true := by
  unfold Parsing.candStatus at h
  split_ifs at h with hauthorized
  exact hauthorized

theorem parsedFrom_candidate {entityType : SemanticEntityType} {entityId : Value}
    {items : List (String × Value)} (h : p.candidate entityType entityId items = .ok c) :
    ParsedFrom p c :=
  parsedFrom_structured (fun _ => .own) candStatus_verified h

end

variable [PythonRe] [PythonRepr] [PythonText] {p : Parsing} {c : SemanticEntityCandidate}

theorem parsedFrom_risk (h : p.parseRisk = .ok c) : ParsedFrom p c := by
  obtain ⟨title, -, h⟩ := bind_eq_ok.mp h
  obtain ⟨probability, -, h⟩ := bind_eq_ok.mp h
  obtain ⟨impact, -, h⟩ := bind_eq_ok.mp h
  obtain ⟨id, -, h⟩ := bind_eq_ok.mp h
  exact parsedFrom_candidate h

theorem parsedFrom_assumption (h : p.parseAssumption = .ok c) : ParsedFrom p c := by
  obtain ⟨statement, -, h⟩ := bind_eq_ok.mp h
  obtain ⟨id, -, h⟩ := bind_eq_ok.mp h
  obtain ⟨confidence, -, h⟩ := bind_eq_ok.mp h
  refine parsedFrom_structured (fun _ => .own) ?_ h
  intro hstatus
  split_ifs at hstatus
  exact candStatus_verified hstatus

theorem parsedFrom_issue (h : p.parseIssue = .ok c) : ParsedFrom p c := by
  obtain ⟨title, -, h⟩ := bind_eq_ok.mp h
  obtain ⟨severity, -, h⟩ := bind_eq_ok.mp h
  obtain ⟨id, -, h⟩ := bind_eq_ok.mp h
  exact parsedFrom_candidate h

theorem parsedFrom_dependency (h : p.parseDependency = .ok c) : ParsedFrom p c := by
  obtain ⟨source, -, h⟩ := bind_eq_ok.mp h
  obtain ⟨target, -, h⟩ := bind_eq_ok.mp h
  obtain ⟨kind, -, h⟩ := bind_eq_ok.mp h
  obtain ⟨id, -, h⟩ := bind_eq_ok.mp h
  exact parsedFrom_candidate h

theorem parsedFrom_decision (h : p.parseDecision = .ok c) : ParsedFrom p c := by
  obtain ⟨decision, -, h⟩ := bind_eq_ok.mp h
  obtain ⟨id, -, h⟩ := bind_eq_ok.mp h
  refine parsedFrom_structured (fun _ => ?_) ?_ h
  · split_ifs with hlink
    · exact .superseding _ hlink
    · exact .own
  · intro hstatus
    split_ifs at hstatus
    exact candStatus_verified hstatus

theorem parsedFrom_fact {given : Value} (h : p.parseFact given = .ok c) : ParsedFrom p c := by
  obtain ⟨statement, -, h⟩ := bind_eq_ok.mp h
  exact parsedFrom_candidate h

theorem parsedFrom_hypothesis {given : Value} (h : p.parseHypothesis given = .ok c) :
    ParsedFrom p c := by
  obtain ⟨statement, -, h⟩ := bind_eq_ok.mp h
  obtain ⟨confidence, -, h⟩ := bind_eq_ok.mp h
  refine parsedFrom_structured (fun _ => .own) ?_ h
  nofun

theorem parsedFrom_observation {injected : Bool} (h : p.parseObservation = .ok (c, injected)) :
    ParsedFrom p c := by
  obtain ⟨content, -, h⟩ := bind_eq_ok.mp h
  obtain ⟨id, -, h⟩ := bind_eq_ok.mp h
  obtain ⟨confidence, -, h⟩ := bind_eq_ok.mp h
  obtain ⟨candidate, hcandidate, h⟩ := bind_eq_ok.mp h
  cases h
  refine parsedFrom_structured (fun hunit => .observed _ _ ?_ hunit) ?_ hcandidate
  · split_ifs
    · exact Or.inl rfl
    · exact Or.inr rfl
  · intro hstatus
    split_ifs at hstatus
    exact candStatus_verified hstatus

theorem parsedFrom_lesson (h : p.parseLesson = .ok c) : ParsedFrom p c := by
  obtain ⟨title, -, h⟩ := bind_eq_ok.mp h
  obtain ⟨summary, -, h⟩ := bind_eq_ok.mp h
  obtain ⟨id, -, h⟩ := bind_eq_ok.mp h
  exact parsedFrom_candidate h

theorem parsedFrom_single {candidate : Except Exn SemanticEntityCandidate}
    {candidates : List SemanticEntityCandidate} {injected : Bool}
    (hcandidate : ∀ c, candidate = .ok c → ParsedFrom p c)
    (h : (candidate.map fun candidate => ([candidate], false)) = .ok (candidates, injected)) :
    candidates.length ≤ 1 ∧ ∀ c ∈ candidates, ParsedFrom p c := by
  obtain ⟨candidate, hok, h⟩ := map_eq_ok.mp h
  cases h
  exact ⟨le_rfl, fun c hc => List.mem_singleton.mp hc ▸ hcandidate candidate hok⟩

/-- An event gives at most one structured candidate. -/
theorem parsedFrom_run {candidates : List SemanticEntityCandidate} {injected : Bool}
    (h : p.run = .ok (candidates, injected)) :
    candidates.length ≤ 1 ∧ ∀ c ∈ candidates, ParsedFrom p c := by
  unfold Parsing.run at h
  dsimp only at h
  split at h
  any_goals exact parsedFrom_single (fun c => parsedFrom_risk) h
  any_goals exact parsedFrom_single (fun c => parsedFrom_assumption) h
  any_goals exact parsedFrom_single (fun c => parsedFrom_issue) h
  any_goals exact parsedFrom_single (fun c => parsedFrom_dependency) h
  any_goals exact parsedFrom_single (fun c => parsedFrom_decision) h
  any_goals exact parsedFrom_single (fun c => parsedFrom_lesson) h
  · split_ifs at h
    · exact parsedFrom_single (fun c => parsedFrom_fact) h
    · exact parsedFrom_single (fun c => parsedFrom_hypothesis) h
    · obtain ⟨⟨candidate, injected'⟩, hok, h⟩ := map_eq_ok.mp h
      cases h
      exact ⟨le_rfl, fun c hc => List.mem_singleton.mp hc ▸ parsedFrom_observation hok⟩
  · split_ifs at h with hstatement
    · obtain ⟨target, -, h⟩ := bind_eq_ok.mp h
      split_ifs at h
      · exact parsedFrom_single (fun c => parsedFrom_fact) h
      · exact parsedFrom_single (fun c => parsedFrom_hypothesis) h
      · cases h
        exact ⟨Nat.zero_le 1, by simp⟩
    · cases h
      exact ⟨Nat.zero_le 1, by simp⟩

/-- The provenance of the event names it, and is verified on the ledger's authority only. -/
theorem parsing_ok {d : Dict} {authorized : Bool} (h : parsing d authorized = .ok p) :
    p.authorized = authorized ∧
      getItem p.provenance "verification_status" = .str (provStatus authorized) ∧
      ∃ values items, validate provenanceFields (.dict items) = .ok values ∧
        p.provenance = excludeNone values := by
  obtain ⟨projectId, -, h⟩ := bind_eq_ok.mp h
  obtain ⟨eventId, -, h⟩ := bind_eq_ok.mp h
  obtain ⟨actor, -, h⟩ := bind_eq_ok.mp h
  obtain ⟨timestamp, -, h⟩ := bind_eq_ok.mp h
  obtain ⟨payload, -, h⟩ := bind_eq_ok.mp h
  obtain ⟨provenance, hprov, h⟩ := bind_eq_ok.mp h
  cases h
  refine ⟨rfl, ?_, ?_⟩
  · have hfield : Field.optStr "verification_status"
        (· ∈ ["unverified", "verified", "refuted", "quarantined"]) ∈ provenanceFields := by
      simp [provenanceFields]
    have hread : (Field.optStr "verification_status"
        (· ∈ ["unverified", "verified", "refuted", "quarantined"])).read
          (.str (provStatus authorized)) = some (.str (provStatus authorized)) := by
      cases authorized <;> rfl
    exact getItem_makeProvenance hprov (by simp) hfield (by simp [Field.optStr]) hread
  · obtain ⟨values, hvalid, hvalues⟩ := map_eq_ok.mp hprov
    exact ⟨values, _, hvalid, hvalues.symm⟩

theorem parseStructuredEvent_ok {d : Dict} {authorized : Bool}
    {candidates : List SemanticEntityCandidate} {injected : Bool}
    (h : parseStructuredEvent d authorized = .ok (candidates, injected)) : ∃ p,
      parsing d authorized = .ok p ∧ candidates.length ≤ 1 ∧
      ∀ c ∈ candidates, ParsedFrom p c := by
  obtain ⟨p, hp, h⟩ := bind_eq_ok.mp h
  exact ⟨p, hp, parsedFrom_run h⟩

end PowerFramework.Semantic
