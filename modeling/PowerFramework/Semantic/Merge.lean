import PowerFramework.Lib.Grouping
import PowerFramework.Semantic.Extract
/-!
# Deduplication

Candidates of one id are merged: within a batch into the first of them, and the first of a batch
with the last prior candidate.
-/

namespace PowerFramework.Semantic

open Lib Lib.Failure Lib.Json Lib.Run Lib.Grouping Ledger PowerFramework.Task

/-- `dict(value)` -/
def toDict : Value → Except Exn Dict
  | .dict items => .ok items
  | .keyed .. => .ok []
  | value => do
      let items ← value.iterate
      items.foldlM (fun d item => do
        match ← item.iterate with
        | [key, entry] =>
            match ← hashKey key with
            | some key => return setItem key entry d
            | none => return d
        | _ => .error (valueError "dictionary update sequence element has the wrong length")) []

/-- `_downgrade_untrusted_existing_candidate` -/
def downgradeUntrustedExisting (candidate : SemanticEntityCandidate) :
    Except Exn SemanticEntityCandidate := do
  let provenance ← toDict (getItemD candidate.entity "provenance" (.dict []))
  if candidate.verificationStatus ≠ .verified ∧
      (getItem provenance "verification_status").isText "verified" = false then
    return candidate
  else do
    let safeConfidence := candidate.confidence.pyMin half
    let provenance := setItem "confidence" (.float safeConfidence)
      (setItem "verification_status" (.str "unverified") provenance)
    SemanticEntityCandidate.make {
      candidate with
      entity := setItem "provenance" (.dict provenance) candidate.entity
      verificationStatus := .proposed
      confidence := safeConfidence }

/-- `a + b` of two sequences. -/
def concatenated : Value → Value → Except Exn (List Value)
  | .list a, .list b => .ok (a ++ b)
  | .tuple a, .tuple b => .ok (a ++ b)
  | .str a, .str b => .ok ((a ++ b).toList.map fun c => .str (String.singleton c))
  | _, _ => .error (typeError "unsupported operand type(s) for +")

/-- `list(dict.fromkeys(items))` -/
def distinctItems (items : List Value) : Except Exn (List Value) :=
  items.foldlM (fun seen item =>
    if item.hashable then .ok (if seen.any (·.same item) then seen else seen ++ [item])
    else .error (typeError "unhashable type")) []

/-- The distinct items of two provenances under a key. -/
def combined (key : String) (first second : Dict) : Except Exn Value := do
  let items ← concatenated (getItemD first key (.list [])) (getItemD second key (.list []))
  return .list (← distinctItems items)

/-- `{**first, **second}` -/
def overlaid (first second : Dict) : Dict :=
  second.foldl (fun d item => setItem item.1 item.2 d) first

/-- `c.entity.get("provenance", {})` -/
def SemanticEntityCandidate.provenance (c : SemanticEntityCandidate) : Except Exn Dict :=
  asDict (getItemD c.entity "provenance" (.dict []))

/-- The provenance of the first with the events and the evidence of both. -/
def mergedLists (first second : Dict) : Except Exn Dict := do
  let events ← combined "source_event_ids" first second
  let evidence ← combined "evidence_refs" first second
  return setItem "evidence_refs" evidence (setItem "source_event_ids" events first)

/-- A link of the second replaces that of the first. -/
def withLink (key : String) (second merged : Dict) : Dict :=
  let link := getItem second key
  if link.truthy then setItem key link merged else merged

/-- A structured candidate keeps its own fields. -/
def mergeModel (structured model : SemanticEntityCandidate) :
    Except Exn SemanticEntityCandidate := do
  let prov ← structured.provenance
  let modelProv ← model.provenance
  let merged ← mergedLists prov modelProv
  SemanticEntityCandidate.make {
    structured with
    entity := setItem "provenance" (.dict merged) structured.entity
    source := .structuredEvent
    metadata := overlaid model.metadata structured.metadata }

/-- `status_priority` -/
def VerificationStatus.priority : VerificationStatus → Nat
  | .verified => 5
  | .rejected => 4
  | .invalidated => 3
  | .superseded => 2
  | .proposed => 1

def statusChosen (first second : SemanticEntityCandidate) : VerificationStatus :=
  if first.source = .modelExtraction ∧ second.source = .modelExtraction then .proposed
  else if first.verificationStatus.priority ≥ second.verificationStatus.priority then
    first.verificationStatus
  else second.verificationStatus

/-- Two candidates of one source. -/
def mergeSame (first second : SemanticEntityCandidate) : Except Exn SemanticEntityCandidate := do
  let firstProv ← first.provenance
  let secondProv ← second.provenance
  let merged ← mergedLists firstProv secondProv
  let merged := withLink "invalidates" secondProv (withLink "supersedes" secondProv merged)
  SemanticEntityCandidate.make {
    first with
    entity := setItem "provenance" (.dict merged) first.entity
    verificationStatus := statusChosen first second
    confidence := first.confidence.pyMax second.confidence
    metadata := overlaid first.metadata second.metadata }

/-- `_merge_two_candidates` -/
def mergeTwoCandidates (first second : SemanticEntityCandidate) :
    Except Exn SemanticEntityCandidate :=
  match first.source, second.source with
  | .structuredEvent, .modelExtraction => mergeModel first second
  | .modelExtraction, .structuredEvent => mergeModel second first
  | _, _ => mergeSame first second

abbrev CandidatesById := List (String × SemanticEntityCandidate)

structure Deduplication where
  mergedById : CandidatesById := []
  duplicateCount : Nat := 0

/-- One new candidate. -/
def Deduplication.add (existingById : CandidatesById) (d : Deduplication)
    (candidate : SemanticEntityCandidate) : Except Exn Deduplication :=
  let id := candidate.entityId
  match d.mergedById.lookup id with
  | some first => do
      let merged ← mergeTwoCandidates first candidate
      return ⟨put id merged d.mergedById, d.duplicateCount + 1⟩
  | none =>
      match existingById.lookup id with
      | some prior => do
          -- the current event is the source of truth
          let merged ← mergeTwoCandidates candidate prior
          return ⟨put id merged d.mergedById, d.duplicateCount + 1⟩
      | none => return { d with mergedById := put id candidate d.mergedById }

/-- `{c.entity_id: c for c in candidates}` -/
def candidatesById (candidates : List SemanticEntityCandidate) : CandidatesById :=
  candidates.foldl (fun byId c => put c.entityId c byId) []

/-- What a new candidate makes of the one its id holds in the batch, or else before it. -/
def mergedWith (existingById : CandidatesById) (held : Option SemanticEntityCandidate)
    (candidate : SemanticEntityCandidate) : Except Exn SemanticEntityCandidate :=
  match held, existingById.lookup candidate.entityId with
  | some first, _ => mergeTwoCandidates first candidate
  | none, some prior => mergeTwoCandidates candidate prior
  | none, none => .ok candidate

/-- `_deduplicate_candidates` -/
def deduplicateCandidates (new existing : List SemanticEntityCandidate) :
    Except Exn (List SemanticEntityCandidate × Nat) := do
  let d ← new.foldlM (Deduplication.add (candidatesById existing)) {}
  return (d.mergedById.map Prod.snd, d.duplicateCount)

/-! ## What is merged -/

section
variable {first second merged : SemanticEntityCandidate}

theorem mergedLists_ok {a b prov : Dict} (h : mergedLists a b = .ok prov) :
    ∃ events evidence, combined "source_event_ids" a b = .ok events ∧
      combined "evidence_refs" a b = .ok evidence ∧
      prov = setItem "evidence_refs" evidence (setItem "source_event_ids" events a) := by
  obtain ⟨events, hevents, h⟩ := bind_eq_ok.mp h
  obtain ⟨evidence, hevidence, h⟩ := bind_eq_ok.mp h
  cases h
  exact ⟨events, evidence, hevents, hevidence, rfl⟩

theorem getItem_mergedLists {a b prov : Dict} (h : mergedLists a b = .ok prov) {key : String}
    (hevents : key ≠ "source_event_ids") (hevidence : key ≠ "evidence_refs") :
    getItem prov key = getItem a key := by
  obtain ⟨events, evidence, -, -, rfl⟩ := mergedLists_ok h
  rw [getItem_setItem, if_neg hevidence, getItem_setItem, if_neg hevents]

theorem getItem_withLink {link key : String} (hne : key ≠ link) (second prov : Dict) :
    getItem (withLink link second prov) key = getItem prov key := by
  unfold withLink
  dsimp only
  split_ifs
  · rw [getItem_setItem, if_neg hne]
  · rfl

theorem mergeModel_ok {structured model : SemanticEntityCandidate}
    (h : mergeModel structured model = .ok merged) : ∃ prov modelProv lists,
      structured.provenance = .ok prov ∧ model.provenance = .ok modelProv ∧
      mergedLists prov modelProv = .ok lists ∧
      SemanticEntityCandidate.make {
        structured with
        entity := setItem "provenance" (.dict lists) structured.entity
        source := .structuredEvent
        metadata := overlaid model.metadata structured.metadata } = .ok merged := by
  obtain ⟨prov, hprov, h⟩ := bind_eq_ok.mp h
  obtain ⟨modelProv, hmodel, h⟩ := bind_eq_ok.mp h
  obtain ⟨lists, hlists, h⟩ := bind_eq_ok.mp h
  exact ⟨prov, modelProv, lists, hprov, hmodel, hlists, h⟩

theorem mergeSame_ok (h : mergeSame first second = .ok merged) : ∃ firstProv secondProv lists,
      first.provenance = .ok firstProv ∧ second.provenance = .ok secondProv ∧
      mergedLists firstProv secondProv = .ok lists ∧
      SemanticEntityCandidate.make {
        first with
        entity := setItem "provenance" (.dict
          (withLink "invalidates" secondProv (withLink "supersedes" secondProv lists))) first.entity
        verificationStatus := statusChosen first second
        confidence := first.confidence.pyMax second.confidence
        metadata := overlaid first.metadata second.metadata } = .ok merged := by
  obtain ⟨firstProv, hfirst, h⟩ := bind_eq_ok.mp h
  obtain ⟨secondProv, hsecond, h⟩ := bind_eq_ok.mp h
  obtain ⟨lists, hlists, h⟩ := bind_eq_ok.mp h
  exact ⟨firstProv, secondProv, lists, hfirst, hsecond, hlists, h⟩

/-- How two candidates are merged, by their sources. -/
theorem mergeTwoCandidates_cases (h : mergeTwoCandidates first second = .ok merged) :
    (first.source = .structuredEvent ∧ second.source = .modelExtraction ∧
        mergeModel first second = .ok merged) ∨
      (first.source = .modelExtraction ∧ second.source = .structuredEvent ∧
        mergeModel second first = .ok merged) ∨
      (first.source = second.source ∧ mergeSame first second = .ok merged) := by
  unfold mergeTwoCandidates at h
  cases hfirst : first.source <;> cases hsecond : second.source <;> rw [hfirst, hsecond] at h
  · exact Or.inr (Or.inr ⟨rfl, h⟩)
  · exact Or.inl ⟨rfl, rfl, h⟩
  · exact Or.inr (Or.inl ⟨rfl, rfl, h⟩)
  · exact Or.inr (Or.inr ⟨rfl, h⟩)

end

theorem mem_candidatesById {candidates : List SemanticEntityCandidate}
    {item : String × SemanticEntityCandidate} (h : item ∈ candidatesById candidates) :
    item.2 ∈ candidates ∧ item.1 = item.2.entityId := by
  have hfold : ∀ (candidates : List SemanticEntityCandidate) (byId : CandidatesById),
      item ∈ candidates.foldl (fun byId c => put c.entityId c byId) byId →
        (item.2 ∈ candidates ∧ item.1 = item.2.entityId) ∨ item ∈ byId := by
    intro candidates
    induction candidates with
    | nil => exact fun byId hmem => Or.inr hmem
    | cons candidate candidates ih =>
        intro byId hmem
        rcases ih _ hmem with ⟨hmem, hkey⟩ | hmem
        · exact Or.inl ⟨List.mem_cons_of_mem _ hmem, hkey⟩
        · rcases mem_put hmem with rfl | hmem
          · exact Or.inl ⟨List.mem_cons_self, rfl⟩
          · exact Or.inr hmem
  exact (hfold candidates [] h).resolve_right List.not_mem_nil

/-- The loop gathers the candidates under their ids. -/
theorem add_mergedById (existingById : CandidatesById) (d : Deduplication)
    (candidate : SemanticEntityCandidate) :
    (d.add existingById candidate).map Deduplication.mergedById =
      regroup (mergedWith existingById) SemanticEntityCandidate.entityId d.mergedById candidate := by
  have hmap : ∀ (x : Except Exn SemanticEntityCandidate) (f : SemanticEntityCandidate → Deduplication)
      (g : SemanticEntityCandidate → CandidatesById), (∀ c, (f c).mergedById = g c) →
        (x >>= fun c => pure (f c)).map Deduplication.mergedById = x.map g := by
    intro x f g hfg
    cases x with
    | error exn => rfl
    | ok c => exact congrArg Except.ok (hfg c)
  unfold Deduplication.add regroup mergedWith
  dsimp only
  cases d.mergedById.lookup candidate.entityId with
  | some first => exact hmap _ _ _ fun _ => rfl
  | none =>
      cases existingById.lookup candidate.entityId with
      | some prior => exact hmap _ _ _ fun _ => rfl
      | none => rfl

theorem deduplicateCandidates_ok {new existing deduped : List SemanticEntityCandidate} {count : Nat}
    (h : deduplicateCandidates new existing = .ok (deduped, count)) : ∃ byId,
      new.foldlM (regroup (mergedWith (candidatesById existing)) SemanticEntityCandidate.entityId)
        [] = .ok byId ∧ deduped = byId.map Prod.snd := by
  obtain ⟨d, hd, h⟩ := bind_eq_ok.mp h
  cases h
  refine ⟨d.mergedById, ?_, rfl⟩
  have hgeneral : ∀ (candidates : List SemanticEntityCandidate) (s d : Deduplication),
      candidates.foldlM (Deduplication.add (candidatesById existing)) s = .ok d →
        candidates.foldlM (regroup (mergedWith (candidatesById existing))
          SemanticEntityCandidate.entityId) s.mergedById = .ok d.mergedById := by
    intro candidates
    induction candidates with
    | nil =>
        intro s d h
        rw [foldlM_nil_eq_ok] at h
        rw [h]
        rfl
    | cons candidate candidates ih =>
        intro s d h
        obtain ⟨mid, hadd, h⟩ := foldlM_cons_eq_ok.mp h
        refine foldlM_cons_eq_ok.mpr ⟨mid.mergedById, ?_, ih mid d h⟩
        rw [← add_mergedById, hadd]
        rfl
  exact hgeneral new {} d hd

/-- What holds of the candidates of a batch, and survives their merging among themselves and with
the prior ones, holds of all that is returned. -/
theorem forall_deduplicated {P Q : SemanticEntityCandidate → Prop}
    {new existing deduped : List SemanticEntityCandidate} {count : Nat}
    (hnew : ∀ c ∈ new, P c) (hexisting : ∀ c ∈ existing, Q c)
    (hmerge : ∀ first second merged, P first → P second →
      mergeTwoCandidates first second = .ok merged → P merged)
    (hprior : ∀ first prior merged, P first → Q prior →
      mergeTwoCandidates first prior = .ok merged → P merged)
    (h : deduplicateCandidates new existing = .ok (deduped, count)) : ∀ c ∈ deduped, P c := by
  obtain ⟨byId, hfold, rfl⟩ := deduplicateCandidates_ok h
  have hall : ∀ item ∈ byId, P item.2 := by
    refine forall_regrouped (P := P) ?_ (by simp) hfold
    intro held candidate merged hcandidate hheld hstep
    have hP := hnew candidate hcandidate
    unfold mergedWith at hstep
    cases held with
    | some first => exact hmerge first candidate merged (hheld first rfl) hP hstep
    | none =>
        cases hlookup : (candidatesById existing).lookup candidate.entityId with
        | none =>
            rw [hlookup] at hstep
            cases hstep
            exact hP
        | some prior =>
            rw [hlookup] at hstep
            have hQ := hexisting prior (mem_candidatesById (mem_of_lookup hlookup)).1
            exact hprior candidate prior merged hP hQ hstep
  intro c hc
  obtain ⟨item, hitem, rfl⟩ := List.mem_map.mp hc
  exact hall item hitem

def withPrior (first : SemanticEntityCandidate) :
    Option SemanticEntityCandidate → Except Exn SemanticEntityCandidate
  | some prior => mergeTwoCandidates first prior
  | none => .ok first

/-- What the new candidates of one id are merged into. -/
def mergeGroup (prior : Option SemanticEntityCandidate) :
    List SemanticEntityCandidate → Except Exn (Option SemanticEntityCandidate)
  | [] => .ok none
  | first :: rest => do
      let held ← withPrior first prior
      return some (← rest.foldlM mergeTwoCandidates held)

theorem mergeGroup_cons {prior : Option SemanticEntityCandidate} {first : SemanticEntityCandidate}
    {rest : List SemanticEntityCandidate} {merged : Option SemanticEntityCandidate} :
    mergeGroup prior (first :: rest) = .ok merged ↔ ∃ held last,
      withPrior first prior = .ok held ∧ rest.foldlM mergeTwoCandidates held = .ok last ∧ merged = some last := by
  rw [mergeGroup, bind_eq_ok]
  constructor
  · rintro ⟨held, hheld, h⟩
    obtain ⟨last, hlast, h⟩ := bind_eq_ok.mp h
    cases h
    exact ⟨held, last, hheld, hlast, rfl⟩
  · rintro ⟨held, last, hheld, hlast, rfl⟩
    exact ⟨held, hheld, bind_eq_ok.mpr ⟨last, hlast, rfl⟩⟩

theorem combine_held (existingById : CandidatesById) (held : SemanticEntityCandidate)
    (candidates : List SemanticEntityCandidate) :
    candidates.foldlM (combine (mergedWith existingById)) (some held) =
      (candidates.foldlM mergeTwoCandidates held).map some := by
  induction candidates generalizing held with
  | nil => rfl
  | cons candidate candidates ih =>
      rw [List.foldlM_cons, List.foldlM_cons, combine]
      change (mergeTwoCandidates held candidate).map some >>= _ = _
      cases mergeTwoCandidates held candidate with
      | error exn => rfl
      | ok merged => exact ih merged

/-- What is returned under an id is what the new candidates with the id are merged into. -/
theorem lookup_deduplicated {new existing deduped : List SemanticEntityCandidate} {count : Nat}
    (h : deduplicateCandidates new existing = .ok (deduped, count)) : ∃ byId : CandidatesById,
      deduped = byId.map Prod.snd ∧ (byId.map Prod.fst).Nodup ∧
      ∀ id, mergeGroup ((candidatesById existing).lookup id) (new.filter (·.entityId = id)) =
        .ok (byId.lookup id) := by
  obtain ⟨byId, hfold, rfl⟩ := deduplicateCandidates_ok h
  refine ⟨byId, rfl, nodup_keys_regrouped (by simp) hfold, ?_⟩
  intro id
  have hid := lookup_regrouped hfold id
  cases hgroup : new.filter (·.entityId = id) with
  | nil =>
      rw [hgroup] at hid
      exact hid
  | cons first rest =>
      have hfirst : first.entityId = id := by
        have hmem : first ∈ new.filter (·.entityId = id) := hgroup ▸ List.mem_cons_self
        simpa using (List.mem_filter.mp hmem).2
      rw [hgroup] at hid
      obtain ⟨held, hheld, hrest⟩ := foldlM_cons_eq_ok.mp hid
      obtain ⟨one, hone, rfl⟩ := map_eq_ok.mp hheld
      rw [combine_held] at hrest
      obtain ⟨last, hlast, hlookup⟩ := map_eq_ok.mp hrest
      refine mergeGroup_cons.mpr ⟨one, last, ?_, hlast, hlookup.symm⟩
      rw [← hone]
      unfold mergedWith
      rw [hfirst]
      cases (candidatesById existing).lookup id with
      | none => rfl
      | some prior => rfl

theorem entityId_merged {first second merged : SemanticEntityCandidate}
    (hids : first.entityId = second.entityId)
    (h : mergeTwoCandidates first second = .ok merged) : merged.entityId = first.entityId := by
  have henforce : ∀ {raw made : SemanticEntityCandidate}, raw.make = .ok made →
      made.entityId = raw.entityId := by
    intro raw made hmake
    obtain ⟨-, rfl⟩ := make_ok.mp hmake
    unfold SemanticEntityCandidate.enforce
    split <;> rfl
  rcases mergeTwoCandidates_cases h with ⟨-, -, h⟩ | ⟨-, -, h⟩ | ⟨-, h⟩
  · obtain ⟨_, _, _, -, -, -, hmake⟩ := mergeModel_ok h
    have hid := henforce hmake
    exact hid
  · obtain ⟨_, _, _, -, -, -, hmake⟩ := mergeModel_ok h
    have hid := henforce hmake
    exact hid.trans hids.symm
  · obtain ⟨_, _, _, -, -, -, hmake⟩ := mergeSame_ok h
    have hid := henforce hmake
    exact hid

theorem entityId_group {prior : Option SemanticEntityCandidate} {id : String}
    {group : List SemanticEntityCandidate} {merged : SemanticEntityCandidate}
    (hprior : ∀ p, prior = some p → p.entityId = id) (hgroup : ∀ c ∈ group, c.entityId = id)
    (h : mergeGroup prior group = .ok (some merged)) : merged.entityId = id := by
  cases group with
  | nil => cases h
  | cons first rest =>
      obtain ⟨hfirst, hrest⟩ := List.forall_mem_cons.mp hgroup
      obtain ⟨held, last, hheld, hlast, heq⟩ := mergeGroup_cons.mp h
      cases heq
      have hid : held.entityId = id := by
        cases prior with
        | none =>
            cases hheld
            exact hfirst
        | some p =>
            rw [← hfirst]
            exact entityId_merged (by rw [hfirst, hprior p rfl]) hheld
      refine foldlM_invariant_mem (P := (·.entityId = id)) ?_ hid hlast
      intro mid c hc next hmid hmerge
      rw [← hmid]
      exact entityId_merged (by rw [hmid, hrest c hc]) hmerge

/-- A returned candidate is what the new candidates with its id are merged into. -/
theorem mem_deduplicated {new existing deduped : List SemanticEntityCandidate} {count : Nat}
    (h : deduplicateCandidates new existing = .ok (deduped, count)) {c : SemanticEntityCandidate}
    (hc : c ∈ deduped) : mergeGroup ((candidatesById existing).lookup c.entityId)
      (new.filter (·.entityId = c.entityId)) = .ok (some c) := by
  obtain ⟨byId, rfl, hnodup, hgroups⟩ := lookup_deduplicated h
  obtain ⟨⟨id, c⟩, hitem, rfl⟩ := List.mem_map.mp hc
  have hmerged := hgroups id
  rw [lookup_eq_some_of_mem hnodup hitem] at hmerged
  have hid : c.entityId = id := by
    apply entityId_group _ _ hmerged
    · intro p hp
      exact (mem_candidatesById (mem_of_lookup hp)).2.symm
    · intro c hc
      simpa using (List.mem_filter.mp hc).2
  dsimp only
  rw [hid]
  exact hmerged

variable [LaxFloat]

/-- `_validate_candidates`: each candidate with the clean dump of its entity, or the error. -/
def validateCandidate (cand : SemanticEntityCandidate) : Except String SemanticEntityCandidate :=
  match modelValidate cand.entityType cand.entity with
  | .ok entity => .ok { cand with entity }
  | .error exn =>
      .error ("Candidate " ++ cand.entityId ++ " failed schema validation: " ++ exn.message)

def validateCandidates (candidates : List SemanticEntityCandidate) :
    List SemanticEntityCandidate × List String :=
  (candidates.filterMap fun cand => (validateCandidate cand).toOption,
    candidates.filterMap fun cand =>
      match validateCandidate cand with
      | .error text => some text
      | .ok _ => none)

end PowerFramework.Semantic
