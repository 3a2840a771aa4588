import PowerFramework.Semantic.Parsed
import PowerFramework.Semantic.Batch
import PowerFramework.State.Acceptance
/-!
# Verified knowledge needs the ledger

A candidate is unverified when neither its status nor its provenance says otherwise.  Without the
ledger's authority the parser and the downgrade of prior candidates give only such candidates, and a
merge of two of them is one again; a model extraction is never verified at all.
-/

set_option linter.unusedSectionVars false

namespace PowerFramework.Semantic

open Lib Lib.Failure Lib.Json Lib.Run Lib.Grouping Ledger PowerFramework.Task

/-- The provenance does not claim to be verified. -/
def Unclaimed (prov : Dict) : Prop := (getItem prov "verification_status").isText "verified" = false

structure Unverified (c : SemanticEntityCandidate) : Prop where
  status : c.verificationStatus ≠ .verified
  provenance : ∀ prov, c.provenance = .ok prov → Unclaimed prov

/-- A model extraction is proposed. -/
def Contained (c : SemanticEntityCandidate) : Prop :=
  c.source = .modelExtraction → c.verificationStatus = .proposed

/-! ## The constructor -/

theorem unclaimed_unverified (prov : Dict) : Unclaimed (unverified prov) := by
  have hchoice := isChoice_ensureText (by simp : "unverified" ∈ ["unverified", "quarantined"])
    "verification_status" prov
  rw [Unclaimed, unverified, getItem_ensureText (by decide)]
  cases hvalue : getItem (ensureText "verification_status" ["unverified", "quarantined"]
      "unverified" prov) "verification_status" with
  | str s =>
      rw [hvalue] at hchoice
      rcases (by simpa [State.isChoice, State.isTextWith] using hchoice :
        s = "unverified" ∨ s = "quarantined") with rfl | rfl <;> rfl
  | _ => rfl

theorem enforce_source (c : SemanticEntityCandidate) : c.enforce.source = c.source := by
  unfold SemanticEntityCandidate.enforce
  split <;> rename_i h <;> simp [h]

/-- What the constructor gives is contained, and unverified when it was given so. -/
theorem contained_enforce (c : SemanticEntityCandidate) : Contained c.enforce := by
  intro hsource
  rw [enforce_source] at hsource
  rw [SemanticEntityCandidate.enforce, hsource]

theorem unverified_enforce {c : SemanticEntityCandidate}
    (h : c.source = .structuredEvent → Unverified c) : Unverified c.enforce := by
  cases hsource : c.source with
  | structuredEvent =>
      rw [SemanticEntityCandidate.enforce, hsource]
      exact h hsource
  | modelExtraction =>
      rw [SemanticEntityCandidate.enforce, hsource]
      refine ⟨nofun, ?_⟩
      cases hprov : c.entity.lookup "provenance" with
      | none =>
          intro prov hprovenance
          rw [SemanticEntityCandidate.provenance, getItemD, Option.map_none, hprov] at hprovenance
          cases hprovenance
          rfl
      | some value =>
          cases hdict : asDict value with
          | error exn =>
              intro prov hprovenance
              simp only [Option.map_some, hdict] at hprovenance
              rw [SemanticEntityCandidate.provenance, getItemD, hprov, Option.getD_some,
                hdict] at hprovenance
              cases hprovenance
          | ok items =>
              intro prov hprovenance
              simp only [Option.map_some, hdict] at hprovenance
              rw [SemanticEntityCandidate.provenance, getItemD, lookup_setItem, if_pos rfl,
                Option.getD_some, asDict] at hprovenance
              cases hprovenance
              exact unclaimed_unverified items

theorem contained_of_make {c made : SemanticEntityCandidate} (h : c.make = .ok made) :
    Contained made := by
  obtain ⟨-, rfl⟩ := make_ok.mp h
  exact contained_enforce c

theorem unverified_of_make {c made : SemanticEntityCandidate}
    (hc : c.source = .structuredEvent → Unverified c) (h : c.make = .ok made) :
    Unverified made := by
  obtain ⟨-, rfl⟩ := make_ok.mp h
  exact unverified_enforce hc

/-! ## Merging -/

section
variable {first second merged : SemanticEntityCandidate}

theorem contained_merged (h : mergeTwoCandidates first second = .ok merged) : Contained merged := by
  rcases mergeTwoCandidates_cases h with ⟨-, -, h⟩ | ⟨-, -, h⟩ | ⟨-, h⟩
  · obtain ⟨_, _, _, -, -, -, hmake⟩ := mergeModel_ok h
    exact contained_of_make hmake
  · obtain ⟨_, _, _, -, -, -, hmake⟩ := mergeModel_ok h
    exact contained_of_make hmake
  · obtain ⟨_, _, _, -, -, -, hmake⟩ := mergeSame_ok h
    exact contained_of_make hmake

theorem Unverified.mergeModel {structured model : SemanticEntityCandidate}
    (hstructured : Unverified structured) (h : mergeModel structured model = .ok merged) :
    Unverified merged := by
  obtain ⟨prov, modelProv, lists, hprov, -, hlists, hmake⟩ := mergeModel_ok h
  refine unverified_of_make ?_ hmake
  refine fun _ => ⟨hstructured.status, ?_⟩
  intro prov' hprov'
  rw [SemanticEntityCandidate.provenance, provenance_setItem] at hprov'
  cases hprov'
  rw [Unclaimed, getItem_mergedLists hlists (by decide) (by decide)]
  exact hstructured.provenance prov hprov

theorem statusChosen_cases (first second : SemanticEntityCandidate) :
    statusChosen first second = .proposed ∨
      statusChosen first second = first.verificationStatus ∨
      statusChosen first second = second.verificationStatus := by
  unfold statusChosen
  split_ifs <;> simp

theorem Unverified.mergeSame (hfirst : Unverified first) (hsecond : Unverified second)
    (h : mergeSame first second = .ok merged) : Unverified merged := by
  obtain ⟨firstProv, secondProv, lists, hprov, -, hlists, hmake⟩ := mergeSame_ok h
  refine unverified_of_make ?_ hmake
  refine fun _ => ⟨?_, ?_⟩
  · rcases statusChosen_cases first second with heq | heq | heq <;> rw [heq]
    · nofun
    · exact hfirst.status
    · exact hsecond.status
  · intro prov hprov'
    rw [SemanticEntityCandidate.provenance, provenance_setItem] at hprov'
    cases hprov'
    rw [Unclaimed, getItem_withLink (by decide), getItem_withLink (by decide),
      getItem_mergedLists hlists (by decide) (by decide)]
    exact hfirst.provenance firstProv hprov

/-- No merge raises the status of what it is given. -/
theorem Unverified.merge (hfirst : Unverified first) (hsecond : Unverified second)
    (h : mergeTwoCandidates first second = .ok merged) : Unverified merged := by
  rcases mergeTwoCandidates_cases h with ⟨-, -, h⟩ | ⟨-, -, h⟩ | ⟨-, h⟩
  · exact hfirst.mergeModel h
  · exact hsecond.mergeModel h
  · exact hfirst.mergeSame hsecond h

end


/-! ## Prior candidates -/

theorem toDict_of_asDict {value : Value} {prov : Dict} (h : asDict value = .ok prov) :
    toDict value = .ok prov := by
  cases value <;> first | exact h | cases h

/-- A prior candidate as an unauthorised batch may use it. -/
theorem unverified_downgraded {c downgraded : SemanticEntityCandidate}
    (h : downgradeUntrustedExisting c = .ok downgraded) : Unverified downgraded := by
  obtain ⟨provenance, hprov, h⟩ := bind_eq_ok.mp h
  split_ifs at h with hclaims
  · cases h
    refine ⟨hclaims.1, ?_⟩
    intro prov hprov'
    rw [toDict_of_asDict hprov'] at hprov
    cases hprov
    exact hclaims.2
  · refine unverified_of_make ?_ h
    refine fun _ => ⟨nofun, ?_⟩
    intro prov hprov'
    rw [SemanticEntityCandidate.provenance, provenance_setItem] at hprov'
    cases hprov'
    rw [Unclaimed, getItem_setItem, if_neg (by decide), getItem_setItem, if_pos rfl]
    rfl

/-! ## New candidates -/

/-- A candidate of a model extraction. -/
def Extracted (c : SemanticEntityCandidate) : Prop :=
  ∃ raw : SemanticEntityCandidate, raw.source = .modelExtraction ∧ raw.make = .ok c

theorem Extracted.contained {c : SemanticEntityCandidate} (h : Extracted c) : Contained c := by
  obtain ⟨raw, -, hmake⟩ := h
  exact contained_of_make hmake

theorem Extracted.unverified {c : SemanticEntityCandidate} (h : Extracted c) : Unverified c := by
  obtain ⟨raw, hsource, hmake⟩ := h
  refine unverified_of_make ?_ hmake
  rw [hsource]
  nofun

section
variable [LaxFloat]

theorem ParsedFrom.contained {p : Parsing} {c : SemanticEntityCandidate} (h : ParsedFrom p c) :
    Contained c := by
  intro hsource
  rw [h.source] at hsource
  cases hsource

theorem ParsedFrom.unverified {p : Parsing} {c : SemanticEntityCandidate} (h : ParsedFrom p c)
    (hauthorized : p.authorized = false)
    (hprov : getItem p.provenance "verification_status" = .str "unverified") : Unverified c := by
  obtain ⟨prov, values, items, hstems, -, hentity⟩ := h.entity
  refine ⟨fun hstatus => ?_, ?_⟩
  · rw [h.status hstatus] at hauthorized
    cases hauthorized
  · intro prov' hprov'
    rw [SemanticEntityCandidate.provenance, hentity, getItemD, lookup_setItem, if_pos rfl] at hprov'
    cases hprov'
    unfold Unclaimed
    cases hstems with
    | own => rw [hprov]; rfl
    | superseding link _ => rw [getItem_setItem, if_neg (by decide), hprov]; rfl
    | observed label confidence hlabel _ =>
        rw [getItem_setItem, if_pos rfl]
        rw [hauthorized] at hlabel
        rcases hlabel with rfl | rfl <;> rfl

variable [PythonRe] [PythonText]

theorem extracted_of_convert {src : ExtractionSource} {item : Value}
    {c : SemanticEntityCandidate} (h : convertExtracted src item = .ok (some c)) : Extracted c := by
  obtain ⟨extracted, -, h⟩ := bind_eq_ok.mp h
  dsimp only at h
  split at h
  · obtain ⟨content, -, h⟩ := bind_eq_ok.mp h
    obtain ⟨claimed, -, h⟩ := bind_eq_ok.mp h
    obtain ⟨provenance, -, h⟩ := bind_eq_ok.mp h
    dsimp only at h
    split at h
    · cases h
    · obtain ⟨candidate, hmake, h⟩ := bind_eq_ok.mp h
      cases h
      exact ⟨_, rfl, hmake⟩
  · cases h

theorem extracted_of_convertAll {src : ExtractionSource} {items : List Value}
    {candidates : List SemanticEntityCandidate} (h : convertAll src items = .ok candidates) :
    ∀ c ∈ candidates, Extracted c := by
  induction items generalizing candidates with
  | nil =>
      cases h
      simp
  | cons item items ih =>
      obtain ⟨candidate, hitem, h⟩ := bind_eq_ok.mp h
      obtain ⟨rest, hrest, h⟩ := bind_eq_ok.mp h
      cases h
      intro c hc
      rcases List.mem_append.mp hc with hc | hc
      · rw [Option.mem_toList] at hc
        exact extracted_of_convert (Option.mem_def.mp hc ▸ hitem)
      · exact ih hrest c hc

theorem extracted_of_convertUntil {src : ExtractionSource} (items : List Value) :
    ∀ c ∈ (convertUntil src items).1, Extracted c := by
  induction items with
  | nil => simp [convertUntil]
  | cons item items ih =>
      unfold convertUntil
      split
      · simp
      · rename_i candidate hitem
        intro c hc
        rcases List.mem_append.mp hc with hc | hc
        · rw [Option.mem_toList] at hc
          exact extracted_of_convert (Option.mem_def.mp hc ▸ hitem)
        · exact ih c hc

theorem extracted_of_event {provider : String → Dict → Except Exn Value} {d : Dict} {asOf : Value}
    {candidates : List SemanticEntityCandidate} {injected : Bool}
    (h : extractFromEvent provider d asOf = .ok (candidates, injected)) :
    ∀ c ∈ candidates, Extracted c := by
  obtain ⟨payload, -, h⟩ := bind_eq_ok.mp h
  dsimp only at h
  split_ifs at h
  · cases h
    simp
  · obtain ⟨scrubbed, -, h⟩ := bind_eq_ok.mp h
    split at h
    · cases h
      simp
    · obtain ⟨items, -, h⟩ := bind_eq_ok.mp h
      obtain ⟨projectId, -, h⟩ := bind_eq_ok.mp h
      obtain ⟨eventId, -, h⟩ := bind_eq_ok.mp h
      obtain ⟨made, hmade, h⟩ := bind_eq_ok.mp h
      cases h
      exact extracted_of_convertAll hmade

variable [PythonRepr]

/-- What an event contributes was parsed from it or extracted by the model. -/
theorem mem_contribute {provider : Option (String → Dict → Except Exn Value)} {authorized : Bool}
    {asOf : Value} {d : Dict} {c : SemanticEntityCandidate}
    (h : c ∈ (contribute provider authorized asOf d).candidates) :
    (∃ candidates injected, parseStructuredEvent (normalizeEvent d) authorized =
        .ok (candidates, injected) ∧ c ∈ candidates) ∨ Extracted c := by
  unfold contribute at h
  dsimp only at h
  split at h
  · cases h
  · rename_i structured injected hparse
    split at h
    · split at h
      · exact Or.inl ⟨structured, injected, hparse, h⟩
      · rename_i extracted detected hextract
        rcases List.mem_append.mp h with h | h
        · exact Or.inl ⟨structured, injected, hparse, h⟩
        · exact Or.inr (extracted_of_event hextract c h)
    · exact Or.inl ⟨structured, injected, hparse, h⟩

theorem contained_contribute {provider : Option (String → Dict → Except Exn Value)}
    {authorized : Bool} {asOf : Value} {d : Dict} {c : SemanticEntityCandidate}
    (h : c ∈ (contribute provider authorized asOf d).candidates) : Contained c := by
  rcases mem_contribute h with ⟨candidates, injected, hparse, hc⟩ | hextracted
  · obtain ⟨p, -, -, hall⟩ := parseStructuredEvent_ok hparse
    exact (hall c hc).contained
  · exact hextracted.contained

theorem unverified_contribute {provider : Option (String → Dict → Except Exn Value)}
    {asOf : Value} {d : Dict} {c : SemanticEntityCandidate}
    (h : c ∈ (contribute provider false asOf d).candidates) : Unverified c := by
  rcases mem_contribute h with ⟨candidates, injected, hparse, hc⟩ | hextracted
  · obtain ⟨p, hp, -, hall⟩ := parseStructuredEvent_ok hparse
    obtain ⟨hauthorized, hstatus, -⟩ := parsing_ok hp
    exact (hall c hc).unverified hauthorized hstatus
  · exact hextracted.unverified

/-! ## The whole compilation -/

variable [LaxInt]

/-- One event of a batch appends its contribution, or nothing. -/
theorem step_candidates {self : SemanticCompiler} {projectId : String} {authorized : Bool}
    {asOf : Value} {st next : Compilation} {evt : SuppliedEvent × Nat}
    (h : Compilation.step self projectId authorized asOf st evt = .ok next) :
    next.candidates = st.candidates ∨ next.candidates = st.candidates ++
      (contribute (self.providerAt evt.2) authorized asOf evt.1.toDict).candidates := by
  obtain ⟨refused, -, h⟩ := bind_eq_ok.mp h
  cases refused with
  | some error =>
      cases h
      exact Or.inl rfl
  | none =>
      dsimp only at h
      split at h
      · cases h
        exact Or.inl rfl
      · cases h
        exact Or.inl rfl
      · cases h
        exact Or.inr rfl
      · cases h
        exact Or.inl rfl

/-- The candidates of a batch come from its events. -/
theorem forall_compiled {P : SemanticEntityCandidate → Prop} {self : SemanticCompiler}
    {projectId : String} {authorized : Bool} {asOf : Value} {events : List (SuppliedEvent × Nat)}
    {st : Compilation}
    (hP : ∀ evt ∈ events, ∀ c ∈
      (contribute (self.providerAt evt.2) authorized asOf evt.1.toDict).candidates, P c)
    (h : events.foldlM (Compilation.step self projectId authorized asOf) {} = .ok st) :
    ∀ c ∈ st.candidates, P c := by
  have hgeneral : ∀ (events : List (SuppliedEvent × Nat)) (s : Compilation),
      (∀ evt ∈ events, ∀ c ∈
        (contribute (self.providerAt evt.2) authorized asOf evt.1.toDict).candidates, P c) →
      (∀ c ∈ s.candidates, P c) →
      events.foldlM (Compilation.step self projectId authorized asOf) s = .ok st →
        ∀ c ∈ st.candidates, P c := by
    intro events
    induction events with
    | nil =>
        intro s _ hs h
        rw [foldlM_nil_eq_ok] at h
        exact h ▸ hs
    | cons evt events ih =>
        intro s hevents hs h
        obtain ⟨mid, hstep, h⟩ := foldlM_cons_eq_ok.mp h
        obtain ⟨hhead, hrest⟩ := List.forall_mem_cons.mp hevents
        refine ih mid hrest ?_ h
        rcases step_candidates hstep with heq | heq
        · rw [heq]
          exact hs
        · rw [heq]
          intro c hc
          rcases List.mem_append.mp hc with hc | hc
          · exact hs c hc
          · exact hhead c hc
  exact hgeneral events {} hP (by simp) h

theorem mem_validated {candidates : List SemanticEntityCandidate} {c : SemanticEntityCandidate}
    (h : c ∈ (validateCandidates candidates).1) :
    ∃ cand ∈ candidates, ∃ entity, modelValidate cand.entityType cand.entity = .ok entity ∧
      c = { cand with entity } := by
  obtain ⟨cand, hcand, hvalid⟩ := List.mem_filterMap.mp h
  unfold validateCandidate at hvalid
  split at hvalid
  · rename_i entity hentity
    cases hvalid
    exact ⟨cand, hcand, entity, hentity, rfl⟩
  · cases hvalid

/-- The clean dump of an unverified candidate is unverified. -/
theorem Unverified.validated {cand : SemanticEntityCandidate} (h : Unverified cand) {entity : Dict}
    (hvalid : modelValidate cand.entityType cand.entity = .ok entity) :
    Unverified { cand with entity } := by
  obtain ⟨value, provenance, values, hlookup, hprov, -, rfl⟩ := modelValidate_ok hvalid
  refine ⟨h.status, ?_⟩
  intro prov hprov'
  rw [SemanticEntityCandidate.provenance, provenance_setItem { cand with entity := _ }] at hprov'
  cases hprov'
  have hnames := names_of_validate hprov
  obtain ⟨items, rfl, -, hread⟩ := validate_ok.mp hprov
  have hitems : Unclaimed items := by
    apply h.provenance
    rw [SemanticEntityCandidate.provenance, getItemD, hlookup]
    rfl
  rw [Unclaimed, getItem_excludeNone (hnames ▸ nodup_provenanceFields)]
  have hfield : Field.optStr "verification_status"
      (· ∈ ["unverified", "verified", "refuted", "quarantined"]) ∈ provenanceFields := by
    simp [provenanceFields]
  rw [getItem_optStr hprov nodup_provenanceFields hfield]
  exact hitems

/-- A validated candidate has a provenance. -/
theorem exists_provenance {candidates : List SemanticEntityCandidate} {c : SemanticEntityCandidate}
    (h : c ∈ (validateCandidates candidates).1) : ∃ prov, c.provenance = .ok prov := by
  obtain ⟨cand, -, entity, hvalid, rfl⟩ := mem_validated h
  obtain ⟨value, provenance, values, -, -, -, rfl⟩ := modelValidate_ok hvalid
  exact ⟨_, provenance_setItem { cand with entity := _ } _⟩

/-- A batch that returns a result with candidates, step by step. -/
theorem compileEvents_ok {self : SemanticCompiler} {events : List SuppliedEvent}
    {existing : List SemanticEntityCandidate} {asOf : Option String}
    {receipt : Option TrustedReplayReceipt} {vaultRoot : Option Vault} {result : CompilationResult}
    (h : self.compileEvents events existing asOf receipt vaultRoot = .ok result) :
    (events = [] ∧ result.candidates = []) ∨ ∃ st prior deduped,
      events.zipIdx.foldlM (Compilation.step self result.projectId
        (canonicalReplayMatches events result.projectId receipt vaultRoot)
          (compileTime asOf events)) {} = .ok st ∧
      existingForMerge (canonicalReplayMatches events result.projectId receipt vaultRoot) existing =
        .ok prior ∧
      deduplicateCandidates st.candidates prior = .ok (deduped, result.duplicateCount) ∧
      result.candidates = (validateCandidates deduped).1 := by
  unfold SemanticCompiler.compileEvents at h
  split at h
  · rename_i first last hfirst hlast
    have htime : compileTime asOf events = timeOf asOf last := by
      rw [compileTime, hlast]
      rfl
    rw [htime]
    obtain ⟨⟨projectId, authorized, time⟩, hcontext, h⟩ := bind_eq_ok.mp h
    obtain ⟨st, hst, h⟩ := bind_eq_ok.mp h
    obtain ⟨prior, hprior, h⟩ := bind_eq_ok.mp h
    obtain ⟨⟨deduped, count⟩, hdeduped, h⟩ := bind_eq_ok.mp h
    obtain ⟨proposals, -, h⟩ := bind_eq_ok.mp h
    cases h
    obtain ⟨id, -, hcontext⟩ := bind_eq_ok.mp hcontext
    cases hcontext
    exact Or.inr ⟨st, prior, deduped, hst, hprior, hdeduped, rfl⟩
  · rename_i hnone
    cases h
    refine Or.inl ⟨?_, rfl⟩
    cases events with
    | nil => rfl
    | cons first rest =>
        obtain ⟨last, hlast⟩ := List.getLast?_isSome.mpr (List.cons_ne_nil first rest) |>
          Option.isSome_iff_exists.mp
        exact absurd hlast (hnone first last rfl)

theorem extracted_of_text {provider : Option (String → Dict → Except Exn Value)}
    {projectId scrubbedText evtId timestamp : String} {src : TextSource} {injectionDetected : Bool}
    {secretsFound : List String} {candidates : List SemanticEntityCandidate} {failure : Option Exn}
    (h : textCandidates provider projectId scrubbedText evtId timestamp src injectionDetected
      secretsFound = .ok (candidates, failure)) : ∀ c ∈ candidates, Extracted c := by
  unfold textCandidates at h
  split at h
  · obtain ⟨candidate, hcandidate, h⟩ := bind_eq_ok.mp h
    cases h
    obtain ⟨provenance, -, hcandidate⟩ := bind_eq_ok.mp hcandidate
    obtain ⟨entity, -, hmake⟩ := bind_eq_ok.mp hcandidate
    intro c hc
    rw [List.mem_singleton.mp hc]
    exact ⟨_, rfl, hmake⟩
  · dsimp only at h
    split at h
    · cases h
      simp
    · rename_i items hitems
      rw [← (Prod.mk.inj (Except.ok.inj h)).1]
      exact extracted_of_convertUntil items

theorem compileUnstructured_ok {self : SemanticCompiler} {projectId text : String}
    {src : TextSource} {existing : List SemanticEntityCandidate} {asOf : Option String}
    {modelProvider : Option Provider} {result : CompilationResult}
    (h : self.compileUnstructured projectId text src existing asOf modelProvider = .ok result) :
    ∃ candidates prior deduped, (∀ c ∈ candidates, Extracted c) ∧
      existingForMerge false existing = .ok prior ∧
      deduplicateCandidates candidates prior = .ok (deduped, result.duplicateCount) ∧
      result.candidates = (validateCandidates deduped).1 := by
  obtain ⟨_, -, h⟩ := bind_eq_ok.mp h
  obtain ⟨⟨candidates, failure⟩, hcandidates, h⟩ := bind_eq_ok.mp h
  obtain ⟨prior, hprior, h⟩ := bind_eq_ok.mp h
  obtain ⟨⟨deduped, count⟩, hdeduped, h⟩ := bind_eq_ok.mp h
  obtain ⟨proposals, -, h⟩ := bind_eq_ok.mp h
  cases h
  exact ⟨candidates, prior, deduped, extracted_of_text hcandidates, hprior, hdeduped, rfl⟩

theorem unverified_existing {existing prior : List SemanticEntityCandidate}
    (h : existingForMerge false existing = .ok prior) : ∀ c ∈ prior, Unverified c := by
  intro c hc
  obtain ⟨given, -, hgiven⟩ := mem_of_mapM h hc
  exact unverified_downgraded hgiven

/-- Unverified candidates stay so through the merge and the validation. -/
theorem unverified_returned {new prior deduped : List SemanticEntityCandidate} {count : Nat}
    (hnew : ∀ c ∈ new, Unverified c) (hprior : ∀ c ∈ prior, Unverified c)
    (h : deduplicateCandidates new prior = .ok (deduped, count)) :
    ∀ c ∈ (validateCandidates deduped).1,
      c.verificationStatus ≠ .verified ∧ ∃ prov, c.provenance = .ok prov ∧ Unclaimed prov := by
  intro c hc
  obtain ⟨cand, hcand, entity, hvalid, rfl⟩ := mem_validated hc
  have hunverified : Unverified cand :=
    forall_deduplicated hnew hprior (fun _ _ _ => Unverified.merge)
      (fun _ _ _ => Unverified.merge) h cand hcand
  have hvalidated := hunverified.validated hvalid
  obtain ⟨prov, hprov⟩ := exists_provenance hc
  exact ⟨hvalidated.status, prov, hprov, hvalidated.provenance prov hprov⟩

theorem contained_returned {new prior deduped : List SemanticEntityCandidate} {count : Nat}
    (hnew : ∀ c ∈ new, Contained c)
    (h : deduplicateCandidates new prior = .ok (deduped, count)) :
    ∀ c ∈ (validateCandidates deduped).1, Contained c := by
  intro c hc
  obtain ⟨cand, hcand, entity, -, rfl⟩ := mem_validated hc
  have hcontained : Contained cand :=
    forall_deduplicated (Q := fun _ => True) hnew (fun _ _ => trivial)
      (fun _ _ _ _ _ => contained_merged) (fun _ _ _ _ _ => contained_merged) h cand hcand
  exact hcontained

/-- Without the ledger's authority nothing returned is verified, and a model extraction never is,
whatever the provider and the prior candidates. -/
theorem unauthorised_unverified (self : SemanticCompiler)
    (existing : List SemanticEntityCandidate) (asOf : Option String) :
    (∀ events receipt vaultRoot result,
      self.compileEvents events existing asOf receipt vaultRoot = .ok result →
        (canonicalReplayMatches events result.projectId receipt vaultRoot = false →
          ∀ c ∈ result.candidates, c.verificationStatus ≠ .verified ∧
            ∃ prov, c.provenance = .ok prov ∧ Unclaimed prov) ∧
        ∀ c ∈ result.candidates, Contained c) ∧
    (∀ projectId text src provider result,
      self.compileUnstructured projectId text src existing asOf provider = .ok result →
        (∀ c ∈ result.candidates, c.verificationStatus ≠ .verified ∧
          ∃ prov, c.provenance = .ok prov ∧ Unclaimed prov) ∧
        ∀ c ∈ result.candidates, Contained c) := by
  constructor
  · intro events receipt vaultRoot result h
    rcases compileEvents_ok h with ⟨-, hnone⟩ | ⟨st, prior, deduped, hst, hprior, hdeduped, hvalid⟩
    · rw [hnone]
      simp
    · rw [hvalid]
      constructor
      · intro hauthorized
        rw [hauthorized] at hst hprior
        have hnew : ∀ c ∈ st.candidates, Unverified c :=
          forall_compiled (fun _ _ _ => unverified_contribute) hst
        exact unverified_returned hnew (unverified_existing hprior) hdeduped
      · have hnew : ∀ c ∈ st.candidates, Contained c :=
          forall_compiled (fun _ _ _ => contained_contribute) hst
        exact contained_returned hnew hdeduped
  · intro projectId text src provider result h
    obtain ⟨candidates, prior, deduped, hnew, hprior, hdeduped, hvalid⟩ := compileUnstructured_ok h
    rw [hvalid]
    exact ⟨unverified_returned (fun c hc => (hnew c hc).unverified) (unverified_existing hprior)
        hdeduped,
      contained_returned (fun c hc => (hnew c hc).contained) hdeduped⟩

end

section
attribute [local instance] PythonText.ascii LaxInt.intOnly LaxFloat.floatOnly PythonRe.nowhere
  PythonRepr.shown

def noModel : SemanticCompiler := ⟨none, none⟩

def riskPayload : Dict := [("impact", .str "high"), ("probability", .str "low"),
  ("risk_id", .str "rsk_ab"), ("title", .str "Delay")]

def riskOpened : ProjectEvent :=
  State.sealEvent { State.governedEvent .riskOpened "evt_a" riskPayload with
    projectId := "prj_abc", sequence := 1 }

theorem chain_riskOpened : Chain "prj_abc" Head.start [riskOpened] := by
  have hpayload : Canonical (.dict riskPayload) := by
    rw [canonical_dict]
    simp [riskPayload, canonical_str]
  have hsealed : riskOpened.Sealed :=
    State.sealed_sealEvent hpayload (State.printable_small (n := 1) (by decide))
  exact ⟨⟨rfl, List.not_mem_nil, rfl, rfl, hsealed⟩, trivial⟩

theorem accepted_riskOpened : Accepted "prj_abc" none [.instance riskOpened] :=
  accepted_chain chain_riskOpened nofun fun event h => by
    rw [List.mem_singleton.mp h]
    decide

/-- The opened risk returned without a receipt. -/
theorem unauthorised_unverified_risk : ∃ result,
    noModel.compileEvents [.instance riskOpened] [] none none none = .ok result ∧
      result.candidates.map (·.entityId) = ["rsk_ab"] ∧
      ∀ c ∈ result.candidates, c.verificationStatus ≠ .verified := by
  have hreturned : ((returned ([SuppliedEvent.instance riskOpened].zipIdx.flatMap
      (contributed noModel false (timeOf none (.instance riskOpened)))) [] []
        (timeOf none (.instance riskOpened))).toOption.map
          fun candidates => candidates.map (·.entityId)) = some ["rsk_ab"] := by
    decide +kernel
  obtain ⟨candidates, hcandidates, hids⟩ := Option.map_eq_some_iff.mp hreturned
  have hproject : validatedProjectId ((SuppliedEvent.instance riskOpened).projectId
      noModel.fallbackProjectId) = .ok "prj_abc" := by
    change validatedProjectId (.str "prj_abc") = _
    decide
  have hcompiled : ∃ result,
      noModel.compileEvents [.instance riskOpened] [] none none none = .ok result ∧
        result.projectId = "prj_abc" ∧ result.candidates = candidates :=
    (compileEvents_accepted rfl rfl hproject accepted_riskOpened rfl rfl).mpr
      (toOption_eq_some.mp hcandidates)
  obtain ⟨result, hresult, -, heq⟩ := hcompiled
  obtain ⟨hunverified, -⟩ := (unauthorised_unverified noModel [] none).1 _ _ _ _ hresult
  refine ⟨result, hresult, by rw [heq, hids], ?_⟩
  intro c hc
  exact (hunverified rfl c hc).1

end

end PowerFramework.Semantic
