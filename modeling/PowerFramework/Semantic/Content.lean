import PowerFramework.Ledger.AppendIntegrity
import PowerFramework.Semantic.Trust
/-!
# Where content comes from

The content of a candidate is its entity but the provenance.  A merge takes the content of one side
as a whole, and the validation of a dump gives the dump back, so that what is returned for an id has
the content that one candidate of the batch came with.
-/

set_option linter.unusedSectionVars false

namespace PowerFramework.Semantic

open Lib Lib.Failure Lib.Json Lib.Run Lib.Grouping Ledger PowerFramework.Task

/-! ## Dumps without nulls -/

/-- A field whose default is one of its values, and that is `None` when it is left out if it may be
`None` at all. -/
structure Omittable (field : Field) : Prop where
  default : ∀ v, field.default = some v → field.read v = some v
  null : field.read .null = some .null → field.default = some .null

theorem omittable_str {name : String} {default : Option String} {ok : String → Bool}
    (h : ∀ s, default = some s → ok s = true) : Omittable (Field.str name default ok) := by
  refine ⟨?_, nofun⟩
  intro v hv
  obtain ⟨s, hs, rfl⟩ := Option.map_eq_some_iff.mp hv
  exact if_pos (h s hs)

@[simp] theorem omittable_neededField (name : String) (ok : String → Bool) :
    Omittable (neededField name ok) := omittable_str nofun

@[simp] theorem omittable_textField {name default : String} {ok : String → Bool} :
    Omittable (textField name default ok) ↔ ok default = true := by
  constructor
  · intro h
    have hread : readStr ok (.str default) = some (.str default) := h.default _ rfl
    rw [readStr] at hread
    split_ifs at hread with hok
    exact hok
  · exact fun h => omittable_str (by simpa using h)

@[simp] theorem omittable_choiceField {name : String} {options : List String}
    (default : String) : Omittable (choiceField name (some default) options) ↔
      default ∈ options := by
  rw [choiceField, show Field.str name (some default) (· ∈ options) =
    textField name default (· ∈ options) from rfl, omittable_textField, decide_eq_true_eq]

@[simp] theorem omittable_choice (name : String) (options : List String) :
    Omittable (choiceField name none options) := omittable_str nofun

@[simp] theorem omittable_optStr (name : String) (ok : String → Bool) :
    Omittable (Field.optStr name ok) :=
  ⟨fun v hv => by cases hv; rfl, fun _ => rfl⟩

@[simp] theorem omittable_strList (name : String) (default : Option (List String)) :
    Omittable (Field.strList name default) := by
  refine ⟨?_, nofun⟩
  intro v hv
  obtain ⟨texts, -, rfl⟩ := Option.map_eq_some_iff.mp hv
  exact readStrList_strList texts

@[simp] theorem omittable_textsField {name : String} {default : Option (List String)}
    {ok : List String → Bool} (h : ∀ texts, default = some texts → ok texts = true) :
    Omittable (textsField name default ok) := by
  refine ⟨?_, nofun⟩
  intro v hv
  obtain ⟨texts, htexts, rfl⟩ := Option.map_eq_some_iff.mp hv
  exact readTexts_strList (h texts htexts)

section
variable [LaxFloat]

@[simp] theorem omittable_unitField (name : String) : Omittable (unitField name) := by
  refine ⟨nofun, fun hread => ?_⟩
  obtain ⟨x, -, hnull⟩ := readUnit_ok hread
  cases hnull

@[simp] theorem omittable_optUnitField (name : String) : Omittable (optUnitField name) :=
  ⟨fun v hv => by cases hv; rfl, fun _ => rfl⟩

theorem omittable_fields (entityType : SemanticEntityType) :
    ∀ field ∈ entityType.fields, Omittable field := by
  cases entityType <;> simp [SemanticEntityType.fields, lengthAtMost, lengthBetween]

theorem omittable_provenanceFields : ∀ field ∈ provenanceFields, Omittable field := by
  simp [provenanceFields]

omit [LaxFloat] in
/-- Reading a dump without its nulls gives the instance back. -/
theorem validate_excludeNone {fields : List Field} {value : Value} {values : Dict}
    (h : validate fields value = .ok values) (hnodup : (fields.map Field.name).Nodup)
    (homittable : ∀ field ∈ fields, Omittable field) :
    validate fields (.dict (excludeNone values)) = .ok values := by
  have hnames := names_of_validate h
  have hinstance := instance_of_validate h hnodup fun field hfield => (homittable field hfield).default
  rw [validate_ok]
  refine ⟨_, rfl, ?_, readFields_of hnames hnodup ?_⟩
  · intro item hitem
    rw [← hnames]
    exact List.mem_map_of_mem (List.mem_filter.mp hitem).1
  · intro field hfield v hv
    have hread := hinstance.2 field hfield v hv
    rw [Field.take, lookup_excludeNone (hnames ▸ hnodup), hv, Option.filter_some]
    cases hnull : isNone v with
    | false =>
        rw [if_pos (by simp)]
        dsimp only
        rw [hread]
    | true =>
        cases v with
        | null =>
            rw [if_neg (by simp), (homittable field hfield).null hread]
        | _ => cases hnull

omit [LaxFloat] in
/-- A value that its field reads as it is stays through the validation. -/
theorem lookup_validated {fields : List Field} {d values : Dict}
    (h : validate fields (.dict d) = .ok values) (hnodup : (fields.map Field.name).Nodup)
    {name : String} (hfields : ∀ field ∈ fields, field.name = name →
      (d.lookup name = none → field.default = some .null) ∧
      ∀ v, d.lookup name = some v → isNone v = false ∧ field.read v = some v) :
    (excludeNone values).lookup name = d.lookup name := by
  obtain ⟨d', hd, hextras, hread⟩ := validate_ok.mp h
  cases hd
  have hnames := names_of_readFields hread
  rw [lookup_excludeNone (hnames ▸ hnodup)]
  by_cases hname : name ∈ fields.map Field.name
  · obtain ⟨field, hfield, rfl⟩ := List.mem_map.mp hname
    obtain ⟨habsent, hpresent⟩ := hfields field hfield rfl
    obtain ⟨value, hvalue, htake⟩ := lookup_of_readFields hread hnodup hfield
    rw [hvalue]
    unfold Field.take at htake
    cases hlookup : d.lookup field.name with
    | none =>
        rw [hlookup, habsent hlookup] at htake
        cases htake
        rfl
    | some v =>
        obtain ⟨hsome, hsame⟩ := hpresent v hlookup
        rw [hlookup] at htake
        dsimp only at htake
        rw [hsame] at htake
        cases htake
        rw [Option.filter_some, if_pos (by rw [hsome]; rfl)]
  · have hvalues : values.lookup name = none := by
      by_contra hne
      obtain ⟨v, hv⟩ := Option.ne_none_iff_exists'.mp hne
      exact hname (hnames ▸ List.mem_map_of_mem (Ledger.mem_of_lookup hv))
    have hd : d.lookup name = none := by
      by_contra hne
      obtain ⟨v, hv⟩ := Option.ne_none_iff_exists'.mp hne
      exact hname (hextras _ (Ledger.mem_of_lookup hv))
    rw [hvalues, hd]
    rfl

/-! ## Content -/

/-- The entity but its provenance. -/
def SemanticEntityCandidate.content (c : SemanticEntityCandidate) : Dict :=
  c.entity.filter (·.1 ≠ "provenance")

omit [LaxFloat] in
theorem filter_setItem (key : String) (value : Value) (d : Dict) :
    (setItem key value d).filter (·.1 ≠ key) = d.filter (·.1 ≠ key) := by
  induction d with
  | nil => simp [setItem]
  | cons item d ih =>
      obtain ⟨k, v⟩ := item
      rw [setItem]
      split_ifs with hlt heq
      · simp
      · subst heq
        simp
      · rw [List.filter_cons, List.filter_cons, ih]

/-- The content is the dump of what its model has validated. -/
def Settled (c : SemanticEntityCandidate) : Prop :=
  ∃ values, validate c.entityType.fields (.dict c.content) = .ok values ∧
    excludeNone values = c.content

theorem content_dump {entityType : SemanticEntityType} {value : Value} {values : Dict}
    (h : validate entityType.fields value = .ok values) (prov : Dict) :
    (setItem "provenance" (.dict prov) (excludeNone values)).filter (·.1 ≠ "provenance") =
      excludeNone values := by
  rw [filter_setItem, List.filter_eq_self]
  intro item hitem
  have hname : item.1 ∈ entityType.fields.map Field.name :=
    names_of_validate h ▸ List.mem_map_of_mem (List.mem_filter.mp hitem).1
  have hne : item.1 ≠ "provenance" := fun heq => (names_fields entityType).2 (heq ▸ hname)
  exact decide_eq_true hne

/-- An entity that was dumped is settled. -/
theorem settled_of_dump {c : SemanticEntityCandidate} {value : Value} {values prov : Dict}
    (h : validate c.entityType.fields value = .ok values)
    (hentity : c.entity = setItem "provenance" (.dict prov) (excludeNone values)) : Settled c := by
  have hcontent : c.content = excludeNone values := by
    rw [SemanticEntityCandidate.content, hentity, content_dump h]
  refine ⟨values, ?_, hcontent.symm⟩
  rw [hcontent]
  exact validate_excludeNone h (names_fields c.entityType).1 (omittable_fields c.entityType)

/-- What the validation returns has the content it was given, when that is settled. -/
theorem content_validated {c : SemanticEntityCandidate} (h : Settled c) {entity : Dict}
    (hvalid : modelValidate c.entityType c.entity = .ok entity) :
    SemanticEntityCandidate.content { c with entity } = c.content := by
  obtain ⟨values, hvalues, hcontent⟩ := h
  obtain ⟨value, provenance, values', -, -, hvalues', rfl⟩ := modelValidate_ok hvalid
  rw [show c.entity.filter (·.1 ≠ "provenance") = c.content from rfl, hvalues] at hvalues'
  cases hvalues'
  rw [SemanticEntityCandidate.content, content_dump hvalues, hcontent]

theorem ParsedFrom.settled {p : Parsing} {c : SemanticEntityCandidate} (h : ParsedFrom p c) :
    Settled c := by
  obtain ⟨prov, values, items, -, hvalid, hentity⟩ := h.entity
  exact settled_of_dump hvalid hentity

omit [LaxFloat] in
theorem content_enforce (c : SemanticEntityCandidate) :
    c.enforce.content = c.content ∧ c.enforce.entityType = c.entityType ∧
      c.enforce.entityId = c.entityId := by
  unfold SemanticEntityCandidate.enforce
  split
  · exact ⟨rfl, rfl, rfl⟩
  · refine ⟨?_, rfl, rfl⟩
    unfold SemanticEntityCandidate.content
    dsimp only
    split
    · exact filter_setItem _ _ _
    · rfl

/-! ## The candidate that a merge follows -/

/-- The items of a provenance that a merge may change. -/
def mergedItems : List String := ["source_event_ids", "evidence_refs", "supersedes", "invalidates"]

omit [LaxFloat] in
/-- The candidate carries the content and the provenance of a structured one, but for what was
merged into its provenance. -/
structure Follows (s c : SemanticEntityCandidate) : Prop where
  source : c.source = .structuredEvent
  entityId : c.entityId = s.entityId
  entityType : c.entityType = s.entityType
  content : c.content = s.content
  provenance : ∃ sprov prov, s.provenance = .ok sprov ∧ c.provenance = .ok prov ∧
    ∀ key ∉ mergedItems, prov.lookup key = sprov.lookup key

section
omit [LaxFloat]
variable {s first second merged : SemanticEntityCandidate}

theorem lookup_mergedLists {a b prov : Dict} (h : mergedLists a b = .ok prov) {key : String}
    (hkey : key ∉ mergedItems) : prov.lookup key = a.lookup key := by
  obtain ⟨events, evidence, -, -, rfl⟩ := mergedLists_ok h
  simp only [mergedItems, List.mem_cons, not_or] at hkey
  rw [lookup_setItem, if_neg hkey.2.1, lookup_setItem, if_neg hkey.1]

theorem lookup_withLink {link key : String} (hne : key ≠ link) (second prov : Dict) :
    (withLink link second prov).lookup key = prov.lookup key := by
  unfold withLink
  dsimp only
  split_ifs
  · rw [lookup_setItem, if_neg hne]
  · rfl

/-- A merge with a structured candidate and a provenance that keeps its items. -/
theorem Follows.remade (h : Follows s first) {raw : SemanticEntityCandidate} {lists : Dict}
    (hmake : raw.make = .ok merged)
    (hsource : raw.source = .structuredEvent) (hid : raw.entityId = first.entityId)
    (htype : raw.entityType = first.entityType)
    (hentity : raw.entity = setItem "provenance" (.dict lists) first.entity)
    (hlists : ∀ prov, first.provenance = .ok prov →
      ∀ key ∉ mergedItems, lists.lookup key = prov.lookup key) : Follows s merged := by
  obtain ⟨-, rfl⟩ := make_ok.mp hmake
  have henforce : raw.enforce = raw := by
    rw [SemanticEntityCandidate.enforce, hsource]
  rw [henforce]
  obtain ⟨sprov, prov, hsprov, hprov, hkeys⟩ := h.provenance
  refine ⟨hsource, hid.trans h.entityId, htype.trans h.entityType, ?_, sprov, lists, hsprov, ?_, ?_⟩
  · rw [SemanticEntityCandidate.content, hentity, filter_setItem]
    exact h.content
  · rw [SemanticEntityCandidate.provenance, hentity]
    exact provenance_setItem first lists
  · intro key hkey
    rw [hlists prov hprov key hkey, hkeys key hkey]

theorem Follows.mergeModel (h : Follows s first) (hmerge : mergeModel first second = .ok merged) :
    Follows s merged := by
  obtain ⟨prov, modelProv, lists, hprov, -, hlists, hmake⟩ := mergeModel_ok hmerge
  refine h.remade hmake rfl rfl rfl rfl ?_
  intro prov' hprov' key hkey
  rw [hprov] at hprov'
  cases hprov'
  exact lookup_mergedLists hlists hkey

theorem Follows.mergeSame (h : Follows s first) (hmerge : mergeSame first second = .ok merged) :
    Follows s merged := by
  obtain ⟨prov, secondProv, lists, hprov, -, hlists, hmake⟩ := mergeSame_ok hmerge
  refine h.remade hmake h.source rfl rfl rfl ?_
  intro prov' hprov' key hkey
  rw [hprov] at hprov'
  cases hprov'
  have hlinks := hkey
  simp only [mergedItems, List.mem_cons, not_or] at hlinks
  rw [lookup_withLink hlinks.2.2.2.1, lookup_withLink hlinks.2.2.1, lookup_mergedLists hlists hkey]

/-- A structured candidate is followed by what it is merged into. -/
theorem Follows.merge (h : Follows s first) (hmerge : mergeTwoCandidates first second = .ok merged) :
    Follows s merged := by
  rcases mergeTwoCandidates_cases hmerge with ⟨-, -, hmerge⟩ | ⟨hsource, -⟩ | ⟨-, hmerge⟩
  · exact h.mergeModel hmerge
  · rw [h.source] at hsource
    cases hsource
  · exact h.mergeSame hmerge

/-- A structured candidate prevails over the model extraction it is merged into. -/
theorem Follows.overModel (h : Follows s second) (hfirst : first.source = .modelExtraction)
    (hmerge : mergeTwoCandidates first second = .ok merged) : Follows s merged := by
  rcases mergeTwoCandidates_cases hmerge with ⟨hsource, -⟩ | ⟨-, -, hmerge⟩ | ⟨hsource, -⟩
  · rw [hfirst] at hsource
    cases hsource
  · exact h.mergeModel hmerge
  · rw [hfirst, h.source] at hsource
    cases hsource

/-- Model extractions are merged into one. -/
theorem source_mergeModels (hfirst : first.source = .modelExtraction)
    (hsecond : second.source = .modelExtraction)
    (hmerge : mergeTwoCandidates first second = .ok merged) :
    merged.source = .modelExtraction := by
  rcases mergeTwoCandidates_cases hmerge with ⟨hsource, -⟩ | ⟨-, hsource, -⟩ | ⟨-, hmerge⟩
  · rw [hfirst] at hsource
    cases hsource
  · rw [hsecond] at hsource
    cases hsource
  · obtain ⟨_, _, _, -, -, -, hmake⟩ := mergeSame_ok hmerge
    obtain ⟨-, rfl⟩ := make_ok.mp hmake
    rw [enforce_source]
    exact hfirst

end

/-! ## Provenance through the validation -/

/-- Each item of the dict is read as it is, and none is null. -/
def Plainly (fields : List Field) (d : Dict) : Prop :=
  ∀ field ∈ fields, (d.lookup field.name = none → field.default = some .null) ∧
    ∀ v, d.lookup field.name = some v → isNone v = false ∧ field.read v = some v

omit [LaxFloat] in
theorem plainly_excludeNone {fields : List Field} {value : Value} {values : Dict}
    (h : validate fields value = .ok values) (hnodup : (fields.map Field.name).Nodup)
    (homittable : ∀ field ∈ fields, Omittable field) : Plainly fields (excludeNone values) := by
  have hnames := names_of_validate h
  have hinstance := instance_of_validate h hnodup fun field hfield => (homittable field hfield).default
  intro field hfield
  obtain ⟨value, hvalue⟩ := hinstance.exists_lookup hfield
  have hread := hinstance.2 field hfield value hvalue
  rw [lookup_excludeNone (hnames ▸ hnodup), hvalue, Option.filter_some]
  cases hnull : isNone value with
  | false =>
      refine ⟨by simp, fun v hv => ?_⟩
      cases hv
      exact ⟨hnull, hread⟩
  | true =>
      cases value with
      | null => exact ⟨fun _ => (homittable field hfield).null hread, by simp⟩
      | _ => cases hnull

omit [LaxFloat] in
/-- An item set to what its field reads. -/
theorem Plainly.setItem {fields : List Field} {d : Dict} (h : Plainly fields d)
    (hnodup : (fields.map Field.name).Nodup) {field : Field} (hfield : field ∈ fields)
    {value : Value} (hsome : isNone value = false) (hread : field.read value = some value) :
    Plainly fields (setItem field.name value d) := by
  intro other hother
  rw [lookup_setItem]
  split_ifs with heq
  · rw [List.inj_on_of_nodup_map hnodup hother hfield heq]
    refine ⟨nofun, fun v hv => ?_⟩
    cases hv
    exact ⟨hsome, hread⟩
  · exact h other hother

theorem plainly_observed {d : Dict} (h : Plainly provenanceFields d) {label : String}
    {confidence : Double}
    (hlabel : label ∈ ["unverified", "verified", "refuted", "quarantined"])
    (hconfidence : State.inUnit confidence = true) :
    Plainly provenanceFields (setItem "verification_status" (.str label)
      (setItem "confidence" (.float confidence) d)) := by
  have hfirst : optUnitField "confidence" ∈ provenanceFields := by simp [provenanceFields]
  have hsecond : Field.optStr "verification_status"
      (· ∈ ["unverified", "verified", "refuted", "quarantined"]) ∈ provenanceFields := by
    simp [provenanceFields]
  have hread : (optUnitField "confidence").read (.float confidence) = some (.float confidence) :=
    readUnit_float hconfidence
  have hset := h.setItem nodup_provenanceFields hfirst rfl hread
  exact hset.setItem nodup_provenanceFields hsecond rfl (if_pos (decide_eq_true hlabel))

/-- The provenance that the candidate of an event stems from, but for the links of a decision. -/
theorem Stems.plainly {p : Parsing} {prov : Dict} (h : Stems p prov)
    (hown : Plainly provenanceFields p.provenance) :
    ∃ plain, Plainly provenanceFields plain ∧
      ∀ key ∉ mergedItems, prov.lookup key = plain.lookup key := by
  cases h with
  | own => exact ⟨_, hown, fun _ _ => rfl⟩
  | superseding link _ =>
      refine ⟨_, hown, fun key hkey => ?_⟩
      simp only [mergedItems, List.mem_cons, not_or] at hkey
      rw [lookup_setItem, if_neg hkey.2.2.1]
  | observed label confidence hlabel hconfidence =>
      refine ⟨_, plainly_observed hown ?_ hconfidence, fun _ _ => rfl⟩
      rcases hlabel with rfl | rfl
      · simp
      · cases p.authorized <;> simp [provStatus]

/-- A candidate of the parser, with a provenance that its model reads as it is. -/
structure Grounded (s : SemanticEntityCandidate) : Prop where
  source : s.source = .structuredEvent
  settled : Settled s
  provenance : ∃ prov plain, s.provenance = .ok prov ∧ Plainly provenanceFields plain ∧
    ∀ key ∉ mergedItems, prov.lookup key = plain.lookup key

omit [LaxFloat] in
theorem provenance_eq {c : SemanticEntityCandidate} {prov values : Dict}
    (hentity : c.entity = setItem "provenance" (.dict prov) (excludeNone values)) :
    c.provenance = .ok prov := by
  rw [SemanticEntityCandidate.provenance, hentity]
  exact provenance_setItem { c with entity := excludeNone values } prov

theorem Grounded.follows {s : SemanticEntityCandidate} (h : Grounded s) : Follows s s := by
  obtain ⟨prov, plain, hprov, -, -⟩ := h.provenance
  exact ⟨h.source, rfl, rfl, rfl, prov, prov, hprov, hprov, fun _ _ => rfl⟩

/-- What is returned still carries the candidate that it followed. -/
theorem Follows.validated {s cand : SemanticEntityCandidate} (h : Follows s cand)
    (hs : Grounded s) {entity : Dict}
    (hvalid : modelValidate cand.entityType cand.entity = .ok entity) :
    Follows s { cand with entity } := by
  obtain ⟨values, hvalues, hcontent⟩ := hs.settled
  have hsettled : Settled cand := ⟨values, by rw [h.entityType, h.content, hvalues], by
    rw [h.content, hcontent]⟩
  obtain ⟨sprov, plain, hsprov, hplain, hplainly⟩ := hs.provenance
  obtain ⟨sprov', prov, hsprov', hprov, hkeys⟩ := h.provenance
  rw [hsprov] at hsprov'
  cases hsprov'
  obtain ⟨value, provenance, values', hlookup, hread, -, hentity⟩ := modelValidate_ok hvalid
  have hgiven : value = .dict prov := by
    rw [SemanticEntityCandidate.provenance, getItemD, hlookup, Option.getD_some] at hprov
    obtain ⟨d, rfl, -, -⟩ := validate_ok.mp hread
    rw [Except.ok.inj hprov]
  rw [hgiven] at hread
  refine ⟨h.source, h.entityId, h.entityType, ?_, sprov, excludeNone provenance, hsprov, ?_, ?_⟩
  · rw [content_validated hsettled hvalid, h.content]
  · rw [SemanticEntityCandidate.provenance, hentity]
    exact provenance_setItem { cand with entity := _ } _
  · intro key hkey
    rw [← hkeys key hkey]
    apply lookup_validated hread nodup_provenanceFields
    rintro field hfield rfl
    rw [hkeys field.name hkey, hplainly field.name hkey]
    exact hplain field hfield

/-! ## The group of an id -/

/-- What was merged so far is a model extraction, or follows a structured candidate. -/
def Sourced (group : List SemanticEntityCandidate) (held : SemanticEntityCandidate) : Prop :=
  held.source = .modelExtraction ∨
    ∃ s ∈ group, s.source = .structuredEvent ∧ Follows s held

section
omit [LaxFloat]
variable {group : List SemanticEntityCandidate} {held candidate merged : SemanticEntityCandidate}

theorem Sourced.step (h : Sourced group held) (hcandidate : candidate ∈ group)
    (hfollows : candidate.source = .structuredEvent → Follows candidate candidate)
    (hmerge : mergeTwoCandidates held candidate = .ok merged) : Sourced group merged := by
  rcases h with hmodel | ⟨s, hs, hsource, hheld⟩
  · cases hsource : candidate.source with
    | modelExtraction => exact Or.inl (source_mergeModels hmodel hsource hmerge)
    | structuredEvent =>
        exact Or.inr ⟨candidate, hcandidate, hsource, (hfollows hsource).overModel hmodel hmerge⟩
  · exact Or.inr ⟨s, hs, hsource, hheld.merge hmerge⟩

/-- The first new candidate of an id is a model extraction and the caller's prior one is structured:
the prior candidate then gives the content. -/
def Overlooked (prior : Option SemanticEntityCandidate) (group : List SemanticEntityCandidate) :
    Prop :=
  (∃ first, group.head? = some first ∧ first.source = .modelExtraction) ∧
    ∃ p, prior = some p ∧ p.source = .structuredEvent

/-- Unless it was overlooked, a group ends as one of its own structured candidates. -/
theorem sourced_group {prior : Option SemanticEntityCandidate}
    (hfollows : ∀ c ∈ group, c.source = .structuredEvent → Follows c c)
    (hprior : ¬Overlooked prior group) (h : mergeGroup prior group = .ok (some merged)) :
    Sourced group merged := by
  cases group with
  | nil => cases h
  | cons first rest =>
      obtain ⟨held, last, hheld, hrest, heq⟩ := mergeGroup_cons.mp h
      cases heq
      have hfirst : Sourced (first :: rest) held := by
        cases hsource : first.source with
        | structuredEvent =>
            have hown := hfollows first List.mem_cons_self hsource
            refine Or.inr ⟨first, List.mem_cons_self, hsource, ?_⟩
            cases prior with
            | none =>
                cases hheld
                exact hown
            | some p => exact hown.merge hheld
        | modelExtraction =>
            cases prior with
            | none =>
                cases hheld
                exact Or.inl hsource
            | some p =>
                have hp : p.source = .modelExtraction := by
                  cases hp : p.source with
                  | modelExtraction => rfl
                  | structuredEvent => exact absurd ⟨⟨first, rfl, hsource⟩, p, rfl, hp⟩ hprior
                exact Or.inl (source_mergeModels hsource hp hheld)
      refine foldlM_invariant_mem (P := Sourced (first :: rest)) ?_ hfirst hrest
      intro held c hc next hsourced hmerge
      exact hsourced.step (List.mem_cons_of_mem first hc)
        (hfollows c (List.mem_cons_of_mem first hc)) hmerge

end

/-! ## Content on the ledger's authority -/

section
variable [PythonRe] [PythonRepr] [PythonText]

theorem ParsedFrom.grounded {d : Dict} {authorized : Bool} {p : Parsing}
    {c : SemanticEntityCandidate} (h : ParsedFrom p c) (hp : parsing d authorized = .ok p) :
    Grounded c := by
  obtain ⟨-, -, pvalues, pitems, hpvalid, hpdump⟩ := parsing_ok hp
  obtain ⟨prov, values, items, hstems, hvalid, hentity⟩ := h.entity
  have hown : Plainly provenanceFields p.provenance := by
    rw [hpdump]
    exact plainly_excludeNone hpvalid nodup_provenanceFields omittable_provenanceFields
  obtain ⟨plain, hplain, hkeys⟩ := hstems.plainly hown
  exact ⟨h.source, h.settled, prov, plain, provenance_eq hentity, hplain, hkeys⟩

/-- The structured parser gives the candidate from an event of the batch. -/
def ParsedIn (events : List SuppliedEvent) (s : SemanticEntityCandidate) : Prop :=
  ∃ evt ∈ events, ∃ structured injected,
    parseStructuredEvent (normalizeEvent evt.toDict) true = .ok (structured, injected) ∧
    s ∈ structured

theorem ParsedIn.grounded {events : List SuppliedEvent} {s : SemanticEntityCandidate}
    (h : ParsedIn events s) : Grounded s := by
  obtain ⟨evt, -, structured, injected, hparse, hs⟩ := h
  obtain ⟨p, hp, -, hall⟩ := parseStructuredEvent_ok hparse
  exact (hall s hs).grounded hp

variable [LaxInt]

/-- A structured candidate that a batch gives was parsed from one of its events. -/
theorem parsedIn_gathered {self : SemanticCompiler} {projectId : String} {time : Value}
    {events : List SuppliedEvent} {new : List SemanticEntityCandidate}
    (h : gathered self projectId true time events = .ok new) :
    ∀ c ∈ new, c.source = .structuredEvent → ParsedIn events c := by
  obtain ⟨st, hst, rfl⟩ := map_eq_ok.mp h
  refine forall_compiled ?_ hst
  intro evt hevt c hc hsource
  rcases mem_contribute hc with ⟨structured, injected, hparse, hmem⟩ | ⟨raw, hraw, hmake⟩
  · exact ⟨evt.1, List.mem_map.mpr ⟨evt, hevt, rfl⟩ |> (List.zipIdx_map_fst 0 events ▸ ·),
      structured, injected, hparse, hmem⟩
  · obtain ⟨-, rfl⟩ := make_ok.mp hmake
    rw [enforce_source, hraw] at hsource
    cases hsource

/-- What an authorised batch returns as verified has the content, and but for what is merged the
provenance, that the parser gave for an event of the batch, unless a prior structured candidate
took the place of a model extraction. -/
theorem verified_content (self : SemanticCompiler) (events : List SuppliedEvent)
    (existing : List SemanticEntityCandidate) (asOf : Option String)
    (receipt : Option TrustedReplayReceipt) (vaultRoot : Option Vault) (result : CompilationResult)
    (h : self.compileEvents events existing asOf receipt vaultRoot = .ok result)
    (hauthorized : canonicalReplayMatches events result.projectId receipt vaultRoot = true) :
    ∀ c ∈ result.candidates, c.verificationStatus = .verified → ∃ new,
      gathered self result.projectId true (compileTime asOf events) events = .ok new ∧
      (Overlooked ((candidatesById existing).lookup c.entityId)
          (new.filter (·.entityId = c.entityId)) ∨
        ∃ s, ParsedIn events s ∧ Follows s c) := by
  intro c hc hverified
  rcases compileEvents_ok h with ⟨-, hnone⟩ | ⟨st, prior, deduped, hst, hprior, hdeduped, hvalid⟩
  · rw [hnone] at hc
    cases hc
  · rw [hauthorized] at hst hprior
    cases hprior
    have hgathered : gathered self result.projectId true (compileTime asOf events) events =
        .ok st.candidates := map_eq_ok.mpr ⟨st, hst, rfl⟩
    refine ⟨st.candidates, hgathered, ?_⟩
    by_cases hoverlooked : Overlooked ((candidatesById existing).lookup c.entityId)
        (st.candidates.filter (·.entityId = c.entityId))
    · exact Or.inl hoverlooked
    · right
      have hparsed := parsedIn_gathered hgathered
      rw [hvalid] at hc
      obtain ⟨cand, hcand, entity, hentity, rfl⟩ := mem_validated hc
      have hfollows : ∀ c ∈ st.candidates.filter (·.entityId = cand.entityId),
          c.source = .structuredEvent → Follows c c := by
        intro c hc hsource
        exact (hparsed c (List.mem_filter.mp hc).1 hsource).grounded.follows
      have hgroup := mem_deduplicated hdeduped hcand
      rcases sourced_group hfollows hoverlooked hgroup with
        hmodel | ⟨s, hs, hsource, hheld⟩
      · have hcontained : ∀ c ∈ st.candidates, Contained c :=
          forall_compiled (fun _ _ _ => contained_contribute) hst
        have hproposed := contained_returned hcontained hdeduped _ hc hmodel
        rw [hverified] at hproposed
        cases hproposed
      · have hin := hparsed s (List.mem_filter.mp hs).1 hsource
        exact ⟨s, hin, hheld.validated hin.grounded hentity⟩

end

end

section
attribute [local instance] PythonText.ascii LaxInt.intOnly LaxFloat.floatOnly PythonRe.nowhere
  PythonRepr.shown

/-- A model that finds a risk in every text. -/
def riskModel : SemanticCompiler :=
  ⟨some fun _ _ _ => .ok (.list [.dict [("entity_type", .str "RISK"), ("title", .str "Delay")]]),
    none⟩

def lessonPayload : Dict := [("lesson_id", .str "lsn_ab"), ("summary", .str "Plan ahead"),
  ("text", .str "Delay"), ("title", .str "Planning")]

def lessonRecorded : ProjectEvent :=
  State.sealEvent { State.governedEvent .lessonRecorded "evt_a" lessonPayload with
    projectId := "prj_abc", sequence := 1 }

def callerProvenance : Dict := [("actor", .str "caller"),
  ("source_event_ids", .list [.str "evt_z"]), ("source_type", .str "human_entry"),
  ("supersedes", .str "lsn_zz"), ("timestamp", .str "2026-01-01T00:00:00Z")]

/-- A structured candidate that the caller made up. -/
def callerCandidate (entityType : SemanticEntityType) (entityId : String) (fields : Dict) :
    SemanticEntityCandidate :=
  ⟨entityType, entityId, setItem "provenance" (.dict callerProvenance) fields, .verified,
    .structuredEvent, one, []⟩

def callerRisk : SemanticEntityCandidate :=
  let riskId := generateDeterministicEntityId "prj_abc" .risk "Delay"
  callerCandidate .risk riskId [("created_at", .str "2026-01-01T00:00:00Z"),
    ("impact", .str "low"), ("owner", .str "caller"), ("probability", .str "low"),
    ("project_id", .str "prj_abc"), ("risk_id", .str riskId), ("status", .str "retired"),
    ("title", .str "Harmless"), ("updated_at", .str "2026-01-01T00:00:00Z")]

def callerPriors : List SemanticEntityCandidate := [callerCandidate .lesson "lsn_ab" [], callerRisk]

/-- The type and the status, and whether the title and the link are the caller's. -/
def outline (c : SemanticEntityCandidate) :
    SemanticEntityType × VerificationStatus × Bool × Option Bool :=
  (c.entityType, c.verificationStatus, (getItem c.content "title").isText "Harmless",
    c.provenance.toOption.map fun prov => (getItem prov "supersedes").isText "lsn_zz")

theorem canonical_lessonPayload : Canonical (.dict lessonPayload) := by
  rw [canonical_dict]
  simp [lessonPayload, canonical_str]

theorem chain_lessonRecorded : Chain "prj_abc" Head.start [lessonRecorded] := by
  have hsealed : lessonRecorded.Sealed :=
    State.sealed_sealEvent canonical_lessonPayload (State.printable_small (n := 1) (by decide))
  exact ⟨⟨rfl, List.not_mem_nil, rfl, rfl, hsealed⟩, trivial⟩

theorem valid_lessonRecorded : lessonRecorded.Valid where
  eventId := (by decide : isEventId "evt_a" = true)
  projectId := (by decide : isProjectId "prj_abc" = true)
  sequence := le_rfl
  timestamp := (by decide : isTimestamp "2026-01-01T00:00:00Z" = true)
  actor := (by decide : lengthBetween 128 "alice" = true)
  source := (by decide : lengthBetween 64 pseGovernance = true)
  sessionId _ h := nomatch h
  payloadDigest := isHash_of_sha256Canonical chain_lessonRecorded.1.sealed.payload
  prevEventHash := rfl
  eventHash := isHash_of_sha256Canonical chain_lessonRecorded.1.sealed.envelope
  correlationId _ h := nomatch h
  causationId _ h := nomatch h
  idempotencyKey _ h := nomatch h
  saga := rfl

/-- The batch of the recorded lesson on the authority of its ledger. -/
theorem lesson_compiles : ∃ dir result,
    canonicalReplayMatches [.instance lessonRecorded] "prj_abc"
      (some (receiptOf "prj_abc" "events.jsonl" [lessonRecorded]))
      (some (vaultOf "events.jsonl" dir)) = true ∧
    riskModel.compileEvents [.instance lessonRecorded] callerPriors none
      (some (receiptOf "prj_abc" "events.jsonl" [lessonRecorded]))
      (some (vaultOf "events.jsonl" dir)) = .ok result ∧
    result.projectId = "prj_abc" ∧
    result.candidates.map outline = [(.lesson, .verified, false, some true),
      (.risk, .verified, true, some true)] := by
  have hplain : Plain (.dict lessonPayload) := ⟨by decide +kernel, by decide +kernel⟩
  have hcanonical : Canonical (.dict lessonRecorded.modelDump) :=
    ProjectEvent.canonical_modelDump.mpr
      ⟨canonical_lessonPayload, State.printable_small (n := 1) (by decide)⟩
  obtain ⟨dir, hverified, -⟩ := exists_verified chain_lessonRecorded (by
    intro event hevent
    rw [List.mem_singleton.mp hevent]
    exact ⟨valid_lessonRecorded, hplain, hcanonical⟩)
  have hsame : sameList (identity [lessonRecorded]) (identity [lessonRecorded]) = true :=
    sameList_self _ (by decide +kernel)
  have hauthorised : canonicalReplayMatches [.instance lessonRecorded] "prj_abc"
      (some (receiptOf "prj_abc" "events.jsonl" [lessonRecorded]))
      (some (vaultOf "events.jsonl" dir)) = true := authorised_chain hverified (by simp) hsame
  have haccepted : Accepted "prj_abc" none [.instance lessonRecorded] :=
    accepted_chain chain_lessonRecorded nofun fun event h => by
      rw [List.mem_singleton.mp h]
      decide
  have hreturned : ((returned ([SuppliedEvent.instance lessonRecorded].zipIdx.flatMap
      (contributed riskModel true (timeOf none (.instance lessonRecorded)))) callerPriors
        callerPriors (timeOf none (.instance lessonRecorded))).toOption.map
          fun candidates => candidates.map outline) =
      some [(.lesson, .verified, false, some true), (.risk, .verified, true, some true)] := by
    decide +kernel
  obtain ⟨candidates, hcandidates, houtlines⟩ := Option.map_eq_some_iff.mp hreturned
  have hproject : validatedProjectId ((SuppliedEvent.instance lessonRecorded).projectId
      riskModel.fallbackProjectId) = .ok "prj_abc" := by
    change validatedProjectId (.str "prj_abc") = _
    decide
  have hcompiled : ∃ result,
      riskModel.compileEvents [.instance lessonRecorded] callerPriors none
          (some (receiptOf "prj_abc" "events.jsonl" [lessonRecorded]))
          (some (vaultOf "events.jsonl" dir)) = .ok result ∧
        result.projectId = "prj_abc" ∧ result.candidates = candidates :=
    (compileEvents_accepted rfl rfl hproject haccepted hauthorised rfl).mpr
      (toOption_eq_some.mp hcandidates)
  obtain ⟨result, hresult, hid, heq⟩ := hcompiled
  exact ⟨dir, result, hauthorised, hresult, hid, by rw [heq, houtlines]⟩

theorem outline_parsed {s : SemanticEntityCandidate}
    (h : ParsedIn [.instance lessonRecorded] s) : outline s = (.lesson, .verified, false, some false) := by
  obtain ⟨evt, hevt, structured, injected, hparse, hs⟩ := h
  rw [List.mem_singleton.mp hevt] at hparse
  have hparsed : ((parseStructuredEvent (normalizeEvent
      (SuppliedEvent.instance lessonRecorded).toDict) true).toOption.map fun r => r.1.map outline) =
      some [(.lesson, .verified, false, some false)] := by
    decide +kernel
  rw [toOption_eq_some.mpr hparse] at hparsed
  have hmem : outline s ∈ structured.map outline := List.mem_map_of_mem hs
  rw [show structured.map outline = [(.lesson, .verified, false, some false)] from
    Option.some.inj hparsed] at hmem
  exact List.mem_singleton.mp hmem

/-- The recorded lesson, returned as verified with the provenance and for the model's risk the
content of the caller's candidates. -/
theorem verified_content_lesson : ∃ dir result c,
    riskModel.compileEvents [.instance lessonRecorded] callerPriors none
      (some (receiptOf "prj_abc" "events.jsonl" [lessonRecorded]))
      (some (vaultOf "events.jsonl" dir)) = .ok result ∧
    c ∈ result.candidates ∧ c.entityType = .lesson ∧ ∃ new,
      gathered riskModel result.projectId true
        (compileTime none [.instance lessonRecorded]) [.instance lessonRecorded] = .ok new ∧
      (Overlooked ((candidatesById callerPriors).lookup c.entityId)
          (new.filter (·.entityId = c.entityId)) ∨
        ∃ s, ParsedIn [.instance lessonRecorded] s ∧ Follows s c) := by
  obtain ⟨dir, result, hauthorised, hresult, hid, houtlines⟩ := lesson_compiles
  have hmem : (SemanticEntityType.lesson, VerificationStatus.verified, false, some true) ∈
      result.candidates.map outline := by
    rw [houtlines]
    simp
  obtain ⟨c, hc, houtline⟩ := List.mem_map.mp hmem
  rw [outline, Prod.mk.injEq, Prod.mk.injEq] at houtline
  have hbatch : canonicalReplayMatches [.instance lessonRecorded] result.projectId
      (some (receiptOf "prj_abc" "events.jsonl" [lessonRecorded]))
      (some (vaultOf "events.jsonl" dir)) = true := by rw [hid, hauthorised]
  exact ⟨dir, result, c, hresult, hc, houtline.1,
    verified_content riskModel _ callerPriors none _ _ result hresult hbatch c hc houtline.2.1⟩

/-- On the ledger's authority the caller's prior candidates still give the content of a verified
risk and a link of a verified lesson. -/
theorem verified_content_of_caller : ∃ dir result,
    canonicalReplayMatches [.instance lessonRecorded] "prj_abc"
      (some (receiptOf "prj_abc" "events.jsonl" [lessonRecorded]))
      (some (vaultOf "events.jsonl" dir)) = true ∧
    riskModel.compileEvents [.instance lessonRecorded] callerPriors none
      (some (receiptOf "prj_abc" "events.jsonl" [lessonRecorded]))
      (some (vaultOf "events.jsonl" dir)) = .ok result ∧
    (∃ c ∈ result.candidates, c.verificationStatus = .verified ∧
      ∀ s, ParsedIn [.instance lessonRecorded] s → c.content ≠ s.content) ∧
    ∃ c ∈ result.candidates, c.verificationStatus = .verified ∧
      ∃ prov, c.provenance = .ok prov ∧
        ∀ s sprov, ParsedIn [.instance lessonRecorded] s → s.provenance = .ok sprov →
          prov.lookup "supersedes" ≠ sprov.lookup "supersedes" := by
  obtain ⟨dir, result, hauthorised, hresult, -, houtlines⟩ := lesson_compiles
  have hlesson : (SemanticEntityType.lesson, VerificationStatus.verified, false, some true) ∈
      result.candidates.map outline := by
    rw [houtlines]
    simp
  have hrisk : (SemanticEntityType.risk, VerificationStatus.verified, true, some true) ∈
      result.candidates.map outline := by
    rw [houtlines]
    simp
  obtain ⟨lesson, hlesson, hlessonOutline⟩ := List.mem_map.mp hlesson
  obtain ⟨risk, hrisk, hriskOutline⟩ := List.mem_map.mp hrisk
  simp only [outline, Prod.mk.injEq] at hlessonOutline hriskOutline
  refine ⟨dir, result, hauthorised, hresult, ⟨risk, hrisk, hriskOutline.2.1, ?_⟩,
    lesson, hlesson, hlessonOutline.2.1, ?_⟩
  · intro s hs heq
    have hparsed := outline_parsed hs
    simp only [outline, Prod.mk.injEq] at hparsed
    have htitle := hriskOutline.2.2.1
    rw [heq, hparsed.2.2.1] at htitle
    cases htitle
  · obtain ⟨prov, hprov, hlink⟩ := Option.map_eq_some_iff.mp hlessonOutline.2.2.2
    refine ⟨prov, toOption_eq_some.mp hprov, ?_⟩
    intro s sprov hs hsprov heq
    have hparsed := outline_parsed hs
    simp only [outline, Prod.mk.injEq] at hparsed
    have hown := hparsed.2.2.2
    rw [toOption_eq_some.mpr hsprov, Option.map_some, Option.some.injEq, getItem, ← heq] at hown
    rw [getItem, hown] at hlink
    cases hlink

end

end PowerFramework.Semantic
