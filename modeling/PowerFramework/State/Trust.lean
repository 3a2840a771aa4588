import PowerFramework.State.Acceptance
/-!
# Trust

What an event that is not trusted, or one that bears no governance, can change under historical
authority.
-/

namespace PowerFramework.State

open Lib Lib.Failure Lib.Json Lib.Run Ledger

variable {self : ProjectStateReducer} {authority : Option AuthorityContext}
  {s t : ProjectState} {event : ProjectEvent}

section
variable [PythonText]

/-- A RAID handler returns at once on an event that is not trusted. -/
theorem raidId_untrusted (h : isUntrustedEvent event = true) (idField : String) :
    raidId idField event = none := by
  simp [raidId, h]

theorem createEntity_untrusted (h : isUntrustedEvent event = true) {fields : List Field}
    {idField : String} {args : Except Exn Dict} {move : Record fields → ListMove}
    {before after : Register fields}
    (hcreate : createEntity idField event args move before = .ok after) : after = before := by
  rw [createEntity, raidId_untrusted h] at hcreate
  cases hcreate
  rfl

theorem updateEntity_untrusted (h : isUntrustedEvent event = true) {fields : List Field}
    {idField : String} {changes : Except Exn Dict} {move : Option (Record fields) → ListMove}
    {before after : Register fields}
    (hupdate : updateEntity idField event changes move before = .ok after) : after = before := by
  rw [updateEntity, raidId_untrusted h] at hupdate
  cases hupdate
  rfl

variable [LaxInt]

/-- Under historical authority an event that bears no governance writes drift markers and RAID
registers at most, and the registers only if it is trusted. -/
theorem Dispatched.ungoverned (hhistorical : historicalIn authority = true)
    (hbearing : governanceBearing event.eventType = false)
    (h : Dispatched self authority s event t) :
    ∃ markers risks assumptions issues dependencies,
      (∀ flag ∈ markers, isDriftFlag flag = true) ∧
      (isUntrustedEvent event = true → risks = s.risks ∧ assumptions = s.assumptions ∧
        issues = s.issues ∧ dependencies = s.dependencies) ∧
      t = { s with healthFlags := s.healthFlags ++ markers, risks, assumptions, issues,
                   dependencies } := by
  have hnot : ∀ {type : EventType}, governanceBearing type = true → event.eventType ≠ type := by
    intro type htrue htype
    rw [htype, htrue] at hbearing
    cases hbearing
  have hsame : ∃ markers : List String, (∀ flag ∈ markers, isDriftFlag flag = true) ∧
      s.healthFlags = s.healthFlags ++ markers := ⟨[], by simp, by simp⟩
  obtain ⟨none', hnone', hflags⟩ := hsame
  cases h with
  | created owner htype => exact absurd htype (hnot rfl)
  | owner owner htype => exact absurd htype (hnot rfl)
  | transition spec record htype _ _ _ =>
      rcases of_decide_eq_true htype with htype | htype
      · exact absurd htype (hnot rfl)
      · exact absurd htype (hnot rfl)
  | overridden evaluation htype _ _ => exact absurd htype (hnot rfl)
  | raci raci htype => rcases htype with htype | htype <;> exact absurd htype (hnot rfl)
  | evidence kinds attached htype =>
      rcases htype with htype | htype | htype <;> exact absurd htype (hnot rfl)
  | evaluation evaluation tasks decisions htype _ =>
      rcases htype with htype | htype <;> exact absurd htype (hnot rfl)
  | tasks tasks htype => rcases htype with htype | htype <;> exact absurd htype (hnot rfl)
  | associated decisions htype _ => exact absurd htype (hnot rfl)
  | disassociated decisions approved htype _ _ => exact absurd htype (hnot rfl)
  | observed markers _ _ hmarkers =>
      exact ⟨markers, _, _, _, _, hmarkers, fun _ => ⟨rfl, rfl, rfl, rfl⟩, rfl⟩
  | observedTask tasks _ hnone => simp [hnone, historicalIn] at hhistorical
  | observedDecision decisions _ hnone => simp [hnone, historicalIn] at hhistorical
  | risks risks hrisks =>
      refine ⟨none', risks, _, _, _, hnone', fun huntrusted => ⟨?_, rfl, rfl, rfl⟩, by rw [← hflags]⟩
      rcases hrisks with ⟨-, h⟩ | ⟨-, h⟩ | ⟨-, h⟩
      · exact createEntity_untrusted huntrusted h
      · exact updateEntity_untrusted huntrusted h
      · exact updateEntity_untrusted huntrusted h
  | assumptions assumptions hassumptions =>
      refine ⟨none', _, assumptions, _, _, hnone', fun huntrusted => ⟨rfl, ?_, rfl, rfl⟩,
        by rw [← hflags]⟩
      rcases hassumptions with ⟨-, h⟩ | ⟨-, h⟩ | ⟨-, h⟩
      · exact createEntity_untrusted huntrusted h
      · exact updateEntity_untrusted huntrusted h
      · exact updateEntity_untrusted huntrusted h
  | issues issues hissues =>
      refine ⟨none', _, _, issues, _, hnone', fun huntrusted => ⟨rfl, rfl, ?_, rfl⟩,
        by rw [← hflags]⟩
      rcases hissues with ⟨-, h⟩ | ⟨-, h⟩ | ⟨-, h⟩
      · exact createEntity_untrusted huntrusted h
      · exact updateEntity_untrusted huntrusted h
      · unfold handleIssueClosed at h
        exact updateEntity_untrusted huntrusted h
  | dependencies dependencies hdependencies =>
      refine ⟨none', _, _, _, dependencies, hnone', fun huntrusted => ⟨rfl, rfl, rfl, ?_⟩,
        by rw [← hflags]⟩
      rcases hdependencies with ⟨-, h⟩ | ⟨-, h⟩ | ⟨-, h⟩
      · exact createEntity_untrusted huntrusted h
      · exact updateEntity_untrusted huntrusted h
      · exact updateEntity_untrusted huntrusted h
  | inert _ _ => exact ⟨none', _, _, _, _, hnone', fun _ => ⟨rfl, rfl, rfl, rfl⟩, by rw [← hflags]⟩

/-- Under historical authority an untrusted event adds drift markers at most. -/
theorem Dispatched.untrusted (hhistorical : historicalIn authority = true)
    (huntrusted : isUntrustedEvent event = true) (hadmissible : Admissible authority event)
    (h : Dispatched self authority s event t) :
    ∃ markers, (∀ flag ∈ markers, isDriftFlag flag = true) ∧
      t = { s with healthFlags := s.healthFlags ++ markers } := by
  have hbearing : governanceBearing event.eventType = false := by
    by_contra hne
    have htrusted := (hadmissible hhistorical (by simpa using hne)).2
    rw [huntrusted] at htrusted
    cases htrusted
  obtain ⟨markers, _, _, _, _, hmarkers, hstay, rfl⟩ := h.ungoverned hhistorical hbearing
  obtain ⟨rfl, rfl, rfl, rfl⟩ := hstay huntrusted
  exact ⟨markers, hmarkers, rfl⟩

/-- Under historical authority an untrusted event that is accepted changes the lineage of the state
and its drift markers, and nothing else. -/
theorem untrusted_inert (hhistorical : historicalIn authority = true)
    (huntrusted : isUntrustedEvent event = true)
    (h : applyEvent self authority s event = .ok t) :
    ∃ markers, (∀ flag ∈ markers, isDriftFlag flag = true) ∧
      t = { s with
        healthFlags := s.healthFlags ++ markers
        lastEventSequence := event.sequence
        lastEventHash := event.eventHash
        contributingEvents := s.contributingEvents ++ [event.eventId] } := by
  obtain ⟨mid, -, hadmissible, hdispatched, rfl⟩ := applyEvent_dispatched h
  obtain ⟨markers, hmarkers, rfl⟩ := hdispatched.untrusted hhistorical huntrusted hadmissible
  exact ⟨markers, hmarkers, rfl⟩

end

section

attribute [local instance] PythonText.ascii LaxInt.intOnly

/-- The theorem on an untrusted opening of a risk. -/
theorem untrusted_inert_sample : ∃ event t, event.eventType = .riskOpened ∧
    applyEvent defaultReducer (some serviceAuthority) (.initial "prj_abc" "1.0") event = .ok t ∧
      t.risks = .empty _ := by
  let opened : ProjectEvent := nextEvent (.initial "prj_abc" "1.0")
    { governedEvent .riskOpened "pev_1" [("risk_id", .str "r1")] with source := "untrusted" }
  have huntrusted : isUntrustedEvent opened = true := by
    simp [isUntrustedEvent, opened, nextEvent, sealEvent]
  have hadmissible : Admissible (some serviceAuthority) opened := fun _ hbearing => by cases hbearing
  have hdispatch : dispatchEvent defaultReducer (.initial "prj_abc" "1.0") opened
      (some serviceAuthority) = .ok (.initial "prj_abc" "1.0") := by
    have hid : raidId "risk_id" opened = none := raidId_untrusted huntrusted _
    change (handleRiskOpened (.initial "prj_abc" "1.0") opened >>= fun risks =>
      .ok { ProjectState.initial "prj_abc" "1.0" with risks }) = _
    unfold handleRiskOpened
    dsimp only
    rw [createEntity, hid]
    rfl
  have happly : applyEvent defaultReducer (some serviceAuthority) (.initial "prj_abc" "1.0") opened =
      .ok ((ProjectState.initial "prj_abc" "1.0").advance opened) :=
    applyEvent_ok.mpr ⟨_, linked_nextEvent (by simp [canonical_dict, canonical_str, governedEvent])
      (printable_small (by decide)), hadmissible, hdispatch, rfl⟩
  obtain ⟨markers, -, ht⟩ := untrusted_inert rfl huntrusted happly
  exact ⟨opened, _, rfl, happly, by rw [ht]; rfl⟩

end

end PowerFramework.State
