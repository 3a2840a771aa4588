import PowerFramework.Memory.Effects
/-!
# Stale approvals

An approval is compared with the note through the digest of the text it reads as, where a missing
note reads as an empty one.  Which changes of the note in between pass that comparison.
-/

namespace PowerFramework.Memory

open Lib Lib.Failure Lib.Newlines TaskStore

set_option linter.unusedSectionVars false

/-- A note that changed from the first image to the second reads as before. -/
inductive Disguised : Option Bytes → Option Bytes → Prop where
  /-- An empty note was created. -/
  | created : Disguised none (some [])
  /-- An empty note was deleted. -/
  | deleted : Disguised (some []) none
  /-- Only line endings were changed. -/
  | newlines {a b : List Char} (differ : a ≠ b) (alike : Newlines.translate a = Newlines.translate b) :
      Disguised (some (Utf8.encode a)) (some (Utf8.encode b))

theorem translate_eq_nil {text : List Char} (h : Newlines.translate text = []) : text = [] := by
  fun_cases Newlines.translate text with
  | case1 => rfl
  | case2 text =>
    rw [Newlines.translate] at h
    cases h
  | case3 text hnext =>
    rw [Newlines.translate] at h
    · cases h
    · exact hnext
  | case4 c text hcrlf hcr =>
    rw [Newlines.translate] at h
    · cases h
    · exact hcrlf
    · exact hcr

variable {target : RelPath} {f g : Files} {text : String}

theorem readText_none (h : f target = none) (hread : readText target f = .ok text) : text = "" := by
  unfold readText at hread
  rw [h] at hread
  exact (Except.ok.inj hread).symm

theorem readText_some {data : Bytes} (h : f target = some data)
    (hread : readText target f = .ok text) :
    ∃ chars, data = Utf8.encode chars ∧ text = String.ofList (Newlines.translate chars) := by
  unfold readText at hread
  rw [h] at hread
  exact decodeText_eq_ok.mp hread

theorem ofList_translate_eq_empty {chars : List Char} (h : "" = String.ofList (Newlines.translate chars)) :
    chars = [] := by
  have hlist : Newlines.translate chars = [] := by
    simpa using congrArg String.toList h.symm
  exact translate_eq_nil hlist

/-- Two images of a note that read as one text are the same unless one is a disguise. -/
theorem same_iff_not_disguised (hf : readText target f = .ok text)
    (hg : readText target g = .ok text) :
    g target = f target ↔ ¬ Disguised (f target) (g target) := by
  cases hbefore : f target with
  | none =>
    obtain rfl := readText_none hbefore hf
    cases hafter : g target with
    | none =>
      constructor
      · intro _ hdisguised
        cases hdisguised
      · intro _
        rfl
    | some data =>
      obtain ⟨chars, rfl, hempty⟩ := readText_some hafter hg
      obtain rfl := ofList_translate_eq_empty hempty
      constructor
      · intro h
        cases h
      · intro h
        exact absurd Disguised.created h
  | some data =>
    obtain ⟨chars, rfl, htext⟩ := readText_some hbefore hf
    cases hafter : g target with
    | none =>
      obtain rfl := readText_none hafter hg
      obtain rfl := ofList_translate_eq_empty htext
      constructor
      · intro h
        cases h
      · intro h
        exact absurd Disguised.deleted h
    | some other =>
      obtain ⟨others, rfl, htext'⟩ := readText_some hafter hg
      rw [htext] at htext'
      have halike : Newlines.translate chars = Newlines.translate others := by
        have hlist := congrArg String.toList htext'
        rwa [String.toList_ofList, String.toList_ofList] at hlist
      constructor
      · intro h hdisguised
        have hsame := Utf8.encode_injective (Option.some.inj h)
        generalize hx : some (Utf8.encode chars) = x at hdisguised
        generalize hy : some (Utf8.encode others) = y at hdisguised
        cases hdisguised with
        | created => cases hx
        | deleted => cases hy
        | newlines differ alike =>
          have ha := Utf8.encode_injective (Option.some.inj hx)
          have hb := Utf8.encode_injective (Option.some.inj hy)
          exact differ (by rw [← ha, ← hb, hsame])
      · intro h
        by_contra hne
        exact h (.newlines (fun hsame => hne (by rw [hsame])) halike)

theorem readText_of_capture {snapshot : FileSnapshot}
    (h : captureFile f target = .ok snapshot) : readText target f = .ok snapshot.content := by
  unfold readText
  rcases captureFile_ok.mp h with ⟨hnone, rfl⟩ | ⟨data, content, hsome, hcontent, rfl⟩
  · rw [hnone]
  · rw [hsome]
    exact hcontent

/-- SHA-256 tells the two texts of the note apart. -/
def NoCollision (target : RelPath) (f g : Files) : Prop :=
  ∀ a b, readText target f = .ok a → readText target g = .ok b →
    contentDigest a = contentDigest b → a = b

section
variable [Site] {env : CommitEnv} {d' : Disk} {receipt : Json.Dict} {proposals proposals' : Proposals}
  {proposal : PublicProposal} {now relPath content : String} {key key' : Option String}
  {request : CommitRequest} {amid : Files → Files} {d : Disk}

/-- `commit_note_change` with the edits from outside between its checks and its first write. -/
def commitAmid (env : CommitEnv) (d : Disk) (amid : Files → Files) (request : CommitRequest) :
    Ending × Disk :=
  let later := { d with files := amid d.files }
  match enterMutation env d.files request with
  | .error exn => (.raised exn, later)
  | .ok (.replay receipt) => (.returned receipt, later)
  | .ok (.fresh admission) =>
      match env.openStore with
      | some exn => (.raised exn, later)
      | none => runCommit env later request admission

/-- `apply_change` with the edits from outside between its checks and its first write. -/
def applyAmid (env : CommitEnv) (d : Disk) (amid : Files → Files) (proposals : Proposals)
    (proposal : Json.Dict) (approved : Bool) (idempotencyKey : Option String) : Ending × Disk :=
  match applyRequest proposals proposal approved idempotencyKey with
  | .error exn => (.raised exn, { d with files := amid d.files })
  | .ok request => commitAmid env d amid request

theorem commitAmid_id (env : CommitEnv) (d : Disk) (request : CommitRequest) :
    commitAmid env d id request = commitNoteChange env d request := rfl

theorem applyAmid_id (env : CommitEnv) (d : Disk) (proposals : Proposals) (proposal : Json.Dict)
    (approved : Bool) (key : Option String) :
    applyAmid env d id proposals proposal approved key =
      applyChange env d proposals proposal approved key := rfl

/-- An application that is no replay has found a note with the proposed digest. -/
theorem digest_of_applied (hresolve : Site.resolvePathInVault (some paraFolders)
      proposal.payload.path = .ok target) (hfirst : NoReceipt d.files proposal.idempotencyKey)
    (h : applyAmid env d amid proposals proposal.dict true key' = (.returned receipt, d')) :
    ∃ snapshot, captureFile d.files target = .ok snapshot ∧
      contentDigest snapshot.content = proposal.payload.beforeSha256 := by
  unfold applyAmid at h
  split at h
  · cases h
  · next request hrequest =>
    obtain ⟨-, hpath, -, hexpected, hallowed, -, hkey⟩ := applyRequest_dict hrequest
    unfold commitAmid at h
    split at h
    · cases h
    · next replayed hentered =>
      obtain ⟨other, -, hentered⟩ := bind_eq_ok.mp hentered
      obtain ⟨prior, hprior, hentered⟩ := bind_eq_ok.mp hentered
      have hfound := idempotentReplay_some hkey hprior
      unfold NoReceipt at hfirst
      rw [hfirst] at hfound
      cases hfound
      obtain ⟨captured, -, heq⟩ := map_eq_ok.mp hentered
      cases heq
    · next admission hentered =>
      obtain ⟨hfound, -, hcapture⟩ := enterMutation_fresh hentered
      rw [hallowed, hpath, hresolve] at hfound
      cases hfound
      obtain ⟨-, hcaptured, hbefore, hstale⟩ := capture_ok hcapture
      refine ⟨_, hcaptured.target, ?_⟩
      rw [← hbefore]
      exact (hstale _ hexpected).symm

/-- A proposal that is applied for the first time, on a note that is left alone since the check, is
written over the note it was made for exactly when the note was not changed into one that reads the
same, nor into one with the same digest. -/
theorem applied_to_same_iff {w : World} {actions : List Action}
    (hproposed : proposeChange now w.disk.files w.proposals relPath content key =
      .ok (proposal, proposals'))
    (hresolve : Site.resolvePathInVault (some paraFolders) relPath = .ok target)
    (hfirst : NoReceipt (World.run { w with proposals := proposals' } actions).disk.files
      proposal.idempotencyKey)
    (hleft : amid (World.run { w with proposals := proposals' } actions).disk.files target =
      (World.run { w with proposals := proposals' } actions).disk.files target)
    (h : applyAmid env (World.run { w with proposals := proposals' } actions).disk amid
      (World.run { w with proposals := proposals' } actions).proposals proposal.dict true key' =
        (.returned receipt, d')) :
    amid (World.run { w with proposals := proposals' } actions).disk.files target =
        w.disk.files target ↔
      ¬ Disguised (w.disk.files target)
          ((World.run { w with proposals := proposals' } actions).disk.files target) ∧
        NoCollision target w.disk.files
          (World.run { w with proposals := proposals' } actions).disk.files := by
  generalize World.run { w with proposals := proposals' } actions = later at *
  rw [hleft]
  obtain ⟨found, before, hfound, hbefore, hpayload, -⟩ := proposeChange_ok hproposed
  rw [hresolve] at hfound
  cases hfound
  have hresolve' : Site.resolvePathInVault (some paraFolders) proposal.payload.path = .ok target := by
    rw [hpayload]
    exact hresolve
  obtain ⟨snapshot, hcapture, hdigest⟩ := digest_of_applied hresolve' hfirst h
  have hafter := readText_of_capture hcapture
  have hdigest : contentDigest before = contentDigest snapshot.content := by
    rw [hdigest, hpayload]
  constructor
  · intro hsame
    have hread : readText target w.disk.files = .ok snapshot.content := by
      unfold readText at hafter ⊢
      rw [← hsame]
      exact hafter
    rw [hread] at hbefore
    cases hbefore
    refine ⟨(same_iff_not_disguised hread hafter).mp hsame, fun a b ha hb _ => ?_⟩
    rw [hread] at ha
    rw [hafter] at hb
    cases ha
    cases hb
    rfl
  · rintro ⟨hdisguised, hcollision⟩
    have htext := hcollision _ _ hbefore hafter hdigest
    rw [htext] at hbefore
    exact (same_iff_not_disguised hbefore hafter).mpr hdisguised

end

/-! ## A note that comes back with other newlines -/

attribute [local instance] Site.plain

/-- The run of one edit of the plan. -/
theorem run_edit (text content : String) : World.run ⟨noteVault "Plan\n", planProposals content⟩
    [.edit planNote (some (encodeText text))] = ⟨noteVault text, planProposals content⟩ := by
  show World.mk { noteVault "Plan\n" with
    files := Function.update (noteVault "Plan\n").files planNote (some (encodeText text)) } _ = _
  rw [noteVault, Function.update_idem]
  rfl

/-- The change of a plan that is left alone is applied to the plan it was made for. -/
theorem applied_to_plan : ∃ d', applyChange openEnv (noteVault "Plan\n") (planProposals "Goal\n")
      (planProposal "Goal\n").dict true none = (.returned (planReceipt "Goal\n"), d') ∧
    ¬ Disguised ((noteVault "Plan\n").files planNote) ((noteVault "Plan\n").files planNote) := by
  obtain ⟨d', happlied, -⟩ := applies_plan "Plan\n" "Goal\n" (by decide) (by decide) (by decide)
  have hproposed : proposeChange planTime (noteVault "Plan\n").files (planProposals "Goal\n")
      "01_Projects/plan.md" "Goal\n" none = .ok (planProposal "Goal\n", planProposals "Goal\n") :=
    propose_again readText_planWorld
  have hamid := (applyAmid_id openEnv (noteVault "Plan\n") (planProposals "Goal\n")
    (planProposal "Goal\n").dict true none).trans happlied
  have hresolve : Site.resolvePathInVault (some paraFolders) "01_Projects/plan.md" =
      .ok planNote := rfl
  have hiff := @applied_to_same_iff planNote _ openEnv d' (planReceipt "Goal\n")
    (planProposals "Goal\n") (planProposal "Goal\n") planTime "01_Projects/plan.md" "Goal\n" none
    none id ⟨noteVault "Plan\n", planProposals "Goal\n"⟩ [] hproposed hresolve
    (noReceipt_noteVault "Plan\n" _) rfl hamid
  exact ⟨d', happlied, (hiff.mp rfl).1⟩

/-- The change of a plan that comes back with other newlines is written over it. -/
theorem overwrites_crlf :
    proposeChange planTime (noteVault "Plan\n").files (planProposals "Goal\n")
        "01_Projects/plan.md" "Goal\n" none = .ok (planProposal "Goal\n", planProposals "Goal\n") ∧
      World.run ⟨noteVault "Plan\n", planProposals "Goal\n"⟩
          [.edit planNote (some (encodeText "Plan\r\n"))] =
        ⟨noteVault "Plan\r\n", planProposals "Goal\n"⟩ ∧
      NoReceipt (noteVault "Plan\r\n").files (planProposal "Goal\n").idempotencyKey ∧
      (∃ d', applyChange openEnv (noteVault "Plan\r\n") (planProposals "Goal\n")
          (planProposal "Goal\n").dict true none = (.returned (planReceipt "Goal\n"), d') ∧
        d'.files planNote = some (encodeText "Goal\n")) ∧
      (noteVault "Plan\r\n").files planNote ≠ (noteVault "Plan\n").files planNote := by
  obtain ⟨d', happlied, hnote, -⟩ := applies_plan "Plan\r\n" "Goal\n" (by decide) (by decide) (by decide)
  refine ⟨propose_again readText_planWorld, run_edit "Plan\r\n" "Goal\n",
    noReceipt_noteVault "Plan\r\n" _, ⟨d', happlied, hnote⟩, ?_⟩
  decide

end PowerFramework.Memory
