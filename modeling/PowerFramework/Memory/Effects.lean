import PowerFramework.Memory.Receipts
import PowerFramework.Memory.Runs
/-!
# What an approved proposal does

An approved proposal takes effect unless its key has a receipt already, as it has when the same
change was made before and undone.
-/

namespace PowerFramework.Memory

open Lib Lib.Failure Lib.Json Lib.Text Lib.Writes TaskStore

set_option linter.unusedSectionVars false

variable {proposals proposals' : Proposals} {proposal : PublicProposal} {payload : Payload}
  {now relPath content : String} {key key' : Option String} {request : CommitRequest}

section
variable [Site] {env : CommitEnv} {d' : Disk} {receipt : Dict} {target : RelPath}

/-- After an approved proposal returns, its note has the proposed content exactly when the history
had no receipt under the key of the proposal and the index left the note as it was written. -/
theorem takes_effect_iff {w : World} {actions : List Action}
    (hproposed : proposeChange now w.disk.files w.proposals relPath content key =
      .ok (proposal, proposals'))
    (hresolve : Site.resolvePathInVault (some paraFolders) relPath = .ok target)
    (hquiet : Quiet target { w with proposals := proposals' } actions)
    (hdiffers : w.disk.files target ≠ some (encodeText content))
    (h : applyChange env (World.run { w with proposals := proposals' } actions).disk
      (World.run { w with proposals := proposals' } actions).proposals proposal.dict true key' =
        (.returned receipt, d')) :
    d'.files target = some (encodeText content) ↔
      NoReceipt (World.run { w with proposals := proposals' } actions).disk.files
          proposal.idempotencyKey ∧
        indexedNote env (World.run { w with proposals := proposals' } actions).disk.files target
          content = some (encodeText content) := by
  obtain ⟨-, before, -, -, hpayload, -⟩ := proposeChange_ok hproposed
  have hnote := note_of_quiet hquiet
  have hresolve' : Site.resolvePathInVault (some paraFolders) proposal.payload.path = .ok target := by
    rw [hpayload]
    exact hresolve
  have hcontent : proposal.payload.content = content := by rw [hpayload]
  rcases applyChange_returned h hresolve' with ⟨hfound, rfl⟩ | ⟨hnone, hwritten, -⟩
  · rw [hnote]
    constructor
    · intro hsame
      exact absurd hsame hdiffers
    · rintro ⟨hnone, -⟩
      unfold NoReceipt at hnone
      rw [hfound] at hnone
      cases hnone
  · rw [hwritten, hcontent]
    constructor
    · intro hsame
      exact ⟨hnone, hsame⟩
    · rintro ⟨-, hsame⟩
      exact hsame

end

/-! ## A vault with one note -/

section
variable [Site] {files : Files}

theorem proposeChange_of_target {target : RelPath} {before : String}
    (htarget : proposalTarget relPath content key = .ok target)
    (hbefore : readText target files = .ok before) :
    proposeChange now files proposals relPath content key =
      persist now proposals ⟨relPath, contentDigest before, contentDigest content, content⟩ key := by
  unfold proposeChange proposedPayload
  rw [htarget]
  simp only [bind, Except.bind]
  rw [hbefore]
  rfl

end

/-- A payload that has its record is not stored again. -/
theorem persist_of_stored {createdAt : String} {stored : Option String}
    (hkey : ∀ k, stored = some k → isSafeToken k = true)
    (hkeyed : keyedProposal proposals payload key = .ok none)
    (hlookup : proposals.lookup (proposalFile (proposalId payload)) =
      some (some (.dict (proposalRecord createdAt payload stored)))) :
    persist now proposals payload key =
      .ok (storedProposal createdAt payload stored, proposals) := by
  unfold persist storeProposal
  rw [hkeyed]
  simp only [bind, Except.bind]
  rw [hlookup]
  simp only
  rw [read_record hkey]
  simp only
  rw [payload_record, public_record hkey]
  simp [raiseIf, storedProposal, pure, Except.pure]

theorem persist_of_new (hkey : ∀ k, key = some k → isSafeToken k = true)
    (hkeyed : keyedProposal proposals payload key = .ok none)
    (hlookup : proposals.lookup (proposalFile (proposalId payload)) = none) :
    persist now proposals payload key = .ok (storedProposal now payload key,
      putFile (proposalFile (proposalId payload))
        (some (.dict (proposalRecord now payload key))) proposals) := by
  unfold persist storeProposal
  rw [hkeyed]
  simp only [bind, Except.bind]
  rw [hlookup]
  simp only
  rw [public_record hkey]
  rfl

attribute [local instance] Site.plain

/-- The payload of a change of the plan. -/
def planPayload (content : String) : Payload :=
  ⟨"01_Projects/plan.md", contentDigest "Plan\n", contentDigest content, content⟩

def planTime : String := "2026-01-01T00:00:00+00:00"

/-- A change of the plan is proposed. -/
theorem propose_plan {files : Files} (hbefore : readText planNote files = .ok "Plan\n")
    (hkey : ∀ k, key = some k → isSafeToken k = true) :
    proposeChange now files proposals "01_Projects/plan.md" content key =
      persist now proposals (planPayload content) key := by
  have htarget : proposalTarget "01_Projects/plan.md" content key = .ok planNote := ?_
  · exact proposeChange_of_target htarget hbefore
  unfold proposalTarget checkKey validateIdempotencyKey
  cases key with
  | none => rfl
  | some k =>
    simp only [hkey k rfl]
    rfl

/-- The directory with one proposal. -/
def planProposals (content : String) : Proposals :=
  [(proposalFile (proposalId (planPayload content)),
    some (.dict (proposalRecord planTime (planPayload content) none)))]

theorem lookup_plan : (planProposals content).lookup
    (proposalFile (proposalId (planPayload content))) =
      some (some (.dict (proposalRecord planTime (planPayload content) none))) := by
  rw [planProposals, Grouping.lookup_cons]
  exact if_pos rfl

/-- The proposal in it. -/
def planProposal (content : String) : PublicProposal :=
  storedProposal planTime (planPayload content) none

theorem propose_again {files : Files} (hbefore : readText planNote files = .ok "Plan\n") :
    proposeChange now files (planProposals content) "01_Projects/plan.md" content none =
      .ok (planProposal content, planProposals content) := by
  rw [propose_plan hbefore (fun k hk => by cases hk)]
  exact persist_of_stored (fun k hk => by cases hk) rfl lookup_plan

theorem applyRequest_plan : applyRequest (planProposals content) (planProposal content).dict true
    none = .ok (commitOf (planProposal content)) := by
  refine applyRequest_of_stored (d := proposalRecord planTime (planPayload content) none) ?_ ?_ rfl
    ⟨isSha256_hexdigest _, rfl⟩ (.inl rfl)
  · show readProposalFile ((planProposals content).lookup _) = _
    rw [planProposal, storedProposal, lookup_plan]
    exact read_record (fun k hk => by cases hk)
  · exact public_record (fun k hk => by cases hk)

/-- A call with nothing in its way. -/
def openEnv : CommitEnv := { blockedEnv with lock := none }

/-- What the call has read. -/
def planAdmission : Admission where
  target := planNote
  targetSnapshot := ⟨planNote, true, "Plan\n"⟩
  beforeSha256 := contentDigest "Plan\n"
  snapshots := [⟨mainIndex, false, ""⟩]
  historySnapshot := ⟨historyPath, false, ""⟩
  logSnapshot := ⟨logPath, false, ""⟩

theorem readText_noteVault {text read : String} (h : decodeText (encodeText text) = .ok read) :
    readText planNote (noteVault text).files = .ok read := h

theorem noteVault_ne (text : String) {path : RelPath} (h : path ≠ planNote) :
    (noteVault text).files path = none := by
  show Function.update (fun _ => none) planNote _ path = none
  rw [Function.update_of_ne h]

theorem captureFile_noteVault (text : String) {path : RelPath} (h : path ≠ planNote) :
    captureFile (noteVault text).files path = .ok ⟨path, false, ""⟩ :=
  captureFile_ok.mpr (.inl ⟨noteVault_ne text h, rfl⟩)

theorem noReceipt_noteVault (text k : String) : NoReceipt (noteVault text).files k :=
  noReceipt_of_none (noteVault_ne text (by decide)) k

theorem idempotentReplay_plan {files : Files}
    (hnone : NoReceipt files (planProposal content).idempotencyKey) :
    idempotentReplay files (commitOf (planProposal content)) = .ok none := by
  have hsafe : isSafeToken (planProposal content).idempotencyKey = true := isSafeToken_hexdigest _
  unfold NoReceipt at hnone
  unfold idempotentReplay commitOf validateIdempotencyKey
  simp only [hsafe]
  rw [hnone]
  rfl

theorem enterMutation_plan {text : String} (h : decodeText (encodeText text) = .ok "Plan\n") :
    enterMutation openEnv (noteVault text).files (commitOf (planProposal content)) =
      .ok (.fresh planAdmission) := by
  have hcapture : captureFile (noteVault text).files planNote =
      .ok ⟨planNote, true, "Plan\n"⟩ := captureFile_ok.mpr (.inr ⟨_, _, rfl, h, rfl⟩)
  have hpages : captureProjectionSnapshot (noteVault text).files [] =
      .ok [⟨mainIndex, false, ""⟩] := by
    show List.mapM (captureFile (noteVault text).files) [mainIndex] = _
    rw [List.mapM_cons, captureFile_noteVault text (by decide)]
    rfl
  have hfresh : capture openEnv (noteVault text).files (commitOf (planProposal content)) planNote =
      .ok planAdmission := by
    refine bind_eq_ok.mpr ⟨_, hcapture, bind_eq_ok.mpr ⟨⟨⟩, rfl, bind_eq_ok.mpr ⟨⟨⟩, ?_,
      bind_eq_ok.mpr ⟨⟨⟩, rfl, bind_eq_ok.mpr ⟨_, hpages, bind_eq_ok.mpr ⟨_,
        captureFile_noteVault text (by decide), bind_eq_ok.mpr ⟨_,
          captureFile_noteVault text (by decide), rfl⟩⟩⟩⟩⟩⟩⟩
    rw [raiseIf_eq_ok]
    simp [commitOf, planProposal, storedProposal, planPayload]
  have hreplay : idempotentReplay (noteVault text).files (commitOf (planProposal content)) =
      .ok none := idempotentReplay_plan (noReceipt_noteVault text _)
  refine bind_eq_ok.mpr ⟨planNote, rfl, bind_eq_ok.mpr ⟨none, hreplay, ?_⟩⟩
  exact map_eq_ok.mpr ⟨_, hfresh, rfl⟩

/-- The items of the receipt of the change. -/
def planItems (content : String) : List (String × String) :=
  [("receipt_schema", "power.receipt.v1"), ("operation", "memory.apply"),
    ("path", "01_Projects/plan.md"), ("before_sha256", contentDigest "Plan\n"),
    ("after_sha256", contentDigest content), ("at", planTime), ("trace_id", "0f"),
    ("span_id", "0f"), ("status", "ok"), ("proposal_id", proposalId (planPayload content)),
    ("idempotency_key", proposalId (planPayload content)), ("index_summary", ""),
    ("search_mode", "fts"), ("search_generation", "g1"), ("notes_scanned", "1"),
    ("notes_indexed", "1"), ("notes_excluded", "0"), ("lint_orphans", "0"),
    ("duration_ms", "1.000")]

def planReceipt (content : String) : Dict := textDict (planItems content)

theorem commitBody_plan (text : String) :
    commitBody openEnv (commitOf (planProposal content)) planAdmission (noteVault text).files =
      ([(planNote, some (encodeText content)),
        (historyPath, some (encodeText ("" ++ receiptLine (planReceipt content))))],
        .ok (planReceipt content)) := by
  rfl

theorem length_contentDigest (text : String) : (contentDigest text).toList.length = 64 :=
  Sha256.length_hexdigest _

theorem length_proposalId (payload : Payload) : (proposalId payload).toList.length = 64 :=
  Sha256.length_hexdigest _

theorem planReceipt_size (content : String) : receiptSize (planReceipt content) ≤ 1000 := by
  unfold planReceipt
  refine le_trans (receiptSize_textDict _) ?_
  unfold planItems
  simp only [List.map_cons, List.map_nil, List.sum_cons, List.sum_nil, length_contentDigest,
    length_proposalId]
  decide +kernel

theorem planReceipt_short (content : String) :
    (encodeText ("" ++ receiptLine (planReceipt content))).length ≤ 50000 := by
  have hsize := planReceipt_size content
  have hline := length_receiptLine_le (planReceipt content)
  have hencoded := Utf8.length_encode_le (receiptLine (planReceipt content)).toList
  rw [encodeText, String.empty_append]
  omega

theorem commits_plan {text : String} (htext : (encodeText text).length ≤ 100)
    (hcontent : (encodeText content).length ≤ 100) :
    (runTransaction openEnv.fs openEnv.vault (noteVault text) (commitTransaction openEnv
      (commitOf (planProposal content)) planAdmission (noteVault text).files)).outcome =
        .committed := by
  have hnone : ∀ path, path ≠ planNote → Bounded ((noteVault text).files path) := by
    intro path hpath data hdata
    rw [noteVault_ne text hpath] at hdata
    cases hdata
  refine committed_of_bounded ?_ ?_ ?_ ?_
  · show ∀ a ∈ [(planNote, "note"), (historyPath, "history"), (logPath, "log")],
      allowedRecoveryPath a.2 a.1 "memory_apply" = .ok a.1
    decide +kernel
  · simp only [commitTransaction, List.forall_mem_cons]
    refine ⟨?_, hnone _ (by decide), hnone _ (by decide), fun a ha => by cases ha⟩
    intro data hdata
    cases hdata
    unfold maxTaskStateBytes
    omega
  · unfold commitTransaction
    simp only [List.forall_mem_cons]
    rw [commitBody_plan text]
    refine ⟨?_, ?_, ?_, fun a ha => by cases ha⟩
    · intro data hdata
      cases hdata
      unfold maxTaskStateBytes
      omega
    · intro data hdata
      rw [perform_cons, perform_cons, perform_nil, Function.update_self] at hdata
      obtain rfl := Option.some.inj hdata
      have hlength := planReceipt_short content
      unfold maxTaskStateBytes
      omega
    · intro data hdata
      cases hdata
  · unfold commitTransaction
    simp only
    rw [commitBody_plan text]

/-- A history with the receipt of the change. -/
def AppliedHistory (content : String) (files : Files) : Prop :=
  files historyPath = some (encodeText ("" ++ receiptLine (planReceipt content)))

/-- The change is applied to a note that reads as the one it was proposed for. -/
theorem applies_plan (text content : String) (h : decodeText (encodeText text) = .ok "Plan\n")
    (htext : (encodeText text).length ≤ 100) (hcontent : (encodeText content).length ≤ 100) :
    ∃ d', applyChange openEnv (noteVault text) (planProposals content)
        (planProposal content).dict true none = (.returned (planReceipt content), d') ∧
      d'.files planNote = some (encodeText content) ∧ AppliedHistory content d'.files := by
  unfold applyChange
  rw [applyRequest_plan]
  simp only
  unfold commitNoteChange
  rw [enterMutation_plan h]
  simp only
  have hrun : ∃ d', runCommit openEnv (noteVault text) (commitOf (planProposal content))
      planAdmission = (.returned (planReceipt content), d') := by
    unfold runCommit
    have hlock : openEnv.lock = none := rfl
    rw [hlock]
    simp only
    rw [commits_plan htext hcontent, commitBody_plan text]
    exact ⟨_, rfl⟩
  obtain ⟨d', hrun⟩ := hrun
  obtain ⟨-, hfiles⟩ := runCommit_returned hrun
  rw [commitBody_plan text] at hfiles
  refine ⟨d', hrun, ?_, ?_⟩
  · have hne : planNote ≠ historyPath := by decide
    rw [hfiles, perform_cons, perform_cons, perform_nil, Function.update_of_ne hne,
      Function.update_self]
  · unfold AppliedHistory
    rw [hfiles, perform_cons, perform_cons, perform_nil, Function.update_self]

/-! ## The change again -/

theorem allowed_plan : ∀ item ∈ planItems content, Allowed item := by
  have hbefore : Allowed ("before_sha256", contentDigest "Plan\n") :=
    allowed_digest (by decide) (by decide) (by decide) _
  have hafter : Allowed ("after_sha256", contentDigest content) :=
    allowed_digest (by decide) (by decide) (by decide) _
  have hid : Allowed ("proposal_id", proposalId (planPayload content)) :=
    allowed_digest (by decide) (by decide) (by decide) _
  have hkey : Allowed ("idempotency_key", proposalId (planPayload content)) :=
    allowed_digest (by decide) (by decide) (by decide) _
  unfold planItems planTime
  simp only [List.forall_mem_cons, hbefore, hafter, hid, hkey, true_and]
  refine ⟨?_, ?_, ?_, ?_, ?_, ?_, ?_, ?_, ?_, ?_, ?_, ?_, ?_, ?_, ?_, fun item hitem => by cases hitem⟩
  all_goals exact ⟨by decide +kernel, by decide +kernel, by decide +kernel⟩

theorem getText_planReceipt (field : String) :
    getText (planReceipt content) field = (planItems content).lookup field := by
  refine getText_textDict ?_ field
  show ["receipt_schema", "operation", "path", "before_sha256", "after_sha256", "at", "trace_id",
    "span_id", "status", "proposal_id", "idempotency_key", "index_summary", "search_mode",
    "search_generation", "notes_scanned", "notes_indexed", "notes_excluded", "lint_orphans",
    "duration_ms"].Nodup
  decide

theorem sameMutation_plan (content : String) :
    sameMutation (commitOf (planProposal content)) (planReceipt content) = true := by
  unfold sameMutation
  simp only [getText_planReceipt]
  simp [planItems, commitOf, planProposal, storedProposal, planPayload, Grouping.lookup_cons,
    List.lookup_nil]

theorem replays_plan {files : Files} (h : AppliedHistory content files) :
    idempotentReplay files (commitOf (planProposal content)) = .ok (some (planReceipt content)) := by
  have hsafe : isSafeToken (planProposal content).idempotencyKey = true := isSafeToken_hexdigest _
  have hshort := planReceipt_short content
  unfold AppliedHistory at h
  rw [String.empty_append] at h hshort
  have hkey : getText (planReceipt content) "idempotency_key" =
      some (planProposal content).idempotencyKey := by
    rw [getText_planReceipt]
    rfl
  have hne : planReceipt content ≠ [] := by
    intro hnil
    rw [hnil] at hkey
    cases hkey
  have hread : readHistory files = .ok [planReceipt content] := by
    refine readHistory_line (printable_textDict allowed_plan) hne h ?_
      (accepted_textDict allowed_plan)
    unfold maxHistoryLineBytes
    omega
  have hfound : findIdempotentReceipt files (planProposal content).idempotencyKey =
      .ok (some (planReceipt content)) := by
    unfold findIdempotentReceipt
    rw [hread]
    simp [Except.mapError, bind, Except.bind, pure, Except.pure, hkey]
  have hsame := sameMutation_plan content
  unfold idempotentReplay commitOf validateIdempotencyKey at *
  simp only [hsafe]
  simp only [hfound]
  simp [raiseIf, bind, Except.bind, pure, Except.pure, hsame]

/-- A vault whose plan is to be changed. -/
def planWorld : World := ⟨noteVault "Plan\n", []⟩

def proposePlan (content : String) : Action :=
  .propose planTime "01_Projects/plan.md" content none

def applyPlan (content : String) : Action := .apply openEnv (planProposal content).dict true none

theorem readText_planWorld : readText planNote (noteVault "Plan\n").files = .ok "Plan\n" :=
  readText_noteVault (by decide)

theorem propose_first (content : String) :
    proposeChange planTime (noteVault "Plan\n").files [] "01_Projects/plan.md" content none =
      .ok (planProposal content, planProposals content) := by
  rw [propose_plan readText_planWorld (fun k hk => by cases hk)]
  exact persist_of_new (fun k hk => by cases hk) rfl rfl

theorem step_proposePlan (content : String) : planWorld.step (proposePlan content) =
    ⟨noteVault "Plan\n", planProposals content⟩ := by
  unfold World.step proposePlan planWorld
  simp only
  rw [propose_first]

theorem indexedNote_plan (files : Files) (content : String) :
    indexedNote openEnv files planNote content = some (encodeText content) := by
  show perform [] _ planNote = _
  rw [perform_nil, Function.update_self]

/-- The change of the plan takes effect. -/
theorem plan_takes_effect : ∃ d', applyChange openEnv (noteVault "Plan\n") (planProposals "Goal\n")
      (planProposal "Goal\n").dict true none = (.returned (planReceipt "Goal\n"), d') ∧
    d'.files planNote = some (encodeText "Goal\n") := by
  obtain ⟨d', happlied, -⟩ := applies_plan "Plan\n" "Goal\n" (by decide) (by decide) (by decide)
  have hproposed : proposeChange planTime (noteVault "Plan\n").files (planProposals "Goal\n")
      "01_Projects/plan.md" "Goal\n" none = .ok (planProposal "Goal\n", planProposals "Goal\n") :=
    propose_again readText_planWorld
  have hdiffers : (noteVault "Plan\n").files planNote ≠ some (encodeText "Goal\n") := by decide
  have hresolve : Site.resolvePathInVault (some paraFolders) "01_Projects/plan.md" =
      .ok planNote := rfl
  have hiff := @takes_effect_iff (planProposals "Goal\n") (planProposal "Goal\n") planTime
    "01_Projects/plan.md" "Goal\n" none none _ openEnv d' (planReceipt "Goal\n") planNote
    ⟨noteVault "Plan\n", planProposals "Goal\n"⟩ [] hproposed hresolve trivial hdiffers happlied
  exact ⟨d', happlied, hiff.mpr ⟨noReceipt_noteVault "Plan\n" _, indexedNote_plan _ "Goal\n"⟩⟩

/-- The vault when the change is made and undone. -/
def undoneWorld (content : String) : World :=
  planWorld.run [proposePlan content, applyPlan content,
    .edit planNote (some (encodeText "Plan\n"))]

theorem undoneWorld_eq (hcontent : (encodeText content).length ≤ 100) :
    ∃ d' : Disk, AppliedHistory content d'.files ∧ undoneWorld content =
      ⟨{ d' with files := Function.update d'.files planNote (some (encodeText "Plan\n")) },
        planProposals content⟩ := by
  obtain ⟨d', happlied, -, hhistory⟩ := applies_plan "Plan\n" content (by decide) (by decide) hcontent
  refine ⟨d', hhistory, ?_⟩
  unfold undoneWorld
  rw [World.run, List.foldl_cons, List.foldl_cons, List.foldl_cons, List.foldl_nil,
    step_proposePlan]
  unfold World.step applyPlan
  simp only
  rw [happlied]

theorem applyChange_of_replay {env : CommitEnv} {d : Disk} {target : RelPath} {receipt : Dict}
    (hrequest : applyRequest proposals proposal.dict true key = .ok request)
    (hresolve : Site.resolvePathInVault request.allowedDirectories request.relPath = .ok target)
    (hreplay : idempotentReplay d.files request = .ok (some receipt)) :
    applyChange env d proposals proposal.dict true key = (.returned receipt, d) := by
  have hentered : enterMutation env d.files request = .ok (.replay receipt) :=
    bind_eq_ok.mpr ⟨target, hresolve, bind_eq_ok.mpr ⟨some receipt, hreplay, rfl⟩⟩
  unfold applyChange
  rw [hrequest]
  simp only
  unfold commitNoteChange
  rw [hentered]

/-- What happens to a change that is undone and proposed again. -/
theorem again_plan (content : String) (hcontent : (encodeText content).length ≤ 100) :
    proposeChange planTime (undoneWorld content).disk.files (undoneWorld content).proposals
        "01_Projects/plan.md" content none =
          .ok (planProposal content, (undoneWorld content).proposals) ∧
      applyChange openEnv (undoneWorld content).disk (undoneWorld content).proposals
        (planProposal content).dict true none =
          (.returned (planReceipt content), (undoneWorld content).disk) ∧
      (undoneWorld content).disk.files planNote = some (encodeText "Plan\n") := by
  obtain ⟨d', hhistory, hworld⟩ := undoneWorld_eq hcontent
  rw [hworld]
  simp only
  have hread : readText planNote (Function.update d'.files planNote (some (encodeText "Plan\n"))) =
      .ok "Plan\n" := by
    unfold readText
    rw [Function.update_self]
    decide
  have hkept : AppliedHistory content
      (Function.update d'.files planNote (some (encodeText "Plan\n"))) := by
    have hne : historyPath ≠ planNote := by decide
    unfold AppliedHistory
    rw [Function.update_of_ne hne]
    exact hhistory
  refine ⟨propose_again hread, ?_, Function.update_self planNote _ _⟩
  have hresolve : Site.resolvePathInVault (commitOf (planProposal content)).allowedDirectories
      (commitOf (planProposal content)).relPath = .ok planNote := rfl
  exact applyChange_of_replay applyRequest_plan hresolve (replays_plan hkept)

/-- When the change is undone and proposed again, its old receipt is returned and the note is left
as it is. -/
theorem undone_is_left :
    proposeChange planTime (undoneWorld "Goal\n").disk.files (undoneWorld "Goal\n").proposals
        "01_Projects/plan.md" "Goal\n" none =
          .ok (planProposal "Goal\n", (undoneWorld "Goal\n").proposals) ∧
      applyChange openEnv (undoneWorld "Goal\n").disk (undoneWorld "Goal\n").proposals
        (planProposal "Goal\n").dict true none =
          (.returned (planReceipt "Goal\n"), (undoneWorld "Goal\n").disk) ∧
      (undoneWorld "Goal\n").disk.files planNote = some (encodeText "Plan\n") ∧
      (undoneWorld "Goal\n").disk.files planNote ≠ some (encodeText "Goal\n") := by
  obtain ⟨hproposed, happlied, hnote⟩ := again_plan "Goal\n" (by decide)
  refine ⟨hproposed, happlied, hnote, ?_⟩
  rw [hnote]
  decide

end PowerFramework.Memory
