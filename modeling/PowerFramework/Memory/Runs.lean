import PowerFramework.Ledger.Schema
import PowerFramework.Lib.Grouping
import PowerFramework.Memory.Proposals
import PowerFramework.TaskStore.Restore
/-!
# Runs of proposals and applications

A vault under calls of `propose_change`, `apply_change` and `apply_change_by_id` and under edits of
its notes from outside.  What an approved proposal does to its note, and which changes of the note
in between it does not see.
-/

namespace PowerFramework.Memory

open Lib Lib.Failure Lib.Json Lib.Text Lib.Writes TaskStore

set_option linter.unusedSectionVars false

/-! ## Dicts of texts -/

theorem lookup_foldl_texts (items : List (String × String)) (hnodup : (items.map Prod.fst).Nodup)
    (d : Dict) (field : String) :
    (items.foldl (fun d item => setItem item.1 (.str item.2) d) d).lookup field =
      ((items.lookup field).map Value.str).or (d.lookup field) := by
  induction items generalizing d with
  | nil => rfl
  | cons item items ih =>
    rw [List.map_cons, List.nodup_cons] at hnodup
    obtain ⟨key, value⟩ := item
    rw [List.foldl_cons, ih hnodup.2, Ledger.lookup_setItem, Grouping.lookup_cons]
    simp only
    by_cases heq : field = key
    · have hnone : items.lookup field = none := by
        rw [List.lookup_eq_none_iff]
        intro other hother
        rw [bne_iff_ne]
        intro hfield
        rw [heq] at hfield
        exact hnodup.1 (List.mem_map.mpr ⟨other, hother, hfield.symm⟩)
      rw [hnone, if_pos heq, if_pos heq]
      rfl
    · rw [if_neg heq, if_neg heq]

theorem getText_textDict {items : List (String × String)} (hnodup : (items.map Prod.fst).Nodup)
    (field : String) : getText (textDict items) field = items.lookup field := by
  unfold getText textDict
  rw [lookup_foldl_texts items hnodup]
  cases items.lookup field <;> rfl

theorem lookup_textDict {items : List (String × String)} (hnodup : (items.map Prod.fst).Nodup)
    (field : String) : (textDict items).lookup field = (items.lookup field).map Value.str := by
  unfold textDict
  rw [lookup_foldl_texts items hnodup]
  cases items.lookup field <;> rfl

/-! ## What a call asks for -/

variable {proposals proposals' : Proposals} {proposal : PublicProposal} {payload : Payload}
  {now relPath content : String} {key key' : Option String} {request : CommitRequest}

/-- The dict of a proposal says what the proposal says. -/
theorem clientProposal_dict : clientProposal proposal.dict =
    .ok ⟨proposal.payload, proposal.proposalId, some proposal.idempotencyKey⟩ := by
  have hnodup : ((proposal.payload.items ++ [("proposal_id", proposal.proposalId),
      ("idempotency_key", proposal.idempotencyKey), ("created_at", proposal.createdAt)]).map
        Prod.fst).Nodup := by
    show ["after_sha256", "before_sha256", "content", "path", "proposal_id", "idempotency_key",
      "created_at"].Nodup
    decide
  unfold clientProposal clientText PublicProposal.dict
  simp only [getText_textDict hnodup, lookup_textDict hnodup]
  rfl

theorem applyRequest_dict (h : applyRequest proposals proposal.dict true key' = .ok request) :
    durableKey proposals ⟨proposal.payload, proposal.proposalId, some proposal.idempotencyKey⟩ key' =
        .ok proposal.idempotencyKey ∧
      request.relPath = proposal.payload.path ∧ request.content = proposal.payload.content ∧
      request.expectedBeforeSha256 = some proposal.payload.beforeSha256 ∧
      request.allowedDirectories = some paraFolders ∧ request.logEntry = none ∧
      request.idempotencyKey = some proposal.idempotencyKey := by
  obtain ⟨⟨⟩, -, h⟩ := bind_eq_ok.mp h
  obtain ⟨client, hclient, h⟩ := bind_eq_ok.mp h
  rw [clientProposal_dict] at hclient
  cases hclient
  obtain ⟨⟨⟩, -, h⟩ := bind_eq_ok.mp h
  obtain ⟨storedKey, hstored, h⟩ := bind_eq_ok.mp h
  have hkey : storedKey = proposal.idempotencyKey := by
    obtain ⟨stored, -, hstored⟩ := bind_eq_ok.mp hstored
    obtain ⟨payload, -, hstored⟩ := bind_eq_ok.mp hstored
    obtain ⟨⟨⟩, -, hstored⟩ := bind_eq_ok.mp hstored
    obtain ⟨other, -, hstored⟩ := bind_eq_ok.mp hstored
    obtain ⟨⟨⟩, hsame, hstored⟩ := bind_eq_ok.mp hstored
    rw [raiseIf_eq_ok] at hsame
    have hother : proposal.idempotencyKey = other := by simpa using hsame
    cases key' with
    | none =>
      cases hstored
      exact hother.symm
    | some key =>
      obtain ⟨⟨⟩, -, hstored⟩ := bind_eq_ok.mp hstored
      obtain ⟨⟨⟩, -, hstored⟩ := bind_eq_ok.mp hstored
      cases hstored
      exact hother.symm
  subst hkey
  cases h
  exact ⟨hstored, rfl, rfl, rfl, rfl, rfl, rfl⟩

theorem publicProposal_ok {d : Dict} (h : publicProposal d = .ok proposal) :
    proposalPayload d = .ok proposal.payload ∧
      proposalIdempotencyKey d = .ok proposal.idempotencyKey ∧
      getText d "proposal_id" = some proposal.proposalId := by
  obtain ⟨payload, hpayload, h⟩ := bind_eq_ok.mp h
  obtain ⟨id, hid, h⟩ := bind_eq_ok.mp h
  split at h
  · cases h
  · obtain ⟨key, hkey, h⟩ := bind_eq_ok.mp h
    cases h
    refine ⟨hpayload, hkey, ?_⟩
    unfold storedId at hid
    split at hid
    · next other hother =>
      split_ifs at hid
      cases hid
      exact hother
    · cases hid

/-- A proposal that is found by its key has the payload. -/
theorem findKeyed_payload {k : String}
    (h : findKeyed k payload proposals = .ok (some proposal)) : proposal.payload = payload := by
  induction proposals with
  | nil => cases h
  | cons file files ih =>
    obtain ⟨existing, -, h⟩ := bind_eq_ok.mp h
    obtain ⟨other, -, h⟩ := bind_eq_ok.mp h
    split_ifs at h
    · exact ih h
    · obtain ⟨stored, hstored, h⟩ := bind_eq_ok.mp h
      obtain ⟨⟨⟩, hsame, h⟩ := bind_eq_ok.mp h
      rw [raiseIf_eq_ok, not_not] at hsame
      obtain ⟨found, hfound, heq⟩ := map_eq_ok.mp h
      cases heq
      have hread := (publicProposal_ok hfound).1
      rw [hstored, hsame] at hread
      exact (Except.ok.inj hread).symm

/-! ## What a stored record says -/

theorem isSha256_hexdigest (message : Bytes) : isSha256 (Sha256.hexdigest message) = true := by
  unfold isSha256
  rw [Bool.and_eq_true, decide_eq_true_eq, List.all_eq_true]
  exact ⟨Sha256.length_hexdigest message, fun c hc => Sha256.isHexDigit_of_mem_hexdigest hc⟩

theorem isAlnum_of_isHexDigit {c : Char} (h : Sha256.isHexDigit c = true) : isAlnum c = true := by
  simp only [Sha256.isHexDigit, isAlnum, isDigit, isLower, isUpper, Bool.or_eq_true,
    Bool.and_eq_true, decide_eq_true_eq] at h ⊢
  omega

theorem isSafeToken_hexdigest (message : Bytes) : isSafeToken (Sha256.hexdigest message) = true := by
  have hlength := Sha256.length_hexdigest message
  have hchars : ∀ c ∈ (Sha256.hexdigest message).toList, isAlnum c = true := fun c hc =>
    isAlnum_of_isHexDigit (Sha256.isHexDigit_of_mem_hexdigest hc)
  unfold isSafeToken
  cases hlist : (Sha256.hexdigest message).toList with
  | nil =>
    rw [hlist] at hlength
    cases hlength
  | cons c cs =>
    rw [hlist, List.length_cons] at hlength
    rw [hlist, List.forall_mem_cons] at hchars
    simp only [hchars.1, Bool.true_and, Bool.and_eq_true, decide_eq_true_eq, List.all_eq_true,
      Bool.or_eq_true]
    exact ⟨by omega, fun d hd => .inl (isTokenChar_of_isAlnum (hchars.2 d hd))⟩

theorem nodup_recordItems (payload : Payload) (id key now : String) :
    ((payload.items ++ [("proposal_id", id), ("idempotency_key", key), ("created_at", now)]).map
      Prod.fst).Nodup := by
  show ["after_sha256", "before_sha256", "content", "path", "proposal_id", "idempotency_key",
    "created_at"].Nodup
  decide

theorem getText_record (payload : Payload) (key : Option String) (now field : String)
    (h : field ≠ "schema_version") : getText (proposalRecord now payload key) field =
      (payload.items ++ [("proposal_id", proposalId payload),
        ("idempotency_key", key.getD (proposalId payload)), ("created_at", now)]).lookup field := by
  rw [← getText_textDict (nodup_recordItems payload _ _ _)]
  unfold getText proposalRecord
  rw [Ledger.lookup_setItem, if_neg h]

/-- The key that a record is stored with. -/
theorem key_record (hkey : ∀ k, key = some k → isSafeToken k = true) :
    proposalIdempotencyKey (proposalRecord now payload key) =
      .ok (key.getD (proposalId payload)) := by
  have hlookup : (proposalRecord now payload key).lookup "idempotency_key" =
      some (.str (key.getD (proposalId payload))) := by
    unfold proposalRecord
    rw [Ledger.lookup_setItem, if_neg (by decide), lookup_textDict (nodup_recordItems payload _ _ _)]
    rfl
  have hsafe : isSafeToken (key.getD (proposalId payload)) = true := by
    cases key with
    | none => exact isSafeToken_hexdigest _
    | some k => exact hkey k rfl
  unfold proposalIdempotencyKey
  rw [hlookup]
  simp only
  unfold validateIdempotencyKey raiseIf
  rw [if_neg (by simp [hsafe])]
  rfl

theorem payload_record : proposalPayload (proposalRecord now payload key) = .ok payload := by
  unfold proposalPayload payloadText
  rw [getText_record _ _ _ _ (by decide), getText_record _ _ _ _ (by decide),
    getText_record _ _ _ _ (by decide), getText_record _ _ _ _ (by decide)]
  rfl

theorem id_record (message : String) :
    storedId (proposalRecord now payload key) message = .ok (proposalId payload) := by
  unfold storedId
  rw [getText_record _ _ _ _ (by decide)]
  have hid : isSha256 (proposalId payload) = true := isSha256_hexdigest _
  show (if isSha256 (proposalId payload) then _ else _) = _
  rw [if_pos hid]

/-- A record reads back. -/
theorem read_record (hkey : ∀ k, key = some k → isSafeToken k = true) :
    readProposalFile (some (some (.dict (proposalRecord now payload key)))) =
      .ok (proposalRecord now payload key) := by
  show checkedProposal _ = _
  unfold checkedProposal
  rw [payload_record, id_record, key_record hkey]
  simp [bind, Except.bind, raiseIf, pure, Except.pure]

theorem public_record (hkey : ∀ k, key = some k → isSafeToken k = true) :
    publicProposal (proposalRecord now payload key) =
      .ok ⟨payload, proposalId payload, key.getD (proposalId payload), now⟩ := by
  unfold publicProposal
  rw [payload_record, id_record, getText_record _ _ _ _ (by decide), key_record hkey]
  rfl

/-- The proposal that a payload is stored as. -/
def storedProposal (now : String) (payload : Payload) (key : Option String) : PublicProposal :=
  ⟨payload, proposalId payload, key.getD (proposalId payload), now⟩

/-- The commit of a proposal. -/
def commitOf (proposal : PublicProposal) : CommitRequest where
  relPath := proposal.payload.path
  content := proposal.payload.content
  expectedBeforeSha256 := some proposal.payload.beforeSha256
  requireAbsent := false
  allowedDirectories := some paraFolders
  operation := "memory.apply"
  logEntry := none
  proposalId := some proposal.proposalId
  idempotencyKey := some proposal.idempotencyKey
  idempotencyFingerprint := none

/-- The digests of the payload are digests, the second one of its content. -/
structure Digested (payload : Payload) : Prop where
  before : isSha256 payload.beforeSha256 = true
  after : payload.afterSha256 = contentDigest payload.content

/-- A stored proposal can be applied without a key and with the one it is stored with. -/
theorem applyRequest_of_stored {d : Dict} (hread : readProposalFile
      (proposals.lookup (proposalFile proposal.proposalId)) = .ok d)
    (hpublic : publicProposal d = .ok proposal) (hid : proposal.proposalId = proposalId proposal.payload)
    (hdigested : Digested proposal.payload)
    (hkey : key' = none ∨ key' = some proposal.idempotencyKey) :
    applyRequest proposals proposal.dict true key' = .ok (commitOf proposal) := by
  obtain ⟨hpayload, hstored, -⟩ := publicProposal_ok hpublic
  have hcheck : checkClient ⟨proposal.payload, proposal.proposalId, some proposal.idempotencyKey⟩ =
      .ok ⟨⟩ := by
    have hafter : isSha256 (contentDigest proposal.payload.content) = true := isSha256_hexdigest _
    have hsha : isSha256 (proposalId proposal.payload) = true := isSha256_hexdigest _
    unfold checkClient
    simp [hdigested.before, hdigested.after, hafter, hid, hsha, raiseIf, bind, Except.bind]
  have hsafe : validateIdempotencyKey proposal.idempotencyKey = .ok () := by
    unfold proposalIdempotencyKey at hstored
    simp only at hstored
    split at hstored
    · obtain ⟨⟨⟩, hvalid, heq⟩ := map_eq_ok.mp hstored
      cases heq
      exact hvalid
    · cases hstored
  have hdurable : durableKey proposals
      ⟨proposal.payload, proposal.proposalId, some proposal.idempotencyKey⟩ key' =
        .ok proposal.idempotencyKey := by
    unfold durableKey
    rw [hread]
    rcases hkey with rfl | rfl
    · simp [hpayload, hstored, raiseIf, bind, Except.bind, pure, Except.pure]
    · simp [hpayload, hstored, hsafe, raiseIf, bind, Except.bind, pure, Except.pure]
  unfold applyRequest
  rw [clientProposal_dict]
  simp [hcheck, hdurable, raiseIf, bind, Except.bind, pure, Except.pure, commitOf]

/-! ## What a call of `propose_change` returns -/

theorem storeProposal_payload {result : PublicProposal × Proposals}
    (hkey : ∀ k, key = some k → isSafeToken k = true)
    (h : storeProposal now proposals payload key = .ok result) : result.1.payload = payload := by
  unfold storeProposal at h
  simp only at h
  split at h
  · obtain ⟨existing, -, h⟩ := bind_eq_ok.mp h
    obtain ⟨stored, hstored, h⟩ := bind_eq_ok.mp h
    obtain ⟨⟨⟩, hsame, h⟩ := bind_eq_ok.mp h
    rw [raiseIf_eq_ok, not_not] at hsame
    obtain ⟨found, hfound, h⟩ := bind_eq_ok.mp h
    cases h
    have hread := (publicProposal_ok hfound).1
    rw [hstored, hsame] at hread
    exact (Except.ok.inj hread).symm
  · rw [public_record hkey] at h
    cases h
    rfl

theorem persist_payload {result : PublicProposal × Proposals}
    (hkey : ∀ k, key = some k → isSafeToken k = true)
    (h : persist now proposals payload key = .ok result) : result.1.payload = payload := by
  obtain ⟨keyed, hkeyed, h⟩ := bind_eq_ok.mp h
  cases keyed with
  | none => exact storeProposal_payload hkey h
  | some proposal =>
    cases h
    cases key with
    | none => cases hkeyed
    | some k => exact findKeyed_payload hkeyed

section
variable [Site] {files : Files}

theorem proposalTarget_ok {target : RelPath} (h : proposalTarget relPath content key = .ok target) :
    Site.resolvePathInVault (some paraFolders) relPath = .ok target ∧
      ∀ k, key = some k → isSafeToken k = true := by
  unfold proposalTarget at h
  obtain ⟨⟨⟩, hkey, h⟩ := bind_eq_ok.mp h
  obtain ⟨found, hresolve, h⟩ := bind_eq_ok.mp h
  obtain ⟨⟨⟩, -, h⟩ := bind_eq_ok.mp h
  cases h
  refine ⟨hresolve, fun k hk => ?_⟩
  subst hk
  have hsafe := raiseIf_eq_ok.mp hkey
  simpa using hsafe

/-- A proposal that is returned is one of the content for the note as it is. -/
theorem proposeChange_ok
    (h : proposeChange now files proposals relPath content key = .ok (proposal, proposals')) :
    ∃ target before, Site.resolvePathInVault (some paraFolders) relPath = .ok target ∧
      readText target files = .ok before ∧
      proposal.payload = ⟨relPath, contentDigest before, contentDigest content, content⟩ ∧
      (∀ k, key = some k → isSafeToken k = true) ∧
      persist now proposals proposal.payload key = .ok (proposal, proposals') := by
  obtain ⟨target, htarget, h⟩ := bind_eq_ok.mp h
  obtain ⟨payload, hpayload, h⟩ := bind_eq_ok.mp h
  obtain ⟨hresolve, hkey⟩ := proposalTarget_ok htarget
  obtain ⟨before, hbefore, hmade⟩ := map_eq_ok.mp hpayload
  have hsame : proposal.payload = payload := persist_payload hkey h
  rw [← hsame] at h hmade
  exact ⟨target, before, hresolve, hbefore, hmade.symm, hkey, h⟩

/-! ## Runs -/

/-- A vault and its stored proposals. -/
structure World where
  disk : Disk
  proposals : Proposals

inductive Action where
  | propose (now relPath content : String) (key : Option String)
  | apply (env : CommitEnv) (proposal : Dict) (approved : Bool) (key : Option String)
  | applyById (env : CommitEnv) (id : String) (approved : Bool) (key : Option String)
  /-- A note is created, edited or deleted from outside. -/
  | edit (path : RelPath) (image : Option Bytes)

def World.step (w : World) : Action → World
  | .propose now relPath content key =>
      match proposeChange now w.disk.files w.proposals relPath content key with
      | .ok (_, proposals) => { w with proposals := proposals }
      | .error _ => w
  | .apply env proposal approved key =>
      { w with disk := (applyChange env w.disk w.proposals proposal approved key).2 }
  | .applyById env id approved key =>
      { w with disk := (applyChangeById env w.disk w.proposals id approved key).2 }
  | .edit path image =>
      { w with disk := { w.disk with files := Function.update w.disk.files path image } }

/-- A run of the actions. -/
def World.run (w : World) (actions : List Action) : World := actions.foldl World.step w

/-- No action changes the note. -/
def Quiet (target : RelPath) : World → List Action → Prop
  | _, [] => True
  | w, action :: actions =>
      (w.step action).disk.files target = w.disk.files target ∧ Quiet target (w.step action) actions

theorem note_of_quiet {target : RelPath} {w : World} {actions : List Action}
    (h : Quiet target w actions) : (w.run actions).disk.files target = w.disk.files target := by
  induction actions generalizing w with
  | nil => rfl
  | cons action actions ih => exact (ih h.2).trans h.1

/-! ## Approved proposals -/

variable {env : CommitEnv} {d d' : Disk} {receipt : Dict} {target : RelPath}

/-- The history has no receipt under the key. -/
def NoReceipt (files : Files) (idempotencyKey : String) : Prop :=
  findIdempotentReceipt files idempotencyKey = .ok none

theorem noReceipt_of_none (hhistory : files historyPath = none) (k : String) : NoReceipt files k := by
  have hread : readHistory files = .ok [] := by
    unfold readHistory
    rw [hhistory]
  unfold NoReceipt findIdempotentReceipt
  rw [hread]
  rfl

theorem idempotentReplay_some {prior : Option Dict} {k : String}
    (hkey : request.idempotencyKey = some k) (h : idempotentReplay files request = .ok prior) :
    findIdempotentReceipt files k = .ok prior := by
  unfold idempotentReplay at h
  rw [hkey] at h
  obtain ⟨⟨⟩, -, h⟩ := bind_eq_ok.mp h
  obtain ⟨⟨⟩, -, h⟩ := bind_eq_ok.mp h
  obtain ⟨found, hfound, h⟩ := bind_eq_ok.mp h
  cases found with
  | none =>
    cases h
    exact hfound
  | some other =>
    obtain ⟨⟨⟩, -, h⟩ := bind_eq_ok.mp h
    cases h
    exact hfound

/-- An application that returns replays the receipt of its key, or has committed the content on a
note with the proposed digest. -/
theorem applyChange_returned
    (h : applyChange env d proposals proposal.dict true key' = (.returned receipt, d'))
    (hresolve : Site.resolvePathInVault (some paraFolders) proposal.payload.path = .ok target) :
    (findIdempotentReceipt d.files proposal.idempotencyKey = .ok (some receipt) ∧ d' = d) ∨
      NoReceipt d.files proposal.idempotencyKey ∧
        d'.files target = indexedNote env d.files target proposal.payload.content ∧
        ∃ snapshot, captureFile d.files target = .ok snapshot ∧
          contentDigest snapshot.content = proposal.payload.beforeSha256 := by
  unfold applyChange at h
  split at h
  · cases h
  · next request hrequest =>
    obtain ⟨-, hpath, hcontent, hexpected, hallowed, hlog, hkey⟩ := applyRequest_dict hrequest
    rcases commitNoteChange_returned h with ⟨hentered, rfl⟩ | ⟨admission, hentered, hrun⟩
    · obtain ⟨other, -, hentered⟩ := bind_eq_ok.mp hentered
      obtain ⟨prior, hprior, hentered⟩ := bind_eq_ok.mp hentered
      have hfound := idempotentReplay_some hkey hprior
      cases prior with
      | none =>
        obtain ⟨captured, -, heq⟩ := map_eq_ok.mp hentered
        cases heq
      | some found =>
        cases hentered
        exact .inl ⟨hfound, rfl⟩
    · obtain ⟨hfound, hprior, hcapture⟩ := enterMutation_fresh hentered
      rw [hallowed, hpath, hresolve] at hfound
      cases hfound
      obtain ⟨-, hcaptured, hbefore, hstale⟩ := capture_ok hcapture
      have hnote := note_of_returned hlog (Site.resolve_markdown hresolve) hrun
      rw [hcontent] at hnote
      refine .inr ⟨idempotentReplay_some hkey hprior, hnote, _, hcaptured.target, ?_⟩
      rw [← hbefore]
      exact (hstale _ hexpected).symm

end

end PowerFramework.Memory
