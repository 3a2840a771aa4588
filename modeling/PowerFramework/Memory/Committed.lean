import PowerFramework.Memory.Rollback
import PowerFramework.TaskStore.Kill
/-!
# Commits that return

A commit that returns a receipt found it in the history and wrote nothing, or has written its
note, which only the index may have written again.
-/

namespace PowerFramework.Memory

open Lib Lib.Crash Lib.Failure Lib.Text Lib.Writes TaskStore

set_option linter.unusedSectionVars false

/-! ## The files behind a transaction -/

/-- The artifact that an operation writes. -/
def stored : FsOp → Option (RelPath × Option Bytes)
  | .store path content => some (path, content)
  | _ => none

theorem files_runOps (ops : List FsOp) (d : Disk) :
    (runOps FsOp.apply ops d).files = perform (ops.filterMap stored) d.files := by
  induction ops generalizing d with
  | nil => rfl
  | cons op ops ih =>
    rw [runOps_cons, ih]
    cases op with
    | tx name op => rfl
    | store path content => rfl
    | appendLog record => rfl

theorem stored_prepareOps (d : Disk) (t : Transaction) : (prepareOps d t).filterMap stored = [] := by
  rw [List.filterMap_eq_nil_iff, prepareOps, List.forall_mem_cons]
  refine ⟨rfl, fun op hop => ?_⟩
  obtain ⟨label, data, rfl⟩ := prepareTouched_backups hop
  rfl

theorem stored_bodyOps (t : Transaction) : t.bodyOps.filterMap stored = t.body := by
  unfold Transaction.bodyOps
  rw [List.filterMap_map]
  exact List.filterMap_some

theorem stored_commitOps (env : FsEnv) (d : Disk) (m : Manifest) (posts : List Touched) :
    (commitOps env d m posts).filterMap stored = [] := by
  rw [List.filterMap_eq_nil_iff, commitOps, List.forall_mem_cons]
  refine ⟨rfl, fun op hop => ?_⟩
  rw [rmtreeOps, List.mem_append, List.mem_map] at hop
  rcases hop with ⟨entry, -, rfl⟩ | hop
  · rfl
  · rw [List.mem_singleton.mp hop]
    rfl

/-- A committed transaction has performed the writes of its body, and its body did not fail. -/
theorem files_of_committed {env : FsEnv} {vault : String} {d : Disk} {t : Transaction}
    (h : (runTransaction env vault d t).outcome = .committed) :
    (runOps FsOp.apply (runTransaction env vault d t).ops d).files = perform t.body d.files := by
  unfold runTransaction at h ⊢
  split at h
  · cases h
  · next entries hentries =>
    simp only at h ⊢
    split at h
    · next posts hposts =>
      rw [files_runOps, throughBody, List.filterMap_append, List.filterMap_append,
        List.filterMap_cons, stored_prepareOps, stored_commitOps, List.append_nil]
      show perform (t.bodyOps.filterMap stored) d.files = _
      rw [stored_bodyOps]
    · split at h
      · cases h
      · cases h

/-! ## Transactions that commit -/

theorem prepareTouched_of_allowed {d : Disk} {txId op : String} {touched : List (RelPath × String)}
    (h : ∀ a ∈ touched, allowedRecoveryPath a.2 a.1 op = .ok a.1 ∧ Bounded (d.files a.1)) :
    (prepareTouched d txId op touched).2 = .ok (touched.map (preparedEntry d)) := by
  induction touched with
  | nil => rfl
  | cons a touched ih =>
    rw [List.forall_mem_cons] at h
    obtain ⟨path, label⟩ := a
    have hentry : prepareEntry d op path label = .ok (preparedEntry d (path, label), d.files path) :=
      prepareEntry_ok.mpr ⟨h.1, rfl⟩
    simp only [prepareTouched, hentry]
    rw [ih h.2]
    rfl

theorem finishTouched_of_allowed {d s : Disk} {t : Transaction} (hfailure : t.failure = none)
    (h : ∀ a ∈ t.touched, allowedRecoveryPath a.2 a.1 t.op = .ok a.1 ∧ Bounded (s.files a.1)) :
    ∃ posts, finishTouched s t (t.touched.map (preparedEntry d)) = .ok posts := by
  have hentry : ∀ e ∈ t.touched.map (preparedEntry d), ∃ post, finishEntry s t.op e = .ok post := by
    intro e he
    obtain ⟨a, ha, rfl⟩ := List.mem_map.mp he
    obtain ⟨hpath, hbounded⟩ := h a ha
    have hread : readImage s a.1 = .ok (s.files a.1) := readImage_ok.mpr ⟨rfl, hbounded⟩
    refine ⟨_, bind_eq_ok.mpr ⟨a.1, hpath, bind_eq_ok.mpr ⟨s.files a.1, hread, rfl⟩⟩⟩
  unfold finishTouched
  rw [hfailure]
  simp only
  cases hall : (t.touched.map (preparedEntry d)).mapM (finishEntry s t.op) with
  | ok posts => exact ⟨posts, rfl⟩
  | error exn =>
    obtain ⟨e, he, hexn⟩ := exists_of_mapM_error hall
    obtain ⟨post, hpost⟩ := hentry e he
    rw [hexn] at hpost
    cases hpost

/-- A transaction commits when its body does not fail and its artifacts are allowed and bounded,
before the body and behind it. -/
theorem committed_of_bounded {env : FsEnv} {vault : String} {d : Disk} {t : Transaction}
    (hallowed : ∀ a ∈ t.touched, allowedRecoveryPath a.2 a.1 t.op = .ok a.1)
    (hbefore : ∀ a ∈ t.touched, Bounded (d.files a.1))
    (hafter : ∀ a ∈ t.touched, Bounded (perform t.body d.files a.1))
    (hfailure : t.failure = none) : (runTransaction env vault d t).outcome = .committed := by
  have hprepared : (prepareTouched d t.txId t.op t.touched).2 =
      .ok (t.touched.map (preparedEntry d)) :=
    prepareTouched_of_allowed fun a ha => ⟨hallowed a ha, hbefore a ha⟩
  have hfiles : (runOps FsOp.apply (throughBody vault d t (t.touched.map (preparedEntry d)))
      d).files = perform t.body d.files := by
    rw [files_runOps, throughBody, List.filterMap_append, List.filterMap_cons, stored_prepareOps]
    show perform (t.bodyOps.filterMap stored) d.files = _
    rw [stored_bodyOps]
  obtain ⟨posts, hposts⟩ := finishTouched_of_allowed (d := d) (s := runOps FsOp.apply
      (throughBody vault d t (t.touched.map (preparedEntry d))) d) hfailure fun a ha => by
    rw [hfiles]
    exact ⟨hallowed a ha, hafter a ha⟩
  unfold runTransaction
  rw [hprepared]
  simp only
  rw [hposts]

section
variable [Site] {env : CommitEnv} {d : Disk} {files : Files} {request : CommitRequest}
  {admission : Admission} {receipt : Json.Dict} {d' : Disk}

theorem committed_of_raisedBy {outcome : Outcome} (h : raisedBy outcome = none) :
    outcome = .committed := by
  cases outcome with
  | refused e => cases h
  | committed => rfl
  | rolledBack e => cases h
  | rollbackFailed e => cases h

theorem handle_ne_returned {published : Bool} {exn : Exn}
    (h : handle env admission published exn d = (.returned receipt, d')) : False := by
  have hending := congrArg Prod.fst h
  have hending : rollbackEnding env published exn = .returned receipt := hending
  unfold rollbackEnding at hending
  split_ifs at hending

/-- A transaction that returns has committed its body. -/
theorem runCommit_returned (h : runCommit env d request admission = (.returned receipt, d')) :
    (commitBody env request admission d.files).2 = .ok receipt ∧
      d'.files = perform (commitBody env request admission d.files).1 d.files := by
  unfold runCommit at h
  split at h
  · exact (handle_ne_returned h).elim
  · simp only at h
    split at h
    · next hraised hbody =>
      obtain ⟨hreceipt, rfl⟩ := Prod.mk.inj h
      cases hreceipt
      exact ⟨hbody, files_of_committed (committed_of_raisedBy hraised)⟩
    · exact (handle_ne_returned h).elim
    · exact (handle_ne_returned h).elim

/-- A call that returns replays a receipt or has run its transaction. -/
theorem commitNoteChange_returned
    (h : commitNoteChange env d request = (.returned receipt, d')) :
    (enterMutation env d.files request = .ok (.replay receipt) ∧ d' = d) ∨
      ∃ admission, enterMutation env d.files request = .ok (.fresh admission) ∧
        runCommit env d request admission = (.returned receipt, d') := by
  unfold commitNoteChange at h
  split at h
  · cases h
  · next hentered =>
    cases h
    exact .inl ⟨hentered, rfl⟩
  · next admission hentered =>
    split at h
    · cases h
    · exact .inr ⟨admission, hentered, h⟩

/-- The note as the index leaves it behind the write. -/
def indexedNote (env : CommitEnv) (files : Files) (target : RelPath) (content : String) :
    Option Bytes :=
  let written := Function.update files target (some (encodeText content))
  perform (env.generateIndex written).1 written target

theorem appendLog_none (h : request.logEntry = none) (files : Files) :
    appendLog env request files = ([], .ok ()) := by
  unfold appendLog
  rw [h]
  rfl

/-- The writes of a block that returns: the note, those of the index, the history. -/
theorem commitBody_ok (hlog : request.logEntry = none) {writes : List (RelPath × Option Bytes)}
    (h : commitBody env request admission files = (writes, .ok receipt)) :
    ∃ history, writes =
      (admission.target, some (encodeText request.content)) ::
        ((env.generateIndex (Function.update files admission.target
          (some (encodeText request.content)))).1 ++ [(historyPath, history)]) := by
  obtain ⟨front, made, back, hpublish, happend, rfl⟩ := Block.bind_ok.mp h
  obtain ⟨w1, u1, rest1, hcheck, hnote, rfl⟩ := Block.bind_ok.mp hpublish
  obtain ⟨rfl, -⟩ := Block.check_ok.mp hcheck
  obtain ⟨w2, u2, rest2, hwrite, hlogged, rfl⟩ := Block.bind_ok.mp hnote
  obtain rfl := Block.write_ok.mp hwrite
  obtain ⟨w3, u3, rest3, hentry, hindexing, rfl⟩ := Block.bind_ok.mp hlogged
  rw [appendLog_none hlog] at hentry
  obtain ⟨rfl, -⟩ := Prod.mk.inj hentry
  obtain ⟨w4, summary, rest4, hindex, hlinting, rfl⟩ := Block.bind_ok.mp hindexing
  obtain ⟨w5, lint, rest5, hlint, hcounting, rfl⟩ := Block.bind_ok.mp hlinting
  obtain ⟨rfl, -⟩ := Block.read_ok.mp hlint
  obtain ⟨w6, dense, rest6, hdense, hsyncing, rfl⟩ := Block.bind_ok.mp hcounting
  obtain ⟨rfl, -⟩ := Block.read_ok.mp hdense
  obtain ⟨w7, report, rest7, hsync, hmade, rfl⟩ := Block.bind_ok.mp hsyncing
  obtain ⟨rfl, -⟩ := Block.read_ok.mp hsync
  obtain ⟨rfl, -⟩ := Prod.mk.inj hmade
  obtain ⟨w8, previous, rest8, hread, hchecking, rfl⟩ := Block.bind_ok.mp happend
  obtain ⟨rfl, -⟩ := Block.read_ok.mp hread
  obtain ⟨w9, u9, rest9, hhistory, hwriting, rfl⟩ := Block.bind_ok.mp hchecking
  obtain ⟨rfl, -⟩ := Block.check_ok.mp hhistory
  obtain ⟨w10, u10, rest10, happended, hreturned, rfl⟩ := Block.bind_ok.mp hwriting
  obtain rfl := Block.write_ok.mp happended
  obtain ⟨rfl, -⟩ := Prod.mk.inj hreturned
  refine ⟨some (encodeText (previous ++ receiptLine made)), ?_⟩
  have hindexed : (env.generateIndex (Function.update files admission.target
      (some (encodeText request.content)))).1 = w4 := congrArg Prod.fst hindex
  rw [hindexed]
  simp

/-- A transaction that returns leaves the note as the index left it. -/
theorem note_of_returned (hlog : request.logEntry = none) (htarget : admission.target ≠ historyPath)
    (h : runCommit env d request admission = (.returned receipt, d')) :
    d'.files admission.target = indexedNote env d.files admission.target request.content := by
  obtain ⟨hreceipt, hfiles⟩ := runCommit_returned h
  have hbody : commitBody env request admission d.files =
      ((commitBody env request admission d.files).1, .ok receipt) := Prod.ext rfl hreceipt
  obtain ⟨history, hwrites⟩ := commitBody_ok hlog hbody
  rw [hwrites] at hfiles
  rw [hfiles, perform_cons, perform_append, perform_cons, perform_nil, Function.update_of_ne htarget]
  rfl

end

end PowerFramework.Memory
