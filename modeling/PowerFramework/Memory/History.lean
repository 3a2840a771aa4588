import PowerFramework.Lib.Run
import PowerFramework.Memory.Effects
import PowerFramework.Memory.ReceiptText
/-!
# The history of the receipts

`_append_receipt` puts a line behind whatever the history holds, and `read_history` bounds the file,
bounds every line and cuts the text at its line boundaries.  A commit keeps the history readable
exactly when there is room for its line.
-/

namespace PowerFramework.Memory

open Lib Lib.Crash Lib.Failure Lib.Json Lib.Text Lib.Writes TaskStore

set_option linter.unusedSectionVars false

section
variable {files : Files} {receipt : Dict} {records : List Dict}

/-! ## Reading what was appended -/

/-- The lines of the history that are read. -/
def historyLines (text : List Char) : List (List Char) :=
  (Splitlines.splitlines text).filter fun line => !line.isEmpty

/-- A readable history as its text. -/
theorem readHistory_ok (h : readHistory files = .ok records) : ∃ previous,
    readText historyPath files = .ok previous ∧ '\r' ∉ previous.toList ∧
      (historyLines previous.toList).mapM readReceipt = .ok records := by
  cases hfile : files historyPath with
  | none =>
    rw [readHistory, hfile] at h
    rw [readText, hfile]
    cases h
    exact ⟨"", rfl, List.not_mem_nil, rfl⟩
  | some data =>
    rw [readHistory, hfile] at h
    rw [readText, hfile]
    obtain ⟨⟨⟩, -, h⟩ := bind_eq_ok.mp h
    obtain ⟨previous, htext, h⟩ := bind_eq_ok.mp h
    have hdecoded : decodeText data = .ok previous := by
      cases hdata : decodeText data with
      | error e =>
        rw [hdata] at htext
        cases htext
      | ok text =>
        rw [hdata] at htext
        exact htext
    refine ⟨previous, hdecoded, ?_, h⟩
    obtain ⟨text, -, rfl⟩ := decodeText_eq_ok.mp hdecoded
    rw [String.toList_ofList]
    exact Newlines.cr_notMem_translate text

/-- A history of a given text. -/
theorem readHistory_text {text : String} (hfile : files historyPath = some (encodeText text))
    (hcr : '\r' ∉ text.toList) : readHistory files = .ok records ↔
      (encodeText text).length ≤ maxHistoryBytes ∧
        (historyLines text.toList).mapM readReceipt = .ok records := by
  have hdecoded : decodeText (encodeText text) = .ok text := by
    refine decodeText_eq_ok.mpr ⟨text.toList, rfl, ?_⟩
    rw [Newlines.translate_of_notMem hcr, String.ofList_toList]
  unfold readHistory
  rw [hfile]
  simp only [hdecoded]
  constructor
  · intro h
    obtain ⟨⟨⟩, hsize, h⟩ := bind_eq_ok.mp h
    exact ⟨Nat.not_lt.mp (raiseIf_eq_ok.mp hsize), h⟩
  · rintro ⟨hsize, h⟩
    exact bind_eq_ok.mpr ⟨⟨⟩, raiseIf_eq_ok.mpr (Nat.not_lt.mpr hsize), h⟩

theorem receiptText_ne_nil (receipt : Dict) : receiptText receipt ≠ [] := by
  unfold receiptText
  rw [List.cons_append]
  exact List.cons_ne_nil _ _

theorem isBoundary_receiptText : ∀ c ∈ receiptText receipt, Splitlines.isBoundary c = false :=
  fun _ hc => isBoundary_of_printable (printable_receiptText hc)

/-- Behind a line boundary the receipt is a line of its own. -/
theorem historyLines_ended {previous : List Char} (h : Splitlines.Ended previous)
    (hcr : '\r' ∉ previous) : historyLines (previous ++ (receiptText receipt ++ ['\n'])) =
      historyLines previous ++ [receiptText receipt] := by
  unfold historyLines
  rw [Splitlines.splitlines_append h fun hlast => absurd (List.mem_of_getLast? hlast) hcr,
    Splitlines.splitlines_line isBoundary_receiptText, List.filter_append]
  simp [receiptText_ne_nil]

/-- Behind an open line the receipt continues it. -/
theorem historyLines_open {previous : List Char} (h : Splitlines.openPart previous ≠ [])
    (hcr : '\r' ∉ previous) :
    historyLines previous = historyLines (Splitlines.endedPart previous) ++
        [Splitlines.openPart previous] ∧
      historyLines (previous ++ (receiptText receipt ++ ['\n'])) =
        historyLines (Splitlines.endedPart previous) ++
          [Splitlines.openPart previous ++ receiptText receipt] := by
  have hsplit := Splitlines.endedPart_append_openPart previous
  have hended := Splitlines.ended_endedPart previous
  have hopen : ∀ c ∈ Splitlines.openPart previous, Splitlines.isBoundary c = false :=
    fun _ => Splitlines.isBoundary_of_mem_openPart
  generalize Splitlines.endedPart previous = ended at hsplit hended ⊢
  generalize Splitlines.openPart previous = opened at h hsplit hopen ⊢
  subst hsplit
  have hlast : ∀ rest : List Char, ended.getLast? = some '\r' → rest.head? ≠ some '\n' :=
    fun _ hlast => absurd (List.mem_append_left _ (List.mem_of_getLast? hlast)) hcr
  have hline : ∀ c ∈ opened ++ receiptText receipt, Splitlines.isBoundary c = false := by
    intro c hc
    rcases List.mem_append.mp hc with hc | hc
    · exact hopen c hc
    · exact isBoundary_receiptText c hc
  unfold historyLines
  constructor
  · rw [Splitlines.splitlines_append hended (hlast _), Splitlines.splitlines_eq_singleton h hopen,
      List.filter_append]
    simp [h]
  · rw [List.append_assoc, Splitlines.splitlines_append hended (hlast _), ← List.append_assoc opened,
      Splitlines.splitlines_line hline, List.filter_append]
    simp [h]

/-- A line that is a receipt is none any more with another one behind it. -/
theorem readReceipt_joined {line : List Char} {record joined : Dict}
    (h : readReceipt line = .ok record) :
    readReceipt (line ++ receiptText receipt) ≠ .ok joined := by
  intro hjoined
  have hsome : (loads line).isSome = true := by
    obtain ⟨⟨⟩, -, h⟩ := bind_eq_ok.mp h
    cases hloads : loads line with
    | none =>
      rw [hloads] at h
      cases h
    | some value => rfl
  have hbreaks : Breaks (receiptText receipt) :=
    ⟨'{', _, rfl, by decide, by decide, by decide, by decide⟩
  obtain ⟨⟨⟩, -, hjoined⟩ := bind_eq_ok.mp hjoined
  rw [loads_append hbreaks hsome] at hjoined
  cases hjoined

theorem length_appended (previous : String) (receipt : Dict) :
    (encodeText (previous ++ receiptLine receipt)).length =
      (encodeText previous).length + (receiptText receipt).length + 1 := by
  unfold encodeText
  rw [String.toList_append, receiptLine_toList, Utf8.encode_append, Utf8.encode_append,
    List.length_append, List.length_append,
    length_encode_printable fun c hc => printable_receiptText hc]
  rfl

/-- The receipt is appended to what is read exactly when it is a line of its own, short enough, in a
file that is short enough. -/
theorem readHistory_append_iff {previous : String} {files' : Files}
    (hread : (historyLines previous.toList).mapM readReceipt = .ok records)
    (hcr : '\r' ∉ previous.toList)
    (hfile : files' historyPath = some (encodeText (previous ++ receiptLine receipt)))
    (htextual : Textual receipt)
    (hkeys : ∀ item ∈ receipt, item.1 ∉ ["content", "body", "exception", "traceback"] ∧
      item.1.toList.length ≤ 128) :
    readHistory files' = .ok (records ++ [receipt]) ↔
      Splitlines.Ended previous.toList ∧ (receiptText receipt).length ≤ maxHistoryLineBytes ∧
        (encodeText previous).length + (receiptText receipt).length + 1 ≤ maxHistoryBytes := by
  have htext : (previous ++ receiptLine receipt).toList =
      previous.toList ++ (receiptText receipt ++ ['\n']) := by
    rw [String.toList_append, receiptLine_toList]
  have hline : '\r' ∉ (previous ++ receiptLine receipt).toList := by
    rw [htext, List.mem_append, List.mem_append, not_or, not_or]
    refine ⟨hcr, fun hmem => ?_, by decide⟩
    exact absurd (printable_receiptText hmem) (by decide)
  rw [readHistory_text hfile hline, length_appended, htext]
  constructor
  · rintro ⟨hbytes, hlines⟩
    by_cases hopen : Splitlines.openPart previous.toList = []
    · have hended : Splitlines.Ended previous.toList := by
        have hsplit := Splitlines.endedPart_append_openPart previous.toList
        rw [hopen, List.append_nil] at hsplit
        rw [← hsplit]
        exact Splitlines.ended_endedPart _
      rw [historyLines_ended hended hcr] at hlines
      obtain ⟨front, last, -, hlast, heq⟩ := mapM_concat_eq_ok.mp hlines
      obtain ⟨-, heq⟩ := List.append_inj' heq rfl
      cases heq
      exact ⟨hended, (readReceipt_receiptText htextual hkeys).mp hlast, hbytes⟩
    · obtain ⟨hold, hnew⟩ := @historyLines_open receipt _ hopen hcr
      rw [hold] at hread
      rw [hnew] at hlines
      obtain ⟨_, record, -, hrecord, -⟩ := mapM_concat_eq_ok.mp hread
      obtain ⟨_, joined, -, hjoined, -⟩ := mapM_concat_eq_ok.mp hlines
      exact absurd hjoined (readReceipt_joined hrecord)
  · rintro ⟨hended, hshort, hbytes⟩
    refine ⟨hbytes, ?_⟩
    rw [historyLines_ended hended hcr]
    exact mapM_concat_eq_ok.mpr ⟨records, receipt, hread,
      (readReceipt_receiptText htextual hkeys).mpr hshort, rfl⟩

end

/-! ## What a commit appends -/

/-- What the index, the linter and the search answer inside the transaction. -/
structure Answers where
  indexSummary : String
  lint : LintResult
  denseChunks : Nat
  report : GenerationReport

/-- The items of the receipt. -/
def receiptItems (env : CommitEnv) (request : CommitRequest) (admission : Admission)
    (answers : Answers) : List (String × String) :=
  openReceipt env request admission ++
    [("index_summary", answers.indexSummary),
      ("search_mode", if decide (0 < answers.denseChunks) then "semantic" else "fts"),
      ("search_generation", answers.report.generationId),
      ("notes_scanned", toString answers.report.totalScanned),
      ("notes_indexed", toString answers.report.actualFiles),
      ("notes_excluded", toString answers.report.invalidSources),
      ("lint_orphans", toString answers.lint.orphans), ("duration_ms", env.durationMs)]

section
variable [Site] {env : CommitEnv} {d d' : Disk} {files : Files} {request : CommitRequest}
  {admission : Admission} {receipt : Dict} {records : List Dict}

/-- The statements of the `with` block up to the search projection. -/
def answers (env : CommitEnv) (request : CommitRequest) (admission : Admission) :
    Block RelPath (Option Bytes) Exn Answers := do
  Block.check env.noteWrite
  Block.write admission.target (some (encodeText request.content))
  appendLog env request
  let indexSummary ← env.generateIndex
  let lint ← Block.read (checkLint env)
  let denseChunks ← Block.read fun _ => env.denseChunks
  let report ← Block.read fun files => env.sync files (decide (0 < denseChunks))
  return ⟨indexSummary, lint, denseChunks, report⟩

/-- The index writes the map page and catalog pages. -/
def WritesPages (env : CommitEnv) : Prop :=
  ∀ files, ∀ write ∈ (env.generateIndex files).1, write.1 = mainIndex ∨ isCatalog write.1 = true

theorem appendLog_writes {writes : List (RelPath × Option Bytes)} {u : Unit}
    (h : appendLog env request files = (writes, .ok u)) : ∀ write ∈ writes, write.1 = logPath := by
  unfold appendLog at h
  obtain ⟨front, log, back, hlog, hentry, rfl⟩ := Block.bind_ok.mp h
  obtain ⟨rfl, -⟩ := Block.read_ok.mp hlog
  cases hopt : request.logEntry with
  | none =>
    rw [hopt] at hentry
    cases hentry
    simp
  | some entry =>
    rw [hopt] at hentry
    cases log with
    | none =>
      cases hentry
      simp
    | some data =>
      obtain ⟨w1, previous, rest1, hread, hchecking, rfl⟩ := Block.bind_ok.mp hentry
      obtain ⟨rfl, -⟩ := Block.read_ok.mp hread
      obtain ⟨w2, u2, rest2, hcheck, hwrite, rfl⟩ := Block.bind_ok.mp hchecking
      obtain ⟨rfl, -⟩ := Block.check_ok.mp hcheck
      obtain rfl := Block.write_ok.mp hwrite
      simp

/-- The transaction up to the search projection makes the receipt and leaves the history. -/
theorem publish_ok (hpages : WritesPages env) (htarget : admission.target ≠ historyPath)
    {writes : List (RelPath × Option Bytes)}
    (h : publish env request admission files = (writes, .ok receipt)) :
    ∃ made, (answers env request admission files).2 = .ok made ∧
      receipt = textDict (receiptItems env request admission made) ∧
      ∀ write ∈ writes, write.1 ≠ historyPath := by
  obtain ⟨w1, u1, rest1, hcheck, hnote, rfl⟩ := Block.bind_ok.mp h
  obtain ⟨rfl, -⟩ := Block.check_ok.mp hcheck
  obtain ⟨w2, u2, rest2, hwrite, hlogged, rfl⟩ := Block.bind_ok.mp hnote
  obtain rfl := Block.write_ok.mp hwrite
  obtain ⟨w3, u3, rest3, hentry, hindexing, rfl⟩ := Block.bind_ok.mp hlogged
  obtain ⟨w4, summary, rest4, hindex, hlinting, rfl⟩ := Block.bind_ok.mp hindexing
  obtain ⟨w5, lint, rest5, hlint, hcounting, rfl⟩ := Block.bind_ok.mp hlinting
  obtain ⟨rfl, -⟩ := Block.read_ok.mp hlint
  obtain ⟨w6, dense, rest6, hdense, hsyncing, rfl⟩ := Block.bind_ok.mp hcounting
  obtain ⟨rfl, -⟩ := Block.read_ok.mp hdense
  obtain ⟨w7, report, rest7, hsync, hmade, rfl⟩ := Block.bind_ok.mp hsyncing
  obtain ⟨rfl, -⟩ := Block.read_ok.mp hsync
  obtain ⟨rfl, hreceipt⟩ := Prod.mk.inj hmade
  refine ⟨⟨summary, lint, dense, report⟩, ?_, (Except.ok.inj hreceipt).symm, ?_⟩
  · have hanswers : answers env request admission files =
        (_, .ok ⟨summary, lint, dense, report⟩) :=
      Block.bind_ok.mpr ⟨_, _, _, hcheck, Block.bind_ok.mpr ⟨_, _, _, hwrite,
        Block.bind_ok.mpr ⟨_, _, _, hentry, Block.bind_ok.mpr ⟨_, _, _, hindex,
          Block.bind_ok.mpr ⟨_, _, _, hlint, Block.bind_ok.mpr ⟨_, _, _, hdense,
            Block.bind_ok.mpr ⟨_, _, _, hsync, rfl, rfl⟩, rfl⟩, rfl⟩, rfl⟩, rfl⟩, rfl⟩, rfl⟩
    rw [hanswers]
  · intro write hwrites
    simp only [List.nil_append, List.append_nil, List.mem_append, List.mem_cons, List.not_mem_nil,
      or_false] at hwrites
    rcases hwrites with rfl | hlog | hpage
    · exact htarget
    · rw [appendLog_writes hentry write hlog]
      decide
    · have hpage : write ∈ (env.generateIndex (perform w3
          (perform [(admission.target, some (encodeText request.content))] files))).1 := by
        have hindex := congrArg Prod.fst hindex
        simp only [perform_nil] at hindex
        rw [hindex]
        exact hpage
      rcases hpages _ write hpage with heq | hcatalog
      · rw [heq]
        decide
      · intro heq
        rw [heq] at hcatalog
        cases hcatalog

/-- The history behind a block that returns. -/
theorem commitBody_history (hpages : WritesPages env) (htarget : admission.target ≠ historyPath)
    {writes : List (RelPath × Option Bytes)}
    (h : commitBody env request admission files = (writes, .ok receipt)) :
    ∃ made previous, (answers env request admission files).2 = .ok made ∧
      receipt = textDict (receiptItems env request admission made) ∧
      readText historyPath files = .ok previous ∧
      perform writes files historyPath = some (encodeText (previous ++ receiptLine receipt)) := by
  obtain ⟨front, made, back, hpublish, happend, rfl⟩ := Block.bind_ok.mp h
  obtain ⟨answer, hanswer, hmade, hleft⟩ := publish_ok hpages htarget hpublish
  obtain ⟨w1, previous, rest1, hread, hchecking, rfl⟩ := Block.bind_ok.mp happend
  obtain ⟨rfl, hprevious⟩ := Block.read_ok.mp hread
  obtain ⟨w2, u2, rest2, hcheck, hwriting, rfl⟩ := Block.bind_ok.mp hchecking
  obtain ⟨rfl, -⟩ := Block.check_ok.mp hcheck
  obtain ⟨w3, u3, rest3, hwrite, hreturned, rfl⟩ := Block.bind_ok.mp hwriting
  obtain rfl := Block.write_ok.mp hwrite
  obtain ⟨rfl, hsame⟩ := Prod.mk.inj hreturned
  obtain rfl := Except.ok.inj hsame
  have hkept : perform front files historyPath = files historyPath :=
    perform_of_forall_ne hleft files
  refine ⟨answer, previous, hanswer, hmade, ?_, ?_⟩
  · unfold readText at hprevious ⊢
    rw [hkept] at hprevious
    exact hprevious
  · rw [perform_append]
    simp only [List.nil_append, List.append_nil, perform_cons, perform_nil, Function.update_self]

/-! ## The receipt of a commit -/

/-- The keys that a receipt may have, in the order in which they are set. -/
def receiptKeys : List String :=
  ["receipt_schema", "operation", "path", "before_sha256", "after_sha256", "at", "trace_id",
    "span_id", "status", "proposal_id", "idempotency_key", "idempotency_fingerprint",
    "index_summary", "search_mode", "search_generation", "notes_scanned", "notes_indexed",
    "notes_excluded", "lint_orphans", "duration_ms"]

theorem receiptItems_keys (env : CommitEnv) (request : CommitRequest) (admission : Admission)
    (made : Answers) :
    ((receiptItems env request admission made).map Prod.fst).Sublist receiptKeys := by
  unfold receiptItems openReceipt
  cases request.proposalId <;> cases request.idempotencyKey <;>
    cases request.idempotencyFingerprint <;>
      simp only [Option.map_none, Option.map_some, Option.toList_none, Option.toList_some,
        List.append_nil, List.cons_append, List.nil_append, List.map_cons, List.map_nil] <;>
        decide

theorem nodup_receiptItems (env : CommitEnv) (request : CommitRequest) (admission : Admission)
    (made : Answers) : ((receiptItems env request admission made).map Prod.fst).Nodup :=
  List.Nodup.sublist (receiptItems_keys env request admission made) (by decide)

theorem key_receiptItems {made : Answers} {item : String × Value}
    (h : item ∈ textDict (receiptItems env request admission made)) : item.1 ∈ receiptKeys := by
  obtain ⟨pair, hpair, rfl⟩ := mem_textDict h
  exact (receiptItems_keys env request admission made).subset (List.mem_map_of_mem hpair)

theorem textual_receiptItems (made : Answers) :
    Textual (textDict (receiptItems env request admission made)) where
  sorted := sortedKeys_textDict _
  items item hitem := by
    obtain ⟨pair, -, heq⟩ := mem_textDict hitem
    have hprintable : ∀ key ∈ receiptKeys, ∀ c ∈ key.toList, printable c = true := by
      decide +kernel
    exact ⟨pair.2, by rw [heq], hprintable item.1 (key_receiptItems hitem)⟩

theorem accepted_receiptItems {made : Answers} {item : String × Value}
    (h : item ∈ textDict (receiptItems env request admission made)) :
    item.1 ∉ ["content", "body", "exception", "traceback"] ∧ item.1.toList.length ≤ 128 := by
  have hkeys : ∀ key ∈ receiptKeys, key ∉ ["content", "body", "exception", "traceback"] ∧
      key.toList.length ≤ 128 := by decide +kernel
  exact hkeys item.1 (key_receiptItems h)

theorem length_receiptItems (made : Answers) :
    (receiptText (textDict (receiptItems env request admission made))).length =
      lineLength (receiptItems env request admission made) :=
  length_textDict (nodup_receiptItems env request admission made) (by simp [receiptItems, openReceipt])

/-! ## Commits -/

/-- There is room for the receipt: the history ends a line, the line of the receipt is within its
bound, and so is the file with it. -/
structure Room (env : CommitEnv) (files : Files) (request : CommitRequest) (admission : Admission) :
    Prop where
  ended : ∀ previous, readText historyPath files = .ok previous →
    Splitlines.Ended previous.toList
  line : ∀ made, (answers env request admission files).2 = .ok made →
    lineLength (receiptItems env request admission made) ≤ maxHistoryLineBytes
  file : ∀ previous made, readText historyPath files = .ok previous →
    (answers env request admission files).2 = .ok made →
      (encodeText previous).length + lineLength (receiptItems env request admission made) + 1 ≤
        maxHistoryBytes

/-- A commit that returns has its receipt at the end of the readable history exactly when there was
room for it. -/
theorem appended_iff (hpages : WritesPages env) (hread : readHistory d.files = .ok records)
    (hentered : enterMutation env d.files request = .ok (.fresh admission))
    (hrun : runCommit env d request admission = (.returned receipt, d')) :
    readHistory d'.files = .ok (records ++ [receipt]) ↔ Room env d.files request admission := by
  obtain ⟨hreceipt, hfiles⟩ := runCommit_returned hrun
  have htarget : admission.target ≠ historyPath :=
    Site.resolve_markdown (enterMutation_fresh hentered).1
  obtain ⟨made, previous, hmade, rfl, hprevious, hhistory⟩ :=
    commitBody_history hpages htarget (Prod.ext rfl hreceipt)
  obtain ⟨previous', hprevious', hcr, hlines⟩ := readHistory_ok hread
  cases hprevious.symm.trans hprevious'
  rw [← hfiles] at hhistory
  rw [readHistory_append_iff hlines hcr hhistory (textual_receiptItems made)
    fun item hitem => accepted_receiptItems hitem, length_receiptItems]
  constructor
  · rintro ⟨hended, hline, hfile⟩
    refine ⟨fun other hother => ?_, fun other hother => ?_, fun other other' hother hother' => ?_⟩
    · cases hprevious.symm.trans hother
      exact hended
    · cases hmade.symm.trans hother
      exact hline
    · cases hprevious.symm.trans hother
      cases hmade.symm.trans hother'
      exact hfile
  · intro hroom
    exact ⟨hroom.ended previous hprevious, hroom.line made hmade,
      hroom.file previous made hprevious hmade⟩

/-- The receipts that a commit adds: none when it is a replay. -/
def newReceipts (env : CommitEnv) (files : Files) (request : CommitRequest) (receipt : Dict) :
    List Dict :=
  match enterMutation env files request with
  | .ok (.fresh _) => [receipt]
  | _ => []

/-- A commit is a replay, or there is room for its receipt. -/
def HasRoom (env : CommitEnv) (files : Files) (request : CommitRequest) : Prop :=
  ∀ admission, enterMutation env files request = .ok (.fresh admission) →
    Room env files request admission

theorem history_iff (hpages : WritesPages env) (hread : readHistory d.files = .ok records)
    (h : commitNoteChange env d request = (.returned receipt, d')) :
    readHistory d'.files = .ok (records ++ newReceipts env d.files request receipt) ↔
      HasRoom env d.files request := by
  unfold newReceipts HasRoom
  rcases commitNoteChange_returned h with ⟨hreplay, rfl⟩ | ⟨admission, hentered, hrun⟩
  · rw [hreplay, hread]
    simp
  · rw [hentered, appended_iff hpages hread hentered hrun]
    constructor
    · intro hroom other hother
      cases hother
      exact hroom
    · intro hall
      exact hall admission rfl

/-- A commit of a run, which ends with the first commit that raises. -/
def commitStep (d : Disk) (call : CommitEnv × CommitRequest) : Except Exn Disk :=
  match commitNoteChange call.1 d call.2 with
  | (.returned _, d') => .ok d'
  | (.raised exn, _) => .error exn
  | (.rollbackFailed message, _) => .error (runtimeError message)

/-- There is room for the receipt of every commit of a run. -/
def Roomy (d : Disk) (call : CommitEnv × CommitRequest) : Prop :=
  WritesPages call.1 ∧ HasRoom call.1 d.files call.2

theorem commitStep_ok {call : CommitEnv × CommitRequest} (h : commitStep d call = .ok d') :
    ∃ receipt, commitNoteChange call.1 d call.2 = (.returned receipt, d') := by
  unfold commitStep at h
  split at h
  · next receipt _ heq =>
    cases h
    exact ⟨receipt, heq⟩
  · cases h
  · cases h

theorem findIdempotentReceipt_of_read (hread : readHistory d.files = .ok records) (key : String) :
    ∃ prior, findIdempotentReceipt d.files key = .ok prior := by
  unfold findIdempotentReceipt
  rw [hread]
  exact ⟨_, rfl⟩

theorem history_of_roomy {calls : List (CommitEnv × CommitRequest)}
    (hread : readHistory d.files = .ok records) (hroomy : Run.Throughout commitStep d Roomy calls)
    (hrun : calls.foldlM commitStep d = .ok d') : ∃ more,
      readHistory d'.files = .ok (records ++ more) := by
  refine Run.foldlM_history
    (P := fun before d' => Run.Throughout commitStep d Roomy before →
      ∃ more, readHistory d'.files = .ok (records ++ more))
    (fun _ => ⟨[], by rw [List.append_nil]; exact hread⟩)
    (fun before mid call next hbefore ih hstep hall => ?_) hrun hroomy
  obtain ⟨hcalls, hpages, hfits⟩ := (Run.throughout_concat hbefore).mp hall
  obtain ⟨more, hmore⟩ := ih hcalls
  obtain ⟨receipt, hcommit⟩ := commitStep_ok hstep
  exact ⟨_, by rw [← List.append_assoc]; exact (history_iff hpages hmore hcommit).mpr hfits⟩

/-- A commit that returns keeps the history readable, with its receipt behind the ones there were,
exactly when it is a replay or there is room for the receipt.  A run of such commits leaves a history
in which every key can be looked up. -/
theorem history_grows_iff :
    (∀ env d d' request receipt records, WritesPages env → readHistory d.files = .ok records →
      commitNoteChange env d request = (.returned receipt, d') →
        (readHistory d'.files = .ok (records ++ newReceipts env d.files request receipt) ↔
          HasRoom env d.files request)) ∧
    ∀ d d' records (calls : List (CommitEnv × CommitRequest)), readHistory d.files = .ok records →
      Run.Throughout commitStep d Roomy calls → calls.foldlM commitStep d = .ok d' →
        ∀ key, ∃ prior, findIdempotentReceipt d'.files key = .ok prior := by
  constructor
  · intro env d d' request receipt records hpages hread h
    exact history_iff hpages hread h
  · intro d d' records calls hread hroomy hrun key
    obtain ⟨more, hmore⟩ := history_of_roomy hread hroomy hrun
    exact findIdempotentReceipt_of_read hmore key

end

/-! ## A history that fills up -/

/-- The history of a number of commits with one receipt. -/
def copies (receipt : Dict) : Nat → List Char
  | 0 => []
  | n + 1 => copies receipt n ++ (receiptText receipt ++ ['\n'])

section
variable {receipt : Dict}

theorem ended_copies (n : Nat) : Splitlines.Ended (copies receipt n) := by
  cases n with
  | zero => exact .inl rfl
  | succ n =>
    refine .inr ⟨copies receipt n ++ receiptText receipt, '\n', ?_, by decide⟩
    rw [copies, List.append_assoc]

theorem cr_notMem_copies (n : Nat) : '\r' ∉ copies receipt n := by
  induction n with
  | zero => exact List.not_mem_nil
  | succ n ih =>
    rw [copies, List.mem_append, List.mem_append, not_or, not_or]
    refine ⟨ih, fun hmem => ?_, by decide⟩
    exact absurd (printable_receiptText hmem) (by decide)

theorem length_copies (n : Nat) :
    (Utf8.encode (copies receipt n)).length = n * ((receiptText receipt).length + 1) := by
  induction n with
  | zero => simp [copies]
  | succ n ih =>
    have hone : (Utf8.encode ['\n']).length = 1 := by decide
    rw [copies, Utf8.encode_append, Utf8.encode_append, List.length_append, List.length_append, ih,
      length_encode_printable fun c hc => printable_receiptText hc, hone, Nat.succ_mul]

theorem read_copies (hread : readReceipt (receiptText receipt) = .ok receipt) (n : Nat) :
    (historyLines (copies receipt n)).mapM readReceipt = .ok (List.replicate n receipt) := by
  induction n with
  | zero => rfl
  | succ n ih =>
    rw [copies, historyLines_ended (ended_copies n) (cr_notMem_copies n)]
    exact mapM_concat_eq_ok.mpr ⟨_, _, ih, hread, List.replicate_succ'⟩

/-- As many lines as a file has room for. -/
theorem exists_full (bound length : Nat) :
    ∃ n, n * (length + 1) ≤ bound ∧ bound < n.succ * (length + 1) :=
  ⟨bound / (length + 1), Nat.div_mul_le_self _ _, Nat.lt_mul_of_div_lt (Nat.lt_succ_self _)
    (Nat.succ_pos _)⟩

end

section
attribute [local instance] Site.plain

/-- A vault with one note and a history. -/
def filledVault (history : String) : Disk :=
  ⟨Function.update (noteVault "Plan\n").files historyPath (some (encodeText history)), ∅, []⟩

/-- What a commit has read in it. -/
def filledAdmission (history : String) : Admission :=
  { planAdmission with historySnapshot := ⟨historyPath, true, history⟩ }

/-- What is answered to a commit. -/
def plainAnswers : Answers := ⟨"", ⟨0, 0, 0, 0, 0⟩, 0, ⟨"g1", 1, 1, 0⟩⟩

/-- The receipt of a commit of the note. -/
def goalReceipt : Dict :=
  textDict (receiptItems openEnv (planRequest "Goal\n") planAdmission plainAnswers)

variable {history : String}

theorem filledVault_ne {path : RelPath} (h : path ≠ historyPath) (h' : path ≠ planNote) :
    (filledVault history).files path = none := by
  show Function.update (noteVault "Plan\n").files historyPath _ path = none
  rw [Function.update_of_ne h, noteVault_ne _ h']

theorem readText_filledVault (hcr : '\r' ∉ history.toList) :
    readText historyPath (filledVault history).files = .ok history := by
  show decodeText (encodeText history) = _
  refine decodeText_eq_ok.mpr ⟨history.toList, rfl, ?_⟩
  rw [Newlines.translate_of_notMem hcr, String.ofList_toList]

theorem enterMutation_filled (hcr : '\r' ∉ history.toList) :
    enterMutation openEnv (filledVault history).files (planRequest "Goal\n") =
      .ok (.fresh (filledAdmission history)) := by
  have hnote : captureFile (filledVault history).files planNote = .ok ⟨planNote, true, "Plan\n"⟩ :=
    captureFile_ok.mpr (.inr ⟨encodeText "Plan\n", _, rfl, by decide, rfl⟩)
  have hother : ∀ path, path ≠ historyPath → path ≠ planNote →
      captureFile (filledVault history).files path = .ok ⟨path, false, ""⟩ :=
    fun path h h' => captureFile_ok.mpr (.inl ⟨filledVault_ne h h', rfl⟩)
  have hhistory : captureFile (filledVault history).files historyPath =
      .ok ⟨historyPath, true, history⟩ :=
    captureFile_ok.mpr (.inr ⟨_, _, rfl, readText_filledVault hcr, rfl⟩)
  have hpages : captureProjectionSnapshot (filledVault history).files [] =
      .ok [⟨mainIndex, false, ""⟩] := by
    show List.mapM (captureFile (filledVault history).files) [mainIndex] = _
    rw [List.mapM_cons, hother mainIndex (by decide) (by decide)]
    rfl
  have hfresh : capture openEnv (filledVault history).files (planRequest "Goal\n") planNote =
      .ok (filledAdmission history) := by
    refine bind_eq_ok.mpr ⟨_, hnote, bind_eq_ok.mpr ⟨⟨⟩, rfl, bind_eq_ok.mpr ⟨⟨⟩, rfl,
      bind_eq_ok.mpr ⟨⟨⟩, rfl, bind_eq_ok.mpr ⟨_, hpages, bind_eq_ok.mpr ⟨_, hhistory,
        bind_eq_ok.mpr ⟨_, hother logPath (by decide) (by decide), rfl⟩⟩⟩⟩⟩⟩⟩
  exact bind_eq_ok.mpr ⟨planNote, rfl, bind_eq_ok.mpr ⟨none, rfl, map_eq_ok.mpr ⟨_, hfresh, rfl⟩⟩⟩

theorem commitBody_filled (hcr : '\r' ∉ history.toList) :
    commitBody openEnv (planRequest "Goal\n") (filledAdmission history)
        (filledVault history).files =
      ([(planNote, some (encodeText "Goal\n")),
        (historyPath, some (encodeText (history ++ receiptLine goalReceipt)))], .ok goalReceipt) := by
  have hread : readText historyPath (Function.update (filledVault history).files planNote
      (some (encodeText "Goal\n"))) = .ok history := by
    unfold readText
    rw [Function.update_of_ne (by decide)]
    exact readText_filledVault hcr
  have hpublish : publish openEnv (planRequest "Goal\n") (filledAdmission history)
      (filledVault history).files = ([(planNote, some (encodeText "Goal\n"))], .ok goalReceipt) := rfl
  have happend : appendReceipt openEnv goalReceipt (perform
      [(planNote, some (encodeText "Goal\n"))] (filledVault history).files) =
      ([(historyPath, some (encodeText (history ++ receiptLine goalReceipt)))], .ok goalReceipt) :=
    Block.bind_ok.mpr ⟨[], history, _, Block.read_ok.mpr ⟨rfl, hread⟩, rfl, rfl⟩
  exact Block.bind_ok.mpr ⟨_, _, _, hpublish, happend, rfl⟩

theorem goalReceipt_short : (receiptText goalReceipt).length ≤ 20000 := by
  have hsize : receiptSize goalReceipt ≤ 1000 := by
    refine le_trans (receiptSize_textDict _) ?_
    show (List.map _ [("receipt_schema", "power.receipt.v1"), ("operation", "memory.apply"),
      ("path", "01_Projects/plan.md"), ("before_sha256", contentDigest "Plan\n"),
      ("after_sha256", contentDigest "Goal\n"), ("at", planTime), ("trace_id", "0f"),
      ("span_id", "0f"), ("status", "ok"), ("index_summary", ""), ("search_mode", "fts"),
      ("search_generation", "g1"), ("notes_scanned", "1"), ("notes_indexed", "1"),
      ("notes_excluded", "0"), ("lint_orphans", "0"), ("duration_ms", "1.000")]).sum ≤ 1000
    simp only [List.map_cons, List.map_nil, List.sum_cons, List.sum_nil, length_contentDigest]
    decide +kernel
  have hline := length_receiptLine_le goalReceipt
  rw [receiptLine_toList, List.length_append] at hline
  omega

/-- The commit returns for every history that may be read. -/
theorem commits_filled (hcr : '\r' ∉ history.toList)
    (hsize : (encodeText history).length ≤ maxHistoryBytes) : ∃ d',
      runCommit openEnv (filledVault history) (planRequest "Goal\n") (filledAdmission history) =
        (.returned goalReceipt, d') := by
  have hshort := goalReceipt_short
  have hlength := length_appended history goalReceipt
  unfold maxHistoryBytes at hsize
  have hcommitted : (runTransaction openEnv.fs openEnv.vault (filledVault history)
      (commitTransaction openEnv (planRequest "Goal\n") (filledAdmission history)
        (filledVault history).files)).outcome = .committed := by
    refine committed_of_bounded ?_ ?_ ?_ ?_
    · show ∀ a ∈ [(planNote, "note"), (historyPath, "history"), (logPath, "log")],
        allowedRecoveryPath a.2 a.1 "memory_apply" = .ok a.1
      decide +kernel
    · simp only [commitTransaction, List.forall_mem_cons]
      refine ⟨?_, ?_, ?_, fun a ha => by cases ha⟩
      · intro data hdata
        cases hdata
        decide
      · intro data hdata
        cases hdata
        unfold maxTaskStateBytes
        omega
      · intro data hdata
        cases hdata
    · unfold commitTransaction
      simp only [List.forall_mem_cons]
      rw [commitBody_filled hcr]
      refine ⟨?_, ?_, ?_, fun a ha => by cases ha⟩
      · intro data hdata
        cases hdata
        decide
      · intro data hdata
        rw [perform_cons, perform_cons, perform_nil, Function.update_self] at hdata
        obtain rfl := Option.some.inj hdata
        unfold maxTaskStateBytes
        omega
      · intro data hdata
        cases hdata
    · unfold commitTransaction
      simp only
      rw [commitBody_filled hcr]
  have hlock : openEnv.lock = none := rfl
  unfold runCommit
  rw [hlock]
  simp only
  rw [hcommitted, commitBody_filled hcr]
  exact ⟨_, rfl⟩

theorem writesPages_open : WritesPages openEnv := by
  intro files write hwrite
  cases hwrite

theorem commitNote_filled (hcr : '\r' ∉ history.toList)
    (hsize : (encodeText history).length ≤ maxHistoryBytes) : ∃ d',
      commitNoteChange openEnv (filledVault history) (planRequest "Goal\n") =
        (.returned goalReceipt, d') := by
  obtain ⟨d', hrun⟩ := commits_filled hcr hsize
  refine ⟨d', ?_⟩
  unfold commitNoteChange
  rw [enterMutation_filled hcr]
  exact hrun

theorem answers_filled : (answers openEnv (planRequest "Goal\n") (filledAdmission history)
    (filledVault history).files).2 = .ok plainAnswers := rfl

theorem length_goalItems : lineLength (receiptItems openEnv (planRequest "Goal\n")
    (filledAdmission history) plainAnswers) = (receiptText goalReceipt).length := by
  rw [← length_receiptItems]
  rfl

/-- The first receipt of a vault is read back. -/
theorem first_receipt : ∃ d', commitNoteChange openEnv (filledVault "") (planRequest "Goal\n") =
    (.returned goalReceipt, d') ∧ readHistory d'.files = .ok [goalReceipt] := by
  have hcr : '\r' ∉ ("" : String).toList := List.not_mem_nil
  obtain ⟨d', hcommit⟩ := commitNote_filled hcr (by decide)
  have hread : readHistory (filledVault "").files = .ok [] :=
    (readHistory_text rfl hcr).mpr ⟨by decide, rfl⟩
  have hshort := goalReceipt_short
  have hroom : HasRoom openEnv (filledVault "").files (planRequest "Goal\n") := by
    intro admission hentered
    cases (enterMutation_filled hcr).symm.trans hentered
    refine ⟨fun previous h => ?_, fun made h => ?_, fun previous made h h' => ?_⟩
    · cases (readText_filledVault hcr).symm.trans h
      exact .inl rfl
    · cases answers_filled.symm.trans h
      rw [length_goalItems]
      unfold maxHistoryLineBytes
      omega
    · cases (readText_filledVault hcr).symm.trans h
      cases answers_filled.symm.trans h'
      have hempty : (encodeText "").length = 0 := by decide
      rw [length_goalItems, hempty]
      unfold maxHistoryBytes
      omega
  refine ⟨d', hcommit, ?_⟩
  have hiff := history_grows_iff.1 openEnv (filledVault "") d' (planRequest "Goal\n") goalReceipt []
    writesPages_open hread hcommit
  have hnew : newReceipts openEnv (filledVault "").files (planRequest "Goal\n") goalReceipt =
      [goalReceipt] := by
    unfold newReceipts
    rw [enterMutation_filled hcr]
  rw [hnew] at hiff
  exact hiff.mpr hroom

/-- The history is full of the receipts of commits that returned, and the next one locks it. -/
theorem history_locks : ¬ ∀ (_ : Site) env d d' request receipt records, WritesPages env →
    readHistory d.files = .ok records → commitNoteChange env d request = (.returned receipt, d') →
      readHistory d'.files = .ok (records ++ newReceipts env d.files request receipt) := by
  intro h
  have hshort := goalReceipt_short
  obtain ⟨n, hfull, hlocked⟩ := exists_full maxHistoryBytes (receiptText goalReceipt).length
  have hcr : '\r' ∉ (String.ofList (copies goalReceipt n)).toList := by
    rw [String.toList_ofList]
    exact cr_notMem_copies n
  have hlength : (encodeText (String.ofList (copies goalReceipt n))).length =
      n * ((receiptText goalReceipt).length + 1) := by
    unfold encodeText
    rw [String.toList_ofList]
    exact length_copies n
  obtain ⟨d', hcommit⟩ := commitNote_filled hcr (by rw [hlength]; exact hfull)
  have hgoal : readReceipt (receiptText goalReceipt) = .ok goalReceipt := by
    refine (readReceipt_receiptText (textual_receiptItems _) fun item hitem =>
      accepted_receiptItems hitem).mpr ?_
    unfold maxHistoryLineBytes
    show (receiptText goalReceipt).length ≤ _
    omega
  have hread : readHistory (filledVault (String.ofList (copies goalReceipt n))).files =
      .ok (List.replicate n goalReceipt) := by
    refine (readHistory_text rfl hcr).mpr ⟨by rw [hlength]; exact hfull, ?_⟩
    rw [String.toList_ofList]
    exact read_copies hgoal n
  have hkept := h _ openEnv _ d' _ goalReceipt _ writesPages_open hread hcommit
  have hroom := (history_iff writesPages_open hread hcommit).mp hkept _ (enterMutation_filled hcr)
  have hfile := hroom.file _ plainAnswers (readText_filledVault hcr) answers_filled
  rw [hlength, length_goalItems] at hfile
  rw [Nat.succ_mul] at hlocked
  omega

end

end PowerFramework.Memory
