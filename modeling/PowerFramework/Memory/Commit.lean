import PowerFramework.Lib.Json
import PowerFramework.Lib.Sha256
import PowerFramework.Lib.Splitlines
import PowerFramework.Memory.Files
import PowerFramework.TaskStore.Transaction
/-!
# Note commits

`commit_note_change`: the replay of a receipt, the checks and captures, the transaction over the
note, the index, the search projection and the history, and the restorations when it raises.  What
the index, the linter and the search do is answered by the environment of the call.
-/

namespace PowerFramework.Memory

open Lib Lib.Crash Lib.Failure Lib.Json Lib.Text Lib.Writes TaskStore
open Lib.JsonText (asciiText)

/-! ## Receipts -/

def maxHistoryBytes : Nat := 2000000
def maxHistoryLineBytes : Nat := 64000

def conflictError (message : String) : Exn := ⟨"ConflictError", message⟩

/-- `hashlib.sha256(content.encode()).hexdigest()` -/
def contentDigest (content : String) : String := Sha256.hexdigest (encodeText content)

/-- `_is_sha256` -/
def isSha256 (value : String) : Bool :=
  value.toList.length = 64 && value.toList.all Sha256.isHexDigit

/-- `[A-Za-z0-9][A-Za-z0-9._:-]{0,127}` -/
def isSafeToken (value : String) : Bool :=
  match value.toList with
  | [] => false
  | c :: cs => isAlnum c && cs.length ≤ 127 && cs.all fun d => isTokenChar d || d = ':'

/-- `_validate_idempotency_key` -/
def validateIdempotencyKey (value : String) : Except Exn Unit :=
  raiseIf (isSafeToken value = false) (valueError "idempotency_key must be a safe token")

/-- A dict of texts, in the order of its keys. -/
def textDict (items : List (String × String)) : Dict :=
  items.foldl (fun d item => setItem item.1 (.str item.2) d) []

/-- `record.get(field)` -/
def getText (record : Dict) (field : String) : Option String :=
  match record.lookup field with
  | some (.str value) => some value
  | _ => none

/-- `json.dumps(receipt, sort_keys=True) + "\n"` -/
def receiptLine (receipt : Dict) : String :=
  let members := receipt.map fun item =>
    asciiText item.1 ++ ':' :: ' ' :: asciiText ((getText [item] item.1).getD "")
  String.ofList ('{' :: (List.intercalate [',', ' '] members) ++ ['}', '\n'])

/-- The item is not a text, or holds content. -/
def refusedItem (item : String × Value) : Bool :=
  match item.2 with
  | .str value => item.1 ∈ ["content", "body", "exception", "traceback"] ||
      128 < item.1.toList.length || maxHistoryLineBytes < value.toList.length
  | _ => true

/-- One line of the history. -/
def readReceipt (line : List Char) : Except Exn Dict := do
  raiseIf (maxHistoryLineBytes < (Utf8.encode line).length)
    (runtimeError "memory history contains an oversized receipt")
  match loads line with
  | none => .error (runtimeError "memory history contains invalid JSON")
  | some (.dict record) =>
      raiseIf (record.any refusedItem = true)
        (runtimeError "memory history contains non-content-free receipt data")
      return record
  | some _ => .error (runtimeError "memory history contains non-content-free receipt data")

/-- `read_history` -/
def readHistory (files : Files) : Except Exn (List Dict) :=
  match files historyPath with
  | none => .ok []
  | some data => do
      raiseIf (maxHistoryBytes < data.length)
        (runtimeError "memory history exceeds its bounded receipt size")
      let text ← (decodeText data).mapError fun _ => runtimeError "memory history is unreadable"
      ((Splitlines.splitlines text.toList).filter fun line => !line.isEmpty).mapM readReceipt

/-- `_find_idempotent_receipt` -/
def findIdempotentReceipt (files : Files) (idempotencyKey : String) : Except Exn (Option Dict) := do
  let records ← (readHistory files).mapError fun _ =>
    runtimeError "memory history is unreadable; refusing idempotent replay"
  return records.find? fun record => getText record "idempotency_key" = some idempotencyKey

/-! ## Requests -/

/-- The arguments of `commit_note_change`. -/
structure CommitRequest where
  relPath : String
  content : String
  expectedBeforeSha256 : Option String
  requireAbsent : Bool
  allowedDirectories : Option (List String)
  operation : String
  logEntry : Option String
  proposalId : Option String
  idempotencyKey : Option String
  idempotencyFingerprint : Option String

/-- What the vault answers apart from the contents of its files. -/
class Site extends PythonDigits where
  /-- `resolve_path_in_vault` -/
  resolvePathInVault : Option (List String) → String → Except Exn RelPath
  resolve_markdown : ∀ {allowed relPath path}, resolvePathInVault allowed relPath = .ok path →
    path ≠ historyPath
  /-- `validate_metadata(content) is not None` -/
  validMetadata : String → Bool

/-- What `run_lint_vault` finds. -/
structure LintResult where
  untypedFiles : Nat
  brokenLinks : Nat
  ambiguousLinks : Nat
  staleNotes : Nat
  orphans : Nat

/-- `has_blocking_issues` -/
def LintResult.hasBlockingIssues (self : LintResult) : Bool :=
  0 < self.untypedFiles || 0 < self.brokenLinks || 0 < self.ambiguousLinks || 0 < self.staleNotes

/-- The fields of a `GenerationReport` that a receipt has. -/
structure GenerationReport where
  generationId : String
  totalScanned : Nat
  actualFiles : Nat
  invalidSources : Nat

/-- What the surroundings of one call of `commit_note_change` do: the exceptions of the file
operations, and the index, lint and search runs. -/
structure CommitEnv where
  now : String
  traceId : String
  spanId : String
  durationMs : String
  txId : String
  vault : String
  fs : FsEnv
  /-- The catalog pages that `iter_vault_markdown_files` lists. -/
  catalogs : Files → List RelPath
  /-- `TaskStore(vault_dir)` -/
  openStore : Option Exn
  /-- `TaskStore.lock` -/
  lock : Option Exn
  noteWrite : Option Exn
  logWrite : Option Exn
  /-- `run_generate_hierarchical_index` -/
  generateIndex : Block RelPath (Option Bytes) Exn String
  /-- `run_lint_vault` -/
  lint : Files → Except Exn LintResult
  /-- `active_dense_chunk_count` -/
  denseChunks : Except Exn Nat
  /-- `sync_vault_atomically` -/
  sync : Files → Bool → Except Exn GenerationReport
  historyWrite : Option Exn
  /-- The exceptions of the restorations, the second with the number of files restored before. -/
  sourceRestore : Option Exn
  projectionRestore : Option (Nat × Exn)
  resync : Option Exn

/-! ## Admission -/

/-- What `mutate` has read when it starts its transaction. -/
structure Admission where
  target : RelPath
  targetSnapshot : FileSnapshot
  beforeSha256 : String
  snapshots : List FileSnapshot
  historySnapshot : FileSnapshot
  logSnapshot : FileSnapshot

inductive Admitted where
  | replay (receipt : Dict)
  | fresh (admission : Admission)

/-- The prior receipt is one of the same mutation. -/
def sameMutation (request : CommitRequest) (prior : Dict) : Bool :=
  getText prior "operation" = some request.operation &&
    getText prior "path" = some request.relPath &&
    ((request.idempotencyFingerprint.isSome &&
        getText prior "idempotency_fingerprint" = request.idempotencyFingerprint) ||
      getText prior "after_sha256" = some (contentDigest request.content))

/-- The receipt that a keyed request is answered with. -/
def idempotentReplay (files : Files) (request : CommitRequest) : Except Exn (Option Dict) :=
  match request.idempotencyKey with
  | none => .ok none
  | some key => do
      validateIdempotencyKey key
      raiseIf (request.idempotencyFingerprint.any fun fingerprint => !isSha256 fingerprint)
        (valueError "idempotency_fingerprint must be a SHA-256 hex digest")
      match ← findIdempotentReceipt files key with
      | none => return none
      | some prior =>
          raiseIf (sameMutation request prior = false)
            (conflictError "idempotency key was already used for a different mutation")
          return some prior

section
variable [Site]

/-- The checks and captures before the first write. -/
def capture (env : CommitEnv) (files : Files) (request : CommitRequest) (target : RelPath) :
    Except Exn Admission := do
  let targetSnapshot ← captureFile files target
  raiseIf (request.requireAbsent = true ∧ targetSnapshot.existed = true)
    ⟨"FileExistsError", "Note already exists at " ++ request.relPath⟩
  let beforeSha256 := contentDigest targetSnapshot.content
  raiseIf (request.expectedBeforeSha256.any fun expected => expected ≠ beforeSha256)
    (conflictError "proposal is stale; note changed after proposal")
  raiseIf (Site.validMetadata request.content = false)
    (valueError "proposal content has invalid or missing OKF metadata")
  let snapshots ← captureProjectionSnapshot files (env.catalogs files)
  let historySnapshot ← captureFile files historyPath
  let logSnapshot ← captureFile files logPath
  return ⟨target, targetSnapshot, beforeSha256, snapshots, historySnapshot, logSnapshot⟩

/-- `mutate` up to its transaction. -/
def enterMutation (env : CommitEnv) (files : Files) (request : CommitRequest) : Except Exn Admitted := do
  let target ← Site.resolvePathInVault request.allowedDirectories request.relPath
  match ← idempotentReplay files request with
  | some receipt => return .replay receipt
  | none => (capture env files request target).map .fresh

/-! ## The transaction -/

/-- The receipt as the transaction starts with it. -/
def openReceipt (env : CommitEnv) (request : CommitRequest) (admission : Admission) :
    List (String × String) :=
  [("receipt_schema", "power.receipt.v1"), ("operation", request.operation),
    ("path", request.relPath), ("before_sha256", admission.beforeSha256),
    ("after_sha256", contentDigest request.content), ("at", env.now), ("trace_id", env.traceId),
    ("span_id", env.spanId), ("status", "ok")] ++
  (request.proposalId.map fun id => ("proposal_id", id)).toList ++
  (request.idempotencyKey.map fun key => ("idempotency_key", key)).toList ++
  (request.idempotencyFingerprint.map fun value => ("idempotency_fingerprint", value)).toList

/-- `_append_text`, when there is an entry and a log. -/
def appendLog (env : CommitEnv) (request : CommitRequest) : Block RelPath (Option Bytes) Exn Unit := do
  match request.logEntry, ← Block.read fun files => .ok (files logPath) with
  | some entry, some _ =>
      let previous ← Block.read (readText logPath)
      Block.check env.logWrite
      Block.write logPath (some (encodeText (previous ++ entry)))
  | _, _ => return ()

/-- The lint result, which must not block. -/
def checkLint (env : CommitEnv) (files : Files) : Except Exn LintResult := do
  let result ← env.lint files
  raiseIf (result.hasBlockingIssues = true) (runtimeError ("post-mutation lint failed: " ++
    "metadata=" ++ toString result.untypedFiles ++ ", broken_links=" ++
    toString result.brokenLinks ++ ", ambiguous_links=" ++ toString result.ambiguousLinks ++
    ", stale=" ++ toString result.staleNotes))
  return result

/-- The `with` block up to the publication of the search projection, which makes the receipt. -/
def publish (env : CommitEnv) (request : CommitRequest) (admission : Admission) :
    Block RelPath (Option Bytes) Exn Dict := do
  Block.check env.noteWrite
  Block.write admission.target (some (encodeText request.content))
  appendLog env request
  let indexSummary ← env.generateIndex
  let lint ← Block.read (checkLint env)
  let denseChunks ← Block.read fun _ => env.denseChunks
  let hasDense := decide (0 < denseChunks)
  let report ← Block.read fun files => env.sync files hasDense
  return textDict (openReceipt env request admission ++
    [("index_summary", indexSummary), ("search_mode", if hasDense then "semantic" else "fts"),
      ("search_generation", report.generationId),
      ("notes_scanned", toString report.totalScanned),
      ("notes_indexed", toString report.actualFiles),
      ("notes_excluded", toString report.invalidSources),
      ("lint_orphans", toString lint.orphans), ("duration_ms", env.durationMs)])

/-- `_append_receipt` -/
def appendReceipt (env : CommitEnv) (receipt : Dict) : Block RelPath (Option Bytes) Exn Dict := do
  let previous ← Block.read (readText historyPath)
  Block.check env.historyWrite
  Block.write historyPath (some (encodeText (previous ++ receiptLine receipt)))
  return receipt

/-- The `with` block. -/
def commitBody (env : CommitEnv) (request : CommitRequest) (admission : Admission) :
    Block RelPath (Option Bytes) Exn Dict := do
  let receipt ← publish env request admission
  appendReceipt env receipt

/-- `store._transaction("memory_apply", …)` around the block. -/
def commitTransaction (env : CommitEnv) (request : CommitRequest) (admission : Admission)
    (files : Files) : Transaction where
  txId := env.txId
  op := "memory_apply"
  idempotencyKey := request.idempotencyKey
  commandSha256 := none
  createdAt := env.now
  touched := [(admission.target, "note"), (historyPath, "history"), (logPath, "log")]
  body := (commitBody env request admission files).1
  failure := match (commitBody env request admission files).2 with
    | .error e => some e
    | .ok _ => none

/-- How a call ends. -/
inductive Ending where
  | returned (receipt : Dict)
  | raised (exn : Exn)
  /-- It raises that the rollback itself failed. -/
  | rollbackFailed (message : String)

/-- What a transaction raises. -/
def raisedBy : Outcome → Option Exn
  | .refused e => some e
  | .committed => none
  | .rolledBack e => some e
  | .rollbackFailed _ => some (runtimeError
      "task transaction rollback failed; recovery evidence preserved")

/-! ## Rollback -/

/-- The restoration of the note. -/
def restoreSource (env : CommitEnv) (admission : Admission) : List (RelPath × Option Bytes) :=
  match env.sourceRestore with
  | none => [admission.targetSnapshot.restoration]
  | some _ => []

/-- The restorations of the catalog pages, the history and the log. -/
def restoreRest (env : CommitEnv) (admission : Admission) (files : Files) :
    List (RelPath × Option Bytes) :=
  let writes := restoreProjection (env.catalogs files) admission.snapshots ++
    [admission.historySnapshot.restoration, admission.logSnapshot.restoration]
  match env.projectionRestore with
  | none => writes
  | some (count, _) => writes.take count

/-- The files when the catalog pages are restored. -/
def sourceRestored (env : CommitEnv) (admission : Admission) (files : Files) : Files :=
  perform (restoreSource env admission) files

/-- The files after the restorations. -/
def rolledBack (env : CommitEnv) (admission : Admission) (files : Files) : Files :=
  perform (restoreRest env admission (sourceRestored env admission files))
    (sourceRestored env admission files)

/-- What is raised after the restorations. -/
def rollbackEnding (env : CommitEnv) (published : Bool) (exn : Exn) : Ending :=
  if env.sourceRestore.isSome then
    .rollbackFailed "memory mutation rollback failed for the note"
  else if env.projectionRestore.isSome then
    .rollbackFailed "memory mutation rollback failed for projections"
  else if published ∧ env.resync.isSome then
    .rollbackFailed "memory mutation rollback failed to restore search projection"
  else .raised exn

/-- The handler of the exceptions. -/
def handle (env : CommitEnv) (admission : Admission) (published : Bool) (exn : Exn) (d : Disk) :
    Ending × Disk :=
  (rollbackEnding env published exn, { d with files := rolledBack env admission d.files })

/-- The search projection was published when the transaction ended. -/
def published (env : CommitEnv) (request : CommitRequest) (admission : Admission) (files : Files) :
    Bool :=
  (publish env request admission files).2.isOk

/-- `commit_note_change` behind its checks. -/
def runCommit (env : CommitEnv) (d : Disk) (request : CommitRequest) (admission : Admission) :
    Ending × Disk :=
  match env.lock with
  | some exn => handle env admission false exn d
  | none =>
      let t := commitTransaction env request admission d.files
      let run := runTransaction env.fs env.vault d t
      let after := runOps FsOp.apply run.ops d
      match raisedBy run.outcome, (commitBody env request admission d.files).2 with
      | none, .ok receipt => (.returned receipt, after)
      | some exn, _ => handle env admission
          (published env request admission d.files && !(run.outcome matches .refused _)) exn after
      | none, .error exn => handle env admission false exn after

/-- `commit_note_change` -/
def commitNoteChange (env : CommitEnv) (d : Disk) (request : CommitRequest) : Ending × Disk :=
  match enterMutation env d.files request with
  | .error exn => (.raised exn, d)
  | .ok (.replay receipt) => (.returned receipt, d)
  | .ok (.fresh admission) =>
      match env.openStore with
      | some exn => (.raised exn, d)
      | none => runCommit env d request admission

end

end PowerFramework.Memory
