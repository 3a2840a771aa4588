import PowerFramework.Lib.JsonText
import PowerFramework.Lib.Sha256
import PowerFramework.TaskStore.Artifacts
/-!
# The transaction manifest

The record a transaction keeps in its directory, and the checks recovery makes before it
trusts one.  The record is typed, so the checks on the JSON shape (that it is an object with
exactly these keys, holding strings) have nothing left to reject.
-/

namespace PowerFramework.TaskStore

open Lib.Text Lib.JsonText Lib.Failure

/-- `datetime.isoformat()` text, with its offset from UTC when the value is aware. -/
structure Timestamp where
  text : String
  utcOffset : Option Int
  deriving DecidableEq, Repr

/-- `datetime.now(UTC).isoformat()` -/
def Timestamp.utc (text : String) : Timestamp := ⟨text, some 0⟩

inductive Stage where
  | prepared
  | committed
  deriving DecidableEq, Repr

def Stage.text : Stage → String
  | .prepared => "prepared"
  | .committed => "committed"

/-- One entry of `manifest["touched"]`; `postimageDigest` is `none` while the key is absent. -/
structure Touched where
  label : String
  rel : RelPath
  preimageDigest : Option String
  postimageDigest : Option (Option String)
  deriving DecidableEq, Repr

structure Manifest where
  txId : String
  op : String
  idempotencyKey : Option String
  commandSha256 : Option String
  stage : Stage
  createdAt : Timestamp
  vault : String
  touched : List Touched
  deriving DecidableEq, Repr

/-- `path.as_posix()` -/
def asPosix (path : RelPath) : String := "/".intercalate path

def Touched.text (t : Touched) : String :=
  let post := match t.postimageDigest with
    | none => ""
    | some digest => "      \"postimage_digest\": " ++ quoteOption digest ++ ",\n"
  "    \x7b\n      \"label\": " ++ quote t.label ++ ",\n" ++ post ++
    "      \"preimage_digest\": " ++ quoteOption t.preimageDigest ++
    ",\n      \"rel\": " ++ quote (asPosix t.rel) ++ "\n    \x7d"

/-- `json.dumps(manifest, ensure_ascii=False, indent=2, sort_keys=True)` -/
def Manifest.text (m : Manifest) : String :=
  let touched := match m.touched with
    | [] => "[]"
    | ts => "[\n" ++ ",\n".intercalate (ts.map Touched.text) ++ "\n  ]"
  "\x7b\n  \"command_sha256\": " ++ quoteOption m.commandSha256 ++
    ",\n  \"created_at\": " ++ quote m.createdAt.text ++
    ",\n  \"idempotency_key\": " ++ quoteOption m.idempotencyKey ++
    ",\n  \"op\": " ++ quote m.op ++
    ",\n  \"stage\": " ++ quote m.stage.text ++
    ",\n  \"touched\": " ++ touched ++
    ",\n  \"tx_id\": " ++ quote m.txId ++
    ",\n  \"vault\": " ++ quote m.vault ++ "\n\x7d"

/-- `_read_secure_text(manifest_path)` accepts the file: it is within the size bound. -/
def Manifest.readable (m : Manifest) : Bool := m.text.utf8ByteSize ≤ maxTaskStateBytes

/-- `re.fullmatch(r"[0-9a-f]{64}", digest)` where a digest is present. -/
def imageDigestOk : Option String → Bool
  | none => true
  | some digest => isDigestToken "" digest

def commandDigestOk : Option String → Bool
  | none => true
  | some digest =>
      !digest.toList.isEmpty && digest.toList.length ≤ 128 && !digest.toList.any isControl

/-- The checks on one entry of `touched`. -/
def validateEntry (m : Manifest) (t : Touched) : Except Exn Unit := do
  raiseIf (m.stage = .committed ∧ t.postimageDigest = none)
    (valueError "committed recovery entry requires a postimage digest")
  let _ ← recoveryLabel t.label
  let _ ← allowedRecoveryPath t.label t.rel m.op
  raiseIf (!(imageDigestOk t.preimageDigest && imageDigestOk (t.postimageDigest.getD none)))
    (valueError "recovery manifest image digest is invalid")

/-- `_validate_recovery_manifest` -/
def validateRecoveryManifest (vault : String) (m : Manifest) (txId : String) :
    Except Exn Manifest := do
  raiseIf (m.txId ≠ txId ∨ m.vault ≠ vault)
    (valueError "recovery manifest binding is invalid")
  raiseIf (recoveryOperationLabels m.op = none)
    (valueError "recovery manifest operation is invalid")
  raiseIf (!commandDigestOk m.commandSha256)
    (valueError "recovery manifest command digest is invalid")
  raiseIf (m.createdAt.utcOffset = none)
    (valueError "recovery manifest timestamp must include timezone")
  raiseIf (256 < m.touched.length)
    (valueError "recovery manifest touched list is invalid")
  m.touched.forM (validateEntry m)
  return m

/-- What validation demands of a manifest found in the directory `txId`. -/
structure Manifest.Valid (vault : String) (m : Manifest) (txId : String) : Prop where
  bound : m.txId = txId
  vaultBound : m.vault = vault
  operation : recoveryOperationLabels m.op ≠ none
  command : commandDigestOk m.commandSha256 = true
  aware : m.createdAt.utcOffset ≠ none
  short : m.touched.length ≤ 256
  entries : ∀ t ∈ m.touched, validateEntry m t = .ok ⟨⟩

theorem validateRecoveryManifest_ok {vault txId : String} {m m' : Manifest} :
    validateRecoveryManifest vault m txId = .ok m' ↔ m' = m ∧ m.Valid vault txId := by
  simp only [validateRecoveryManifest, bind_eq_ok, raiseIf_eq_ok, forM_eq_ok, pure, Except.pure,
    Except.ok.injEq]
  constructor
  · rintro ⟨-, hbind, -, hop, -, hcommand, -, haware, -, hshort, -, hentries, rfl⟩
    rw [not_or, not_not, not_not] at hbind
    exact ⟨rfl, hbind.1, hbind.2, hop, by simpa using hcommand, haware, by omega, hentries⟩
  · rintro ⟨rfl, h⟩
    refine ⟨⟨⟩, ?_, ⟨⟩, h.operation, ⟨⟩, by simp [h.command], ⟨⟩, h.aware, ⟨⟩,
      Nat.not_lt.mpr h.short, ⟨⟩, h.entries, rfl⟩
    rw [not_or, not_not, not_not]
    exact ⟨h.bound, h.vaultBound⟩

theorem validateEntry_ok {m : Manifest} {t : Touched} :
    validateEntry m t = .ok ⟨⟩ ↔
      ¬ (m.stage = .committed ∧ t.postimageDigest = none) ∧
        allowedRecoveryPath t.label t.rel m.op = .ok t.rel ∧
        imageDigestOk t.preimageDigest = true ∧
        imageDigestOk (t.postimageDigest.getD none) = true := by
  simp only [validateEntry, bind_eq_ok, raiseIf_eq_ok]
  constructor
  · rintro ⟨-, hpost, label, hlabel, path, hpath, hdigests⟩
    obtain ⟨rfl, -, -⟩ := allowedRecoveryPath_ok hpath
    simp only [Bool.not_eq_true, Bool.not_eq_false', Bool.and_eq_true] at hdigests
    exact ⟨hpost, hpath, hdigests⟩
  · rintro ⟨hpost, hpath, hpre, hpostOk⟩
    obtain ⟨-, hlabel, -⟩ := allowedRecoveryPath_ok hpath
    exact ⟨⟨⟩, hpost, t.label, hlabel, t.rel, hpath, by simp [hpre, hpostOk]⟩

end PowerFramework.TaskStore
