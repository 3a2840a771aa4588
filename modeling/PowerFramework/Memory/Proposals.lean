import PowerFramework.Memory.Committed
/-!
# Proposals

`propose_change` stores a proposal under the digest of its payload, and `apply_change` commits a
stored one.  A proposal file is the JSON value it parses to, or nothing when it cannot be read.
-/

namespace PowerFramework.Memory

open Lib Lib.Failure Lib.Json Lib.Text TaskStore

/-- `PARA_FOLDERS` -/
def paraFolders : List String :=
  ["00_Inbox", "01_Projects", "02_Areas", "03_Resources", "04_Archive", "06_Daily_Logs"]

/-! ## Records -/

/-- The part of a proposal that its id is the digest of. -/
structure Payload where
  path : String
  beforeSha256 : String
  afterSha256 : String
  content : String
  deriving DecidableEq, Repr

def Payload.items (self : Payload) : List (String × String) :=
  [("after_sha256", self.afterSha256), ("before_sha256", self.beforeSha256),
    ("content", self.content), ("path", self.path)]

/-- `json.dumps(payload, ensure_ascii=False, sort_keys=True, separators=(",", ":"))` -/
def Payload.canonical (self : Payload) : List Char :=
  '{' :: joinComma (self.items.map fun item => dumpsStr item.1 ++ ':' :: dumpsStr item.2) ++ ['}']

/-- `_proposal_id` -/
def proposalId (payload : Payload) : String := Sha256.hexdigest (Utf8.encode payload.canonical)

/-- One text of a proposal. -/
def payloadText (proposal : Dict) (field : String) : Except Exn String :=
  match getText proposal field with
  | some value => .ok value
  | none => .error (valueError ("durable proposal field '" ++ field ++ "' must be a string"))

/-- `_proposal_payload` -/
def proposalPayload (proposal : Dict) : Except Exn Payload := do
  let path ← payloadText proposal "path"
  let beforeSha256 ← payloadText proposal "before_sha256"
  let afterSha256 ← payloadText proposal "after_sha256"
  let content ← payloadText proposal "content"
  return ⟨path, beforeSha256, afterSha256, content⟩

/-- `_proposal_idempotency_key` -/
def proposalIdempotencyKey (proposal : Dict) : Except Exn String :=
  let value := match proposal.lookup "idempotency_key" with
    | some value => some value
    | none => proposal.lookup "proposal_id"
  match value with
  | some (.str key) => (validateIdempotencyKey key).map fun _ => key
  | _ => .error (valueError "durable proposal has an invalid idempotency_key")

/-- A proposal as clients get it. -/
structure PublicProposal where
  payload : Payload
  proposalId : String
  idempotencyKey : String
  createdAt : String
  deriving DecidableEq, Repr

/-- The dict that clients get. -/
def PublicProposal.dict (self : PublicProposal) : Dict :=
  textDict (self.payload.items ++ [("proposal_id", self.proposalId),
    ("idempotency_key", self.idempotencyKey), ("created_at", self.createdAt)])

/-- The digest that a proposal has as its id. -/
def storedId (proposal : Dict) (message : String) : Except Exn String :=
  match getText proposal "proposal_id" with
  | some id => if isSha256 id then .ok id else .error (valueError message)
  | none => .error (valueError message)

/-- `_public_proposal` -/
def publicProposal (proposal : Dict) : Except Exn PublicProposal := do
  let payload ← proposalPayload proposal
  let id ← storedId proposal "proposal has an invalid proposal_id"
  match getText proposal "created_at" with
  | none => .error (valueError "proposal has an invalid created_at")
  | some createdAt =>
      let key ← proposalIdempotencyKey proposal
      return ⟨payload, id, key, createdAt⟩

/-! ## Files -/

/-- The directory of the proposals in the order of their names, with the value each file parses
to. -/
abbrev Proposals := List (String × Option Value)

/-- The name of `_proposal_path`. -/
def proposalFile (id : String) : String := id ++ ".json"

/-- A dict whose payload has the id that it states. -/
def checkedProposal (proposal : Dict) : Except Exn Dict := do
  let payload ← proposalPayload proposal
  let id ← storedId proposal "durable proposal has an invalid proposal_id"
  raiseIf (proposalId payload ≠ id) (valueError "durable proposal content address does not match")
  let _ ← proposalIdempotencyKey proposal
  return proposal

/-- `_read_proposal_file`, of a file that may be missing. -/
def readProposalFile (file : Option (Option Value)) : Except Exn Dict :=
  match file with
  | none => .error (valueError "proposal is not durable; call propose_memory_change first")
  | some none => .error (valueError "durable proposal is unreadable")
  | some (some (.dict proposal)) => checkedProposal proposal
  | some (some _) => .error (valueError "durable proposal must be an object")

/-- A file that is written, at its place in the directory. -/
def putFile (name : String) (value : Option Value) : Proposals → Proposals
  | [] => [(name, value)]
  | (other, v) :: files =>
      if name.toList < other.toList then (name, value) :: (other, v) :: files
      else if name = other then (name, value) :: files
      else (other, v) :: putFile name value files

/-- The loop over the stored proposals for one of a key. -/
def findKeyed (idempotencyKey : String) (payload : Payload) :
    Proposals → Except Exn (Option PublicProposal)
  | [] => .ok none
  | (_, value) :: files => do
      let existing ← readProposalFile (some value)
      let key ← proposalIdempotencyKey existing
      if key ≠ idempotencyKey then findKeyed idempotencyKey payload files
      else do
        let stored ← proposalPayload existing
        raiseIf (stored ≠ payload)
          (conflictError "idempotency key was already used for a different proposal")
        (publicProposal existing).map some

/-- `record` -/
def proposalRecord (now : String) (payload : Payload) (idempotencyKey : Option String) : Dict :=
  setItem "schema_version" (.int 1) (textDict (payload.items ++
    [("proposal_id", proposalId payload),
      ("idempotency_key", idempotencyKey.getD (proposalId payload)), ("created_at", now)]))

/-- The proposal that a payload has already, or else is given. -/
def storeProposal (now : String) (proposals : Proposals) (payload : Payload)
    (idempotencyKey : Option String) : Except Exn (PublicProposal × Proposals) :=
  let name := proposalFile (proposalId payload)
  match proposals.lookup name with
  | some value => do
      let existing ← readProposalFile (some value)
      let stored ← proposalPayload existing
      raiseIf (stored ≠ payload) (runtimeError "content-addressed proposal collision detected")
      let proposal ← publicProposal existing
      return (proposal, proposals)
  | none => do
      let record := proposalRecord now payload idempotencyKey
      let proposal ← publicProposal record
      return (proposal, putFile name (some (.dict record)) proposals)

/-- The stored proposal of the key of a call, if it has one. -/
def keyedProposal (proposals : Proposals) (payload : Payload) (idempotencyKey : Option String) :
    Except Exn (Option PublicProposal) :=
  match idempotencyKey with
  | none => .ok none
  | some key => findKeyed key payload proposals

/-- `persist` behind the payload. -/
def persist (now : String) (proposals : Proposals) (payload : Payload)
    (idempotencyKey : Option String) : Except Exn (PublicProposal × Proposals) := do
  let keyed ← keyedProposal proposals payload idempotencyKey
  match keyed with
  | some proposal => return (proposal, proposals)
  | none => storeProposal now proposals payload idempotencyKey

/-- The key of a call is a safe token, if it has one. -/
def checkKey (idempotencyKey : Option String) : Except Exn Unit :=
  match idempotencyKey with
  | none => .ok ()
  | some key => validateIdempotencyKey key

section
variable [Site]

/-- The payload of a proposal for the note as it is. -/
def proposedPayload (files : Files) (relPath content : String) (target : RelPath) :
    Except Exn Payload :=
  (readText target files).map fun before =>
    ⟨relPath, contentDigest before, contentDigest content, content⟩

/-- The checks of `propose_change` and the target they find. -/
def proposalTarget (relPath content : String) (idempotencyKey : Option String) :
    Except Exn RelPath := do
  checkKey idempotencyKey
  let target ← Site.resolvePathInVault (some paraFolders) relPath
  raiseIf (Site.validMetadata content = false)
    (valueError "proposal content has invalid or missing OKF metadata")
  return target

/-- `propose_change` -/
def proposeChange (now : String) (files : Files) (proposals : Proposals) (relPath content : String)
    (idempotencyKey : Option String) : Except Exn (PublicProposal × Proposals) := do
  let target ← proposalTarget relPath content idempotencyKey
  let payload ← proposedPayload files relPath content target
  persist now proposals payload idempotencyKey

end

/-! ## Applying -/

/-- One text of a proposal that a client passes. -/
def clientText (proposal : Dict) (field : String) : Except Exn String :=
  match getText proposal field with
  | some value => .ok value
  | none => .error (valueError ("proposal field '" ++ field ++ "' must be a string"))

/-- The proposal that a client passes, with its id and its key. -/
structure ClientProposal where
  payload : Payload
  proposalId : String
  key : Option String

/-- The types of the fields of a client's proposal. -/
def clientProposal (proposal : Dict) : Except Exn ClientProposal := do
  let path ← clientText proposal "path"
  let content ← clientText proposal "content"
  let beforeSha256 ← clientText proposal "before_sha256"
  let afterSha256 ← clientText proposal "after_sha256"
  let id ← clientText proposal "proposal_id"
  match proposal.lookup "idempotency_key" with
  | none => return ⟨⟨path, beforeSha256, afterSha256, content⟩, id, none⟩
  | some .null => return ⟨⟨path, beforeSha256, afterSha256, content⟩, id, none⟩
  | some (.str key) => return ⟨⟨path, beforeSha256, afterSha256, content⟩, id, some key⟩
  | some _ => .error (valueError "proposal field 'idempotency_key' must be a string")

/-- The digests of a client's proposal. -/
def checkClient (client : ClientProposal) : Except Exn Unit := do
  raiseIf (isSha256 client.payload.beforeSha256 = false)
    (valueError "proposal field 'before_sha256' must be a SHA-256 hex digest")
  raiseIf (isSha256 client.payload.afterSha256 = false)
    (valueError "proposal field 'after_sha256' must be a SHA-256 hex digest")
  raiseIf (isSha256 client.proposalId = false)
    (valueError "proposal field 'proposal_id' must be a SHA-256 hex digest")
  raiseIf (contentDigest client.payload.content ≠ client.payload.afterSha256)
    (valueError "proposal content hash does not match")
  raiseIf (proposalId client.payload ≠ client.proposalId)
    (valueError "proposal id does not match its content-addressed payload")

/-- The stored proposal of a client's, with the key it is stored with. -/
def durableKey (proposals : Proposals) (client : ClientProposal) (idempotencyKey : Option String) :
    Except Exn String := do
  let stored ← readProposalFile (proposals.lookup (proposalFile client.proposalId))
  let payload ← proposalPayload stored
  raiseIf (payload ≠ client.payload) (valueError "proposal does not match its durable record")
  let storedKey ← proposalIdempotencyKey stored
  raiseIf (client.key.any fun key => key ≠ storedKey)
    (valueError "proposal idempotency key does not match its durable record")
  match idempotencyKey with
  | none => return storedKey
  | some key => do
      validateIdempotencyKey key
      raiseIf (key ≠ storedKey) (valueError "idempotency key does not match its durable proposal")
      return storedKey

/-- The commit that an approved proposal asks for. -/
def applyRequest (proposals : Proposals) (proposal : Dict) (approved : Bool)
    (idempotencyKey : Option String) : Except Exn CommitRequest := do
  raiseIf (approved = false) ⟨"PermissionError", "proposal requires explicit approved=True"⟩
  let client ← clientProposal proposal
  checkClient client
  let storedKey ← durableKey proposals client idempotencyKey
  return {
    relPath := client.payload.path
    content := client.payload.content
    expectedBeforeSha256 := some client.payload.beforeSha256
    requireAbsent := false
    allowedDirectories := some paraFolders
    operation := "memory.apply"
    logEntry := none
    proposalId := some client.proposalId
    idempotencyKey := some storedKey
    idempotencyFingerprint := none }

section
variable [Site]

/-- `apply_change` -/
def applyChange (env : CommitEnv) (d : Disk) (proposals : Proposals) (proposal : Dict)
    (approved : Bool) (idempotencyKey : Option String) : Ending × Disk :=
  match applyRequest proposals proposal approved idempotencyKey with
  | .error exn => (.raised exn, d)
  | .ok request => commitNoteChange env d request

/-- `apply_change_by_id` -/
def applyChangeById (env : CommitEnv) (d : Disk) (proposals : Proposals) (id : String)
    (approved : Bool) (idempotencyKey : Option String) : Ending × Disk :=
  let stored := do
    raiseIf (isSha256 id = false) (valueError "proposal_id must be a SHA-256 hex digest")
    let stored ← readProposalFile (proposals.lookup (proposalFile id))
    publicProposal stored
  match stored with
  | .error exn => (.raised exn, d)
  | .ok proposal => applyChange env d proposals proposal.dict approved idempotencyKey

end

end PowerFramework.Memory
