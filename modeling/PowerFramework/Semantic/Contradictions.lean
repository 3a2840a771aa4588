import PowerFramework.Semantic.Merge
/-!
# Contradiction proposals

The new candidates are compared with all others.  A proposal links two of them and deletes neither;
a target that is no text fails the whole detection.
-/

namespace PowerFramework.Semantic

open Lib Lib.Failure Lib.Json Lib.Grouping Ledger PowerFramework.Task

inductive ContradictionKind where
  | conflictingObservation | explicitCorrection | supersedingDecision | staleFact
  | unresolvedContradiction
  deriving DecidableEq, Repr

structure ContradictionProposal where
  proposalId : String
  kind : ContradictionKind
  subjectEntityId : String
  conflictingEntityId : String
  proposedAction : String
  rationale : String
  confidence : Double
  createdAt : String

variable [PythonText]

/-- `ContradictionProposal(...)` about a target and a time that need not be texts. -/
def ContradictionProposal.make (kind : ContradictionKind) (label action : String)
    (subject : String) (target : Value) (rationale : String) (confidence : Double)
    (createdAt : Value) : Except Exn ContradictionProposal := do
  let digest := Sha256.hexdigest (Utf8.encode (subject ++ ":" ++ State.pyStr target).toList)
  raiseIf (lengthBetween 4096 rationale = false) (invalidField "rationale")
  match target, createdAt with
  | .str conflicting, .str now => return {
      proposalId := label ++ String.ofList (digest.toList.take 12)
      kind, rationale, confidence
      subjectEntityId := subject
      conflictingEntityId := conflicting
      proposedAction := action
      createdAt := now }
  | _, _ => .error (invalidField "conflicting_entity_id")

/-- `part in text` -/
def occursIn (part text : String) : Bool :=
  text.toList.tails.any (part.toList.isPrefixOf ·)

def negationPairs : List (String × String) := [
  ("is required", "is not required"),
  ("enabled", "disabled"),
  ("passed", "failed"),
  ("supported", "unsupported"),
  ("true", "false"),
  ("valid", "invalid"),
  ("must be used", "must not be used"),
  ("operational", "down"),
  ("offline", "online")]

/-- `text.strip().lower()` -/
def loweredText : Value → Except Exn String
  | .str s => .ok (PythonText.lower (State.stripText s))
  | _ => .error ⟨"AttributeError", "object has no attribute 'strip'"⟩

/-- The words of a text that tell its topic. -/
def topicWords [PythonRe] (text : String) : List String :=
  (PythonRe.findall "\\w+" text).filter
    (· ∉ ["is", "not", "the", "a", "an", "be", "to"])

/-- `_check_text_contradiction` -/
def checkTextContradiction [PythonRe] (text1 text2 : Value) : Except Exn Bool := do
  let t1 ← loweredText text1
  let t2 ← loweredText text2
  if t1 = "" ∨ t2 = "" then return false
  else
    let shared := ((topicWords t1).eraseDups.filter (· ∈ topicWords t2)).length
    return negationPairs.any fun (pos, neg) =>
      ((occursIn pos t1 && occursIn neg t2) || (occursIn neg t1 && occursIn pos t2)) &&
        2 ≤ shared

/-- `p and check` -/
def andThen (p : Bool) (check : Except Exn Bool) : Except Exn Bool :=
  if p then check else .ok false

/-- `valid_to and valid_to < now` -/
def expiredAt (now validTo : Value) : Except Exn Bool :=
  match validTo, now with
  | .str validTo, .str now => .ok (validTo ≠ "" && decide (validTo.toList < now.toList))
  | validTo, _ =>
      if validTo.truthy then .error (typeError "'<' not supported between instances") else .ok false

/-- `[proposal]`, when the condition holds. -/
def proposedIf (p : Bool) (proposal : Except Exn ContradictionProposal) :
    Except Exn (List ContradictionProposal) :=
  if p then proposal.map ([·]) else .ok []

/-- The proposals a new candidate makes by itself. -/
def ownProposals (new : SemanticEntityCandidate) (now : Value) :
    Except Exn (List ContradictionProposal) := do
  let prov ← new.provenance
  let corrected := (getItem prov "invalidates").or (getItem new.entity "invalidated_by")
  let correction ← proposedIf corrected.truthy
    (ContradictionProposal.make .explicitCorrection "prop_corr_" "invalidate" new.entityId corrected
      ("Entity " ++ new.entityId ++ " explicitly invalidates or corrects " ++
        State.pyStr corrected) one now)
  let supersedes := getItem prov "supersedes"
  let target := if supersedes.truthy then supersedes
    else getItemD new.entity "decision_id" (.str "")
  let supersession ← proposedIf
    (new.entityType = .decision &&
      (supersedes.truthy || (getItem new.entity "status").isText "superseded"))
    (ContradictionProposal.make .supersedingDecision "prop_sup_" "supersede" new.entityId target
      ("Decision " ++ new.entityId ++ " supersedes prior decision " ++ State.pyStr target) one now)
  return correction ++ supersession

/-- The proposals a new candidate makes about another one. -/
def pairProposals [PythonRe] (new other : SemanticEntityCandidate) (now : Value) :
    Except Exn (List ContradictionProposal) := do
  let bothOf (entityType : SemanticEntityType) : Bool :=
    new.entityType = entityType && other.entityType = entityType
  let propose (kind : ContradictionKind) (label action rationale : String) (confidence : Double) :=
    ContradictionProposal.make kind label action new.entityId (.str other.entityId) rationale
      confidence now
  let opposed (key : String) : Except Exn Bool :=
    checkTextContradiction (getItemD new.entity key (.str "")) (getItemD other.entity key (.str ""))
  let conflicting ← andThen (bothOf .observation) (opposed "content")
  let first ← proposedIf conflicting (propose .conflictingObservation "prop_obs_"
    "flag_contradiction" "Direct semantic conflict detected between observations"
    ⟨false, 1022, 0xB333333333333⟩)
  let validTo := other.provenance.map (getItem · "valid_to")
  let expired ← andThen (bothOf .fact) (validTo >>= expiredAt now)
  let second ← proposedIf expired (propose .staleFact "prop_stale_" "supersede"
    ("Fact " ++ other.entityId ++ " valid_to expired (" ++
      State.pyStr (validTo.toOption.getD .null) ++ "); new fact " ++ new.entityId ++ " observed")
    nineTenths)
  let opposing ← andThen (bothOf .fact || bothOf .assumption) (opposed "statement")
  let third ← proposedIf opposing (propose .unresolvedContradiction "prop_unres_"
    "review_required"
    ("Unresolved semantic contradiction between " ++ new.entityType.value ++ "s") eightTenths)
  return first ++ second ++ third

/-- `_detect_contradictions_and_supersessions`; of the proposals with one id the last is kept. -/
def detectContradictions [PythonRe] (new existing : List SemanticEntityCandidate) (now : Value) :
    Except Exn (List ContradictionProposal) := do
  let proposals ← new.mapM fun candidate => do
    let own ← ownProposals candidate now
    let others ← ((existing ++ new).filter (·.entityId ≠ candidate.entityId)).mapM fun other =>
      pairProposals candidate other now
    return own ++ others.flatten
  let unique := proposals.flatten.foldl (fun d p => put p.proposalId p d) []
  return unique.map Prod.snd

end PowerFramework.Semantic
