import PowerFramework.Retrieval.Contracts
import PowerFramework.Retrieval.Patterns
import PowerFramework.State.Governance
/-!
# The authority of a vault note

What a note says about itself decides how it may be used: its frontmatter can lower the trust in
it and never raise its authority.
-/

namespace PowerFramework.Retrieval

open Lib Lib.Failure Lib.Json Lib.Regex State

/-! ## Frontmatter -/

/-- `yaml.safe_load`: the entries with string keys of the mapping a text holds, if it holds one;
no mapping stands for malformed YAML, which is passed over. -/
class PythonYaml where
  safeLoad : String → Except Exn (Option Dict)

/-- The text behind `\\r?\\n` at the beginning. -/
def afterNewline : List Char → Option (List Char)
  | '\n' :: rest => some rest
  | '\r' :: '\n' :: rest => some rest
  | _ => none

/-- The text behind `---`. -/
def afterDashes : List Char → Option (List Char)
  | '-' :: '-' :: '-' :: rest => some rest
  | _ => none

/-- `\r?\n---\r?\n` stands at the beginning. -/
def closesFrontmatter (text : List Char) : Bool :=
  (((afterNewline text).bind afterDashes).bind afterNewline).isSome

/-- `(.*?)` in front of the closing line. -/
def frontmatterBody : List Char → Option (List Char)
  | [] => none
  | c :: rest =>
      if closesFrontmatter (c :: rest) then some []
      else (frontmatterBody rest).map (c :: ·)

/-- `extract_frontmatter_raw` -/
def extractFrontmatterRaw (content : String) : Option String :=
  (((afterDashes content.toList).bind afterNewline).bind frontmatterBody).map String.ofList

/-- `parse_frontmatter(content) or {}` -/
def parseFrontmatter [PythonYaml] (content : String) : Except Exn Dict :=
  match extractFrontmatterRaw content with
  | none => .ok []
  | some raw => (PythonYaml.safeLoad raw).map (Option.getD · [])

/-! ## Files -/

/-- What the file system answers about the notes of a vault; an error is its message. -/
structure NoteFiles where
  /-- `(vault_dir / rel_path).is_file()` -/
  isFile : String → Except String Bool
  /-- `(vault_dir / rel_path).read_text(encoding="utf-8", errors="ignore")` -/
  readText : String → Except String String

def osError (message : String) : Exn := ⟨"OSError", message⟩

/-- `note_path.is_file()` -/
def NoteFiles.present (files : NoteFiles) (relPath : String) : Except Exn Bool :=
  (files.isFile relPath).mapError osError

/-- The text of a note, or what stands in for a note that cannot be read. -/
def NoteFiles.textOr (files : NoteFiles) (relPath standIn : String) : String :=
  match files.readText relPath with
  | .ok text => text
  | .error _ => standIn

/-! ## Inspection -/

/-- What `_inspect_vault_note_authority` returns. -/
structure Inspection where
  authority : Authority
  trustState : TrustState
  authorityBasis : AuthorityBasis
  sourceType : String
  freshness : Freshness
  contradictionState : ContradictionState
  noiseState : NoiseState
  deriving DecidableEq, Repr

/-- The verdict on a note with injected instructions. -/
def Inspection.quarantined : Inspection :=
  ⟨.unverified, .quarantined, .rawCapture, "noise_capture", .unknown, .unknown, .quarantined⟩

/-- An ordinary note. -/
def Inspection.ordinary : Inspection :=
  ⟨.unverified, .proposed, .proposal, "vault_note", .unknown, .unknown, .clean⟩

section
variable [PythonText] [PythonYaml]

/-- `str(fm.get(key, "")).strip()` -/
def declared (fm : Dict) (key : String) : String :=
  stripText (pyStr (getItemD fm key (.str "")))

/-- `[str(t).strip().lower() for t in fm.get("tags", [])]`, of a list. -/
def noteTags (fm : Dict) : List String :=
  match getItemD fm "tags" (.list []) with
  | .list items => items.map fun t => PythonText.lower (stripText (pyStr t))
  | _ => []

/-- `str(fm.get("authority_basis", fm.get("basis", ""))).strip().upper()` -/
def declaredBasis (fm : Dict) : String :=
  PythonText.upper (stripText (pyStr (getItemD fm "authority_basis" (getItemD fm "basis" (.str "")))))

/-- `str(fm.get("source_type", "")).strip().lower().replace("-", "_")` -/
def declaredSourceType (fm : Dict) : String :=
  String.ofList ((PythonText.lower (declared fm "source_type")).toList.map fun c =>
    if c = '-' then '_' else c)

/-- `_declares_raising` -/
def declaresRaising (fm : Dict) : Bool :=
  decide (PythonText.lower (declared fm "authority") ∈ ["canonical", "verified", "curated"]) ||
  decide (PythonText.upper (declared fm "trust_state") ∈ ["CANONICAL", "VERIFIED", "CURATED"]) ||
  decide (declaredBasis fm ∈ ["CANONICAL_LEDGER", "VERIFIED_PROJECTION", "CURATED_NOTE"]) ||
  ["canonical_", "verified_", "curated_"].any
    (fun lead => Search.startsWith lead (declaredSourceType fm))

/-- `_lower_trust_map` -/
def lowerTrustMap : List (String × TrustState) := [
  ("RAW", .raw), ("PROPOSED", .proposed), ("QUARANTINED", .quarantined),
  ("ARCHIVED", .archived), ("SUPERSEDED", .superseded), ("NOISE", .noise)]

/-- The keys of `_lower_basis_map`. -/
def lowerBases : List String := ["PROPOSAL", "RAW_CAPTURE", "UNKNOWN"]

/-- The verdict of a declaration that lowers the trust. -/
def declaredLowering (fm : Dict) : Option Inspection :=
  let authority := PythonText.lower (declared fm "authority")
  let trust := PythonText.upper (declared fm "trust_state")
  if authority ≠ "" ∧ declaresRaising fm = false ∧
      (authority ∈ ["unverified", "proposed"] ∨ trust ∈ lowerTrustMap.map Prod.fst ∨
        declaredBasis fm ∈ lowerBases ∨ trust ∈ ["", "PROPOSED", "RAW"]) then
    match (lowerTrustMap.lookup trust).getD .proposed with
    | .quarantined => some .quarantined
    | .raw => some ⟨.unverified, .raw, .rawCapture, "raw_capture", .unknown, .unknown, .clean⟩
    | .archived => some ⟨.unverified, .archived, .proposal, "vault_note", .unknown, .unknown, .clean⟩
    | .superseded =>
        some ⟨.unverified, .superseded, .proposal, "vault_note", .unknown, .superseded, .clean⟩
    | _ => none
  else none

/-- The verdict of the tags, the type and the status. -/
def taggedLowering (fm : Dict) : Inspection :=
  let tags := noteTags fm
  let status := PythonText.lower (declared fm "status")
  if "raw-capture" ∈ tags ∨ "raw" ∈ tags ∨ "chat" ∈ tags ∨ declared fm "type" = "Daily Log" then
    ⟨.unverified, .raw, .rawCapture, "raw_capture", .current, .none, .clean⟩
  else if "superseded" ∈ tags then
    ⟨.unverified, .superseded, .proposal, "vault_note", .stale, .superseded, .clean⟩
  else if "historical" ∈ tags ∨ "stale" ∈ tags ∨ status = "archived" then
    ⟨.unverified, .archived, .proposal, "vault_note", .stale, .unknown, .clean⟩
  else if "hard-negative" ∈ tags ∨ "distractor" ∈ tags then .ordinary
  else if "proposed" ∈ tags ∨ "unverified" ∈ tags ∨ status = "review" then
    ⟨.unverified, .proposed, .proposal, "unverified_research", .current, .none, .clean⟩
  else .ordinary

variable [PythonWord]

/-- `_INJECTION_PATTERN.search(text)` -/
def injected (text : String) : Bool := search PythonWord.isWord injectionPattern text

/-- `_AUTHORITY_SPOOF_PATTERN.search(text)` -/
def spoofed (text : String) : Bool := search PythonWord.isWord authoritySpoofPattern text

/-- `_SECRET_PATTERN.search(text)` -/
def hasSecret (text : String) : Bool := search PythonWord.isWord secretPattern text

/-- The verdict on a note of the text. -/
def inspectText (rawText : String) : Except Exn Inspection := do
  let fm ← parseFrontmatter rawText
  let tags := noteTags fm
  return if "quarantine" ∈ tags ∨ "prompt-injection" ∈ tags ∨ "noise" ∈ tags ∨
      injected rawText = true then .quarantined
    else (declaredLowering fm).getD (taggedLowering fm)

/-- `_inspect_vault_note_authority` -/
def inspectVaultNoteAuthority (files : NoteFiles) (relPath snippetContent : String) :
    Except Exn Inspection := do
  let present ← files.present relPath
  inspectText (if present then files.textOr relPath snippetContent else snippetContent)

end

/-! ## Verdicts -/

/-- A verdict that the contract admits for a note. -/
structure Inspection.Ordinary (self : Inspection) : Prop where
  authority : self.authority = .unverified
  trust : self.trustState ∈ [.quarantined, .raw, .superseded, .archived, .proposed]
  basis : self.authorityBasis = .proposal ∨ self.authorityBasis = .rawCapture
  noise : self.trustState = .quarantined → self.noiseState = .quarantined

section
variable [PythonText]

theorem ordinary_declaredLowering {fm : Dict} {verdict : Inspection}
    (h : declaredLowering fm = some verdict) : verdict.Ordinary := by
  unfold declaredLowering at h
  simp only at h
  split at h
  · split at h
    all_goals cases h
    all_goals exact ⟨rfl, by decide, by decide, by decide⟩
  · cases h

theorem ordinary_taggedLowering (fm : Dict) : (taggedLowering fm).Ordinary := by
  unfold taggedLowering
  simp only
  split_ifs
  all_goals exact ⟨rfl, by decide, by decide, by decide⟩

variable [PythonYaml] [PythonWord] {verdict : Inspection}

theorem ordinary_of_inspectText {rawText : String} (h : inspectText rawText = .ok verdict) :
    verdict.Ordinary := by
  obtain ⟨fm, -, h⟩ := bind_eq_ok.mp h
  cases h
  split_ifs
  · exact ⟨rfl, by decide, by decide, by decide⟩
  · cases hdeclared : declaredLowering fm with
    | none => exact ordinary_taggedLowering fm
    | some verdict => exact ordinary_declaredLowering hdeclared

/-- A note is never given authority. -/
theorem ordinary_of_inspect {files : NoteFiles} {relPath content : String}
    (h : inspectVaultNoteAuthority files relPath content = .ok verdict) : verdict.Ordinary := by
  obtain ⟨present, -, h⟩ := bind_eq_ok.mp h
  exact ordinary_of_inspectText h

end

end PowerFramework.Retrieval
