import PowerFramework.Ledger.EventTypes
import PowerFramework.State.Record
/-!
# RAID entities

Risks, assumptions, issues and dependencies with their provenance, as lists of checked fields in
key order.
-/

namespace PowerFramework.State

open Lib Lib.Text Lib.Failure Lib.Json Ledger

def isTextWith (ok : String → Bool) : Value → Bool
  | .str s => ok s
  | _ => false

def isOptTextWith (ok : String → Bool) : Value → Bool
  | .null => true
  | value => isTextWith ok value

/-- A list of strings. -/
def isTextsWith (ok : List String → Bool) : Value → Bool
  | .list items =>
      match items.mapM strOf with
      | some texts => ok texts
      | none => false
  | _ => false

/-- `Literal[...]` -/
def isChoice (options : List String) : Value → Bool := isTextWith (· ∈ options)

def isNaN (x : Double) : Bool := x.exponent.val = 2047 && x.fraction.val ≠ 0

/-- `ge=0.0, le=1.0`: neither below zero nor above one, which NaN is not either. -/
def inUnit (x : Double) : Bool :=
  isNaN x || if x.negative then x.mantissa = 0 else x.scaled ≤ 2 ^ 1074

def isUnitFloat : Value → Bool
  | .float x => inUnit x
  | _ => false

def isNestedIn (fields : List Field) : Value → Bool
  | .dict items => fits fields items
  | _ => false

/-- A field without default. -/
def Field.required (name : String) (ok : Value → Bool) : Field := ⟨name, none, ok, by simp⟩

def Field.withDefault (name : String) (default : Value) (ok : Value → Bool)
    (h : ok default = true) : Field :=
  ⟨name, some default, ok, by rintro _ ⟨⟩; exact h⟩

def Field.optional (name : String) (ok : String → Bool) : Field :=
  .withDefault name .null (isOptTextWith ok) rfl

def anyText (_ : String) : Bool := true

/-- `EVENT_ID_COMPILED.match`; Python's `$` also matches before a final newline. -/
def matchesEventId (s : String) : Bool :=
  isEventId s ||
    (s.toList.getLast? == some '\n' && isEventId (String.ofList s.toList.dropLast))

/-- `^rsk_[A-Za-z0-9._-]{2,64}$` and its likes. -/
def isEntityId (lead s : String) : Bool :=
  lead.toList.isPrefixOf s.toList &&
    (s.toList.drop lead.toList.length).all isTokenChar &&
    2 ≤ (s.toList.drop lead.toList.length).length &&
    (s.toList.drop lead.toList.length).length ≤ 64

/-- `Provenance` -/
def provenanceFields : List Field := [
  .required "actor" (isTextWith (lengthBetween 128)),
  .withDefault "confidence" .null (fun value => value matches .null || isUnitFloat value) rfl,
  .optional "correlation_id" (lengthAtMost 128),
  .withDefault "evidence_refs" (.list []) (isTextsWith (·.all (lengthAtMost 512))) rfl,
  .optional "invalidates" (lengthAtMost 128),
  .optional "primary_source_event_id" isEventId,
  .required "source_event_ids"
    (isTextsWith fun ids => !ids.isEmpty && ids.all matchesEventId && decide ids.Nodup),
  .required "source_type" (isChoice ["event_replay", "direct_mutation", "reconciliation",
    "agent_inference", "human_entry", "automated_test"]),
  .optional "supersedes" (lengthAtMost 128),
  .required "timestamp" (isTextWith anyText),
  .optional "valid_from" anyText,
  .optional "valid_to" anyText,
  .optional "verification_status"
    (· ∈ ["unverified", "verified", "refuted", "quarantined"])]

def provenanceField : Field := .required "provenance" (isNestedIn provenanceFields)

def riskFields : List Field := [
  .required "created_at" (isTextWith anyText),
  .withDefault "description" (.str "") (isTextWith (lengthAtMost 4096)) (by decide),
  .required "impact" (isChoice ["low", "medium", "high", "critical"]),
  .withDefault "mitigation_plan" (.str "") (isTextWith (lengthAtMost 4096)) (by decide),
  .required "owner" (isTextWith (lengthBetween 128)),
  .required "probability" (isChoice ["low", "medium", "high"]),
  .required "project_id" (isTextWith isProjectId),
  provenanceField,
  .withDefault "related_task_ids" (.list []) (isTextsWith fun _ => true) rfl,
  .required "risk_id" (isTextWith (isEntityId "rsk_")),
  .required "status" (isChoice ["identified", "mitigated", "materialized", "retired"]),
  .required "title" (isTextWith (lengthBetween 256)),
  .required "updated_at" (isTextWith anyText)]

def assumptionFields : List Field := [
  .required "assumption_id" (isTextWith (isEntityId "asm_")),
  .required "confidence" isUnitFloat,
  .required "created_at" (isTextWith anyText),
  .optional "invalidated_by" (lengthAtMost 128),
  .required "project_id" (isTextWith isProjectId),
  provenanceField,
  .withDefault "rationale" (.str "") (isTextWith (lengthAtMost 4096)) (by decide),
  .required "statement" (isTextWith (lengthBetween 1024)),
  .required "status" (isChoice ["valid", "invalidated", "confirmed"]),
  .optional "validated_at" anyText]

def issueFields : List Field := [
  .withDefault "blocking_task_ids" (.list []) (isTextsWith fun _ => true) rfl,
  .required "created_at" (isTextWith anyText),
  .withDefault "description" (.str "") (isTextWith (lengthAtMost 4096)) (by decide),
  .required "issue_id" (isTextWith (isEntityId "iss_")),
  .required "project_id" (isTextWith isProjectId),
  provenanceField,
  .optional "resolution" (lengthAtMost 4096),
  .optional "resolved_at" anyText,
  .required "severity" (isChoice ["minor", "major", "critical", "blocker"]),
  .required "status" (isChoice ["open", "investigating", "resolved", "closed"]),
  .required "title" (isTextWith (lengthBetween 256))]

def dependencyFields : List Field := [
  .required "created_at" (isTextWith anyText),
  .required "dependency_id" (isTextWith (isEntityId "dep_")),
  .required "dependency_kind" (isChoice ["blocks", "blocked_by", "relates_to", "requires"]),
  .optional "external_ref" (lengthAtMost 512),
  .required "project_id" (isTextWith isProjectId),
  provenanceField,
  .required "source_id" (isTextWith (lengthBetween 128)),
  .required "status" (isChoice ["pending", "satisfied", "broken"]),
  .required "target_id" (isTextWith (lengthBetween 128)),
  .required "target_type" (isChoice ["task", "decision", "artifact", "project", "external"])]

abbrev Risk := Record riskFields

abbrev Assumption := Record assumptionFields

abbrev Issue := Record issueFields

abbrev Dependency := Record dependencyFields

end PowerFramework.State
