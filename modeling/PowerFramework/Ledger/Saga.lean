import PowerFramework.Ledger.EventTypes
/-!
# Association payloads

The payload models of the six association events.  Commands and events both replace their
payload by the model's dump; `sagaPayload_idem` says that doing so twice changes nothing.
-/

namespace PowerFramework.Ledger

open Lib Lib.Failure Lib.Json

inductive SagaShape where
  | requested
  | associated
  | failed
  deriving DecidableEq, Repr

structure SagaModel where
  name : String
  idField : String
  relation : String
  shape : SagaShape
  deriving DecidableEq, Repr

def taskAssociationRequestedPayload : SagaModel :=
  ⟨"TaskAssociationRequestedPayload", "task_id", "contributes_to", .requested⟩

def taskAssociatedPayload : SagaModel :=
  ⟨"TaskAssociatedPayload", "task_id", "contributes_to", .associated⟩

def taskAssociationFailedPayload : SagaModel :=
  ⟨"TaskAssociationFailedPayload", "task_id", "contributes_to", .failed⟩

def decisionAssociationRequestedPayload : SagaModel :=
  ⟨"DecisionAssociationRequestedPayload", "decision_id", "governs", .requested⟩

def decisionAssociatedPayload : SagaModel :=
  ⟨"DecisionAssociatedPayload", "decision_id", "governs", .associated⟩

def decisionAssociationFailedPayload : SagaModel :=
  ⟨"DecisionAssociationFailedPayload", "decision_id", "governs", .failed⟩

/-- `SAGA_PAYLOAD_MODELS` -/
def sagaPayloadModels : EventType → Option SagaModel
  | .taskAssociationRequested => some taskAssociationRequestedPayload
  | .taskAssociated => some taskAssociatedPayload
  | .taskAssociationFailed => some taskAssociationFailedPayload
  | .decisionAssociationRequested => some decisionAssociationRequestedPayload
  | .decisionAssociated => some decisionAssociatedPayload
  | .decisionAssociationFailed => some decisionAssociationFailedPayload
  | _ => none

def SagaModel.reasonFields (m : SagaModel) : List String :=
  if m.shape = .failed then ["reason"] else []

def SagaModel.attemptFields (m : SagaModel) : List String :=
  if m.shape = .requested then ["attempt", "max_attempts"] else []

def SagaModel.fields (m : SagaModel) : List String :=
  ["project_id", m.idField, "relation"] ++ m.reasonFields ++
    ["correlation_id", "idempotency_key"] ++ m.attemptFields

/-- An instance of one of the models; `reason` and the attempts are read where the model has
them. -/
structure SagaPayload where
  projectId : String
  subject : String
  relation : String
  reason : Option String
  correlationId : Option String
  idempotencyKey : Option String
  attempts : Option (Nat × Nat)

variable [LaxInt]

omit [LaxInt] in
def SagaModel.reasonField (m : SagaModel) (d : Dict) : Except Exn (Option String) :=
  if m.shape = .failed then (strField d "reason" (lengthBetween 512)).map some else .ok none

def SagaModel.attemptsField (m : SagaModel) (d : Dict) : Except Exn (Option (Nat × Nat)) :=
  if m.shape = .requested then do
    let attempt ← positiveField d "attempt" (some 1)
    let maxAttempts ← positiveField d "max_attempts" (some 3)
    return some (attempt, maxAttempts)
  else .ok none

def SagaModel.modelValidate (m : SagaModel) (d : Dict) : Except Exn SagaPayload := do
  let projectId ← strField d "project_id" isProjectId
  let subject ← strField d m.idField (lengthBetween 128)
  let relation ← strFieldD d "relation" m.relation fun _ => true
  let reason ← m.reasonField d
  let correlationId ← optStrField d "correlation_id" (lengthAtMost 128)
  let idempotencyKey ← optStrField d "idempotency_key" (lengthAtMost 128)
  let attempts ← m.attemptsField d
  noExtras d m.fields
  return { projectId, subject, relation, reason, correlationId, idempotencyKey, attempts }

omit [LaxInt] in
/-- The fields of an instance in the order the model declares them. -/
def SagaModel.items (m : SagaModel) (p : SagaPayload) : List (String × Value) :=
  [("project_id", .str p.projectId), (m.idField, .str p.subject), ("relation", .str p.relation)] ++
    p.reason.toList.map (fun reason => ("reason", .str reason)) ++
    [("correlation_id", optValue p.correlationId), ("idempotency_key", optValue p.idempotencyKey)] ++
    p.attempts.toList.flatMap fun attempts =>
      [("attempt", .int attempts.1), ("max_attempts", .int attempts.2)]

omit [LaxInt] in
/-- `validated.model_dump()` -/
def SagaModel.modelDump (m : SagaModel) (p : SagaPayload) : Dict := dictFrom (m.items p)

omit [LaxInt] in
/-- `if field not in payload_data and value: payload_data[field] = value` -/
def fillMissing (field : String) (value : Option String) (d : Dict) : Dict :=
  match value with
  | none => d
  | some s => if d.lookup field = none ∧ s ≠ "" then setItem field (.str s) d else d

/-- `validate_saga_payload` of `AppendCommand` and `ProjectEvent` -/
def sagaPayload (eventType : EventType) (projectId : String)
    (correlationId idempotencyKey : Option String) (payload : Dict) : Except Exn Dict :=
  match sagaPayloadModels eventType with
  | none => .ok payload
  | some model => do
      raiseIf (payload.isEmpty) (valueError (s!"Payload for saga event '{eventType.text}' must " ++
        s!"be a non-empty dictionary conforming to {model.name}"))
      let d := if payload.lookup "project_id" = none then
        setItem "project_id" (.str projectId) payload else payload
      let d := fillMissing "correlation_id" correlationId d
      let d := fillMissing "idempotency_key" idempotencyKey d
      let validated ← model.modelValidate d
      return model.modelDump validated

/-- The field values of a validated payload. -/
structure SagaPayload.Valid (m : SagaModel) (p : SagaPayload) : Prop where
  projectId : isProjectId p.projectId = true
  subject : lengthBetween 128 p.subject = true
  reason : (m.shape = .failed ∧ ∃ r, p.reason = some r ∧ lengthBetween 512 r = true) ∨
    (m.shape ≠ .failed ∧ p.reason = none)
  correlationId : ∀ s, p.correlationId = some s → lengthAtMost 128 s = true
  idempotencyKey : ∀ s, p.idempotencyKey = some s → lengthAtMost 128 s = true
  attempts : (m.shape = .requested ∧ ∃ a b, p.attempts = some (a, b) ∧ 1 ≤ a ∧ 1 ≤ b) ∨
    (m.shape ≠ .requested ∧ p.attempts = none)

omit [LaxInt] in
theorem SagaModel.reasonField_ok {m : SagaModel} {d : Dict} {reason : Option String}
    (h : m.reasonField d = .ok reason) :
    (m.shape = .failed ∧ ∃ r, reason = some r ∧ lengthBetween 512 r = true) ∨
      (m.shape ≠ .failed ∧ reason = none) := by
  unfold SagaModel.reasonField at h
  split_ifs at h with hshape
  · obtain ⟨r, hr, rfl⟩ := map_eq_ok.mp h
    exact Or.inl ⟨hshape, r, rfl, strField_ok hr⟩
  · cases h
    exact Or.inr ⟨hshape, rfl⟩

theorem SagaModel.attemptsField_ok {m : SagaModel} {d : Dict} {attempts : Option (Nat × Nat)}
    (h : m.attemptsField d = .ok attempts) :
    (m.shape = .requested ∧ ∃ a b, attempts = some (a, b) ∧ 1 ≤ a ∧ 1 ≤ b) ∨
      (m.shape ≠ .requested ∧ attempts = none) := by
  have hdefault : ∀ k, 1 ≤ k → ∀ n, some k = some n → 1 ≤ n := by
    rintro k hk n ⟨⟩
    exact hk
  unfold SagaModel.attemptsField at h
  split_ifs at h with hshape
  · obtain ⟨a, ha, h⟩ := bind_eq_ok.mp h
    obtain ⟨b, hb, h⟩ := bind_eq_ok.mp h
    cases h
    exact Or.inl ⟨hshape, a, b, rfl, positiveField_ok (hdefault 1 (by omega)) ha,
      positiveField_ok (hdefault 3 (by omega)) hb⟩
  · cases h
    exact Or.inr ⟨hshape, rfl⟩

theorem SagaModel.modelValidate_ok {m : SagaModel} {d : Dict} {p : SagaPayload}
    (h : m.modelValidate d = .ok p) : p.Valid m := by
  simp only [SagaModel.modelValidate, bind_eq_ok, pure, Except.pure, Except.ok.injEq] at h
  obtain ⟨projectId, hproject, subject, hsubject, relation, -, reason, hreason, correlationId,
    hcorrelation, idempotencyKey, hkey, attempts, hattempts, -, -, rfl⟩ := h
  exact ⟨strField_ok hproject, strField_ok hsubject, SagaModel.reasonField_ok hreason,
    optStrField_ok hcorrelation, optStrField_ok hkey, SagaModel.attemptsField_ok hattempts⟩

omit [LaxInt] in
theorem idField_of_sagaPayloadModels {t : EventType} {m : SagaModel}
    (h : sagaPayloadModels t = some m) : m.idField = "task_id" ∨ m.idField = "decision_id" := by
  cases t <;> simp [sagaPayloadModels] at h <;> subst h <;> decide

omit [LaxInt] in
theorem SagaModel.keys_items {m : SagaModel} {p : SagaPayload} (hp : p.Valid m) :
    (m.items p).map Prod.fst = m.fields := by
  have hreason : (p.reason.toList.map fun reason => ("reason", Value.str reason)).map Prod.fst =
      m.reasonFields := by
    rcases hp.reason with ⟨hshape, r, hr, -⟩ | ⟨hshape, hr⟩
    · simp [hr, SagaModel.reasonFields, hshape]
    · simp [hr, SagaModel.reasonFields, hshape]
  have hattempts : (p.attempts.toList.flatMap fun attempts =>
      [("attempt", Value.int attempts.1), ("max_attempts", Value.int attempts.2)]).map Prod.fst =
      m.attemptFields := by
    rcases hp.attempts with ⟨hshape, a, b, ha, -⟩ | ⟨hshape, ha⟩
    · simp [ha, SagaModel.attemptFields, hshape]
    · simp [ha, SagaModel.attemptFields, hshape]
  simp only [SagaModel.items, SagaModel.fields, List.map_append, hreason, hattempts]
  rfl

omit [LaxInt] in
theorem SagaModel.nodup_fields {m : SagaModel}
    (hid : m.idField = "task_id" ∨ m.idField = "decision_id") : m.fields.Nodup := by
  obtain ⟨name, idField, relation, shape⟩ := m
  rcases hid with rfl | rfl <;> cases shape <;>
    simp [SagaModel.fields, SagaModel.reasonFields, SagaModel.attemptFields]

section
variable {m : SagaModel} {p : SagaPayload}
    (hid : m.idField = "task_id" ∨ m.idField = "decision_id") (hp : p.Valid m)
include hid hp

omit [LaxInt] in
theorem SagaModel.lookup_modelDump (field : String) (value : Value)
    (h : (field, value) ∈ m.items p) : (m.modelDump p).lookup field = some value := by
  apply lookup_dictFrom _ h
  rw [SagaModel.keys_items hp]
  exact SagaModel.nodup_fields hid

/-- A dumped payload is validated as it is. -/
theorem SagaModel.modelValidate_modelDump : m.modelValidate (m.modelDump p) = .ok p := by
  have hlookup := SagaModel.lookup_modelDump hid hp
  have hreason : m.reasonField (m.modelDump p) = .ok p.reason := by
    rcases hp.reason with ⟨hshape, r, hr, hlen⟩ | ⟨hshape, hr⟩
    · rw [SagaModel.reasonField, if_pos hshape, hr,
        strField_of_lookup (hlookup _ _ (by simp [SagaModel.items, hr])) hlen]
      rfl
    · rw [SagaModel.reasonField, if_neg hshape, hr]
  have hattempts : m.attemptsField (m.modelDump p) = .ok p.attempts := by
    rcases hp.attempts with ⟨hshape, a, b, hab, ha, hb⟩ | ⟨hshape, hab⟩
    · rw [SagaModel.attemptsField, if_pos hshape, hab,
        positiveField_of_lookup (hlookup _ _ (by simp [SagaModel.items, hab])) ha,
        positiveField_of_lookup (hlookup _ _ (by simp [SagaModel.items, hab])) hb]
      rfl
    · rw [SagaModel.attemptsField, if_neg hshape, hab]
  have hextras : noExtras (m.modelDump p) m.fields = .ok ⟨⟩ := by
    rw [noExtras_ok]
    intro item hitem
    rw [← SagaModel.keys_items hp]
    exact List.mem_map_of_mem (mem_dictFrom hitem)
  rw [SagaModel.modelValidate,
    strField_of_lookup (hlookup _ _ (by simp [SagaModel.items])) hp.projectId,
    strField_of_lookup (hlookup _ _ (by simp [SagaModel.items])) hp.subject,
    strFieldD_of_lookup (hlookup "relation" (.str p.relation) (by simp [SagaModel.items])) rfl,
    hreason,
    optStrField_of_lookup (hlookup _ _ (by simp [SagaModel.items])) hp.correlationId,
    optStrField_of_lookup (hlookup _ _ (by simp [SagaModel.items])) hp.idempotencyKey,
    hattempts, hextras]
  rfl

end

omit [LaxInt] in
theorem fillMissing_of_lookup {field : String} {value : Option String} {d : Dict} {v : Value}
    (h : d.lookup field = some v) : fillMissing field value d = d := by
  cases value with
  | none => rfl
  | some s => simp [fillMissing, h]

/-- Validating a payload twice gives what validating it once gives. -/
theorem sagaPayload_idem {t : EventType} {projectId : String} {correlationId key : Option String}
    {payload out : Dict} (h : sagaPayload t projectId correlationId key payload = .ok out) :
    sagaPayload t projectId correlationId key out = .ok out := by
  unfold sagaPayload at h ⊢
  cases hmodel : sagaPayloadModels t with
  | none => rfl
  | some m =>
      simp only [hmodel, bind_eq_ok, pure, Except.pure, Except.ok.injEq] at h
      obtain ⟨-, -, p, hvalidate, rfl⟩ := h
      have hid := idField_of_sagaPayloadModels hmodel
      have hp := SagaModel.modelValidate_ok hvalidate
      have hproject := SagaModel.lookup_modelDump hid hp "project_id" (.str p.projectId)
        (by simp [SagaModel.items])
      have hcorrelation := SagaModel.lookup_modelDump hid hp "correlation_id"
        (optValue p.correlationId) (by simp [SagaModel.items])
      have hkey := SagaModel.lookup_modelDump hid hp "idempotency_key"
        (optValue p.idempotencyKey) (by simp [SagaModel.items])
      have hnonempty : (m.modelDump p).isEmpty = false := by
        cases hdump : m.modelDump p with
        | nil => simp [hdump] at hproject
        | cons item items => rfl
      simp only [hnonempty, hproject, reduceCtorEq, if_false, fillMissing_of_lookup hcorrelation,
        fillMissing_of_lookup hkey, SagaModel.modelValidate_modelDump hid hp]
      rfl

omit [LaxInt] in
theorem SagaModel.plain_modelDump (m : SagaModel) (p : SagaPayload) :
    Plain (.dict (m.modelDump p)) := by
  have hopt : ∀ o : Option String, Plain (optValue o) := by
    rintro (_ | s) <;> exact ⟨rfl, rfl⟩
  refine plain_dict.mpr ⟨sortedKeys_dictFrom _, fun item hitem => ?_⟩
  have hitem := mem_dictFrom hitem
  simp only [SagaModel.items, List.mem_append, List.mem_cons, List.not_mem_nil, or_false,
    List.mem_map, List.mem_flatMap] at hitem
  rcases hitem with (((rfl | rfl | rfl) | ⟨r, -, rfl⟩) | rfl | rfl) | ⟨a, -, rfl | rfl⟩
  · exact ⟨rfl, rfl⟩
  · exact ⟨rfl, rfl⟩
  · exact ⟨rfl, rfl⟩
  · exact ⟨rfl, rfl⟩
  · exact hopt _
  · exact hopt _
  · exact ⟨rfl, rfl⟩
  · exact ⟨rfl, rfl⟩

/-- A payload stays as it was, or becomes a dump. -/
theorem sagaPayload_cases {t : EventType} {projectId : String} {correlationId key : Option String}
    {payload out : Dict} (h : sagaPayload t projectId correlationId key payload = .ok out) :
    out = payload ∨ Plain (.dict out) := by
  unfold sagaPayload at h
  cases hmodel : sagaPayloadModels t with
  | none =>
      simp only [hmodel] at h
      cases h
      exact Or.inl rfl
  | some m =>
      simp only [hmodel, bind_eq_ok, pure, Except.pure, Except.ok.injEq] at h
      obtain ⟨-, -, p, -, rfl⟩ := h
      exact Or.inr (m.plain_modelDump p)

end PowerFramework.Ledger
