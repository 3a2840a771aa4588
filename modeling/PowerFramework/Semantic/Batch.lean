import PowerFramework.Semantic.Compiler
/-!
# Accepted batches

A batch that is read to its end gives what its events contribute, in their order.  The events of a
verified ledger make such a batch.
-/

set_option linter.unusedSectionVars false

namespace PowerFramework.Semantic

open Lib Lib.Failure Lib.Json Lib.Run Ledger PowerFramework.Task

variable [PythonRe] [PythonRepr] [PythonText] [LaxInt] [LaxFloat]

/-- No event of the batch is left out. -/
def Accepted (projectId : String) : Option Dict → List SuppliedEvent → Prop
  | _, [] => True
  | prev, evt :: events =>
      refusal projectId prev evt = .ok none ∧ Accepted projectId (some evt.toDict) events

/-- What the compiler takes from an event at its place in the batch. -/
def contributed (self : SemanticCompiler) (authorized : Bool) (asOf : Value)
    (evt : SuppliedEvent × Nat) : List SemanticEntityCandidate :=
  if (eventTypeOf evt.1.toDict).map disposition = some .semanticEntity then
    (contribute (self.providerAt evt.2) authorized asOf evt.1.toDict).candidates
  else []

section
variable {self : SemanticCompiler} {projectId : String} {authorized : Bool} {asOf : Value}

theorem step_accepted (st : Compilation) {evt : SuppliedEvent × Nat}
    (h : refusal projectId st.prevEventDict evt.1 = .ok none) : ∃ next,
      Compilation.step self projectId authorized asOf st evt = .ok next ∧
      next.prevEventDict = some evt.1.toDict ∧
      next.candidates = st.candidates ++ contributed self authorized asOf evt := by
  unfold Compilation.step
  rw [h]
  dsimp only [bind, Except.bind, contributed]
  cases hmade : (eventTypeOf evt.1.toDict).map disposition with
  | none => exact ⟨_, rfl, rfl, (List.append_nil _).symm⟩
  | some made =>
      cases made with
      | semanticEntity => exact ⟨_, rfl, rfl, rfl⟩
      | relationshipProposal => exact ⟨_, rfl, rfl, (List.append_nil _).symm⟩
      | lifecycleMetadataNoop => exact ⟨_, rfl, rfl, (List.append_nil _).symm⟩
      | explicitlyRejected => exact ⟨_, rfl, rfl, (List.append_nil _).symm⟩

/-- An accepted batch gathers the contributions of its events. -/
theorem gathered_accepted {events : List (SuppliedEvent × Nat)} {st : Compilation}
    (h : Accepted projectId st.prevEventDict (events.map Prod.fst)) : ∃ last,
      events.foldlM (Compilation.step self projectId authorized asOf) st = .ok last ∧
      last.candidates = st.candidates ++ events.flatMap (contributed self authorized asOf) := by
  induction events generalizing st with
  | nil => exact ⟨st, rfl, (List.append_nil _).symm⟩
  | cons evt events ih =>
      obtain ⟨hevt, hrest⟩ := h
      obtain ⟨next, hstep, hprev, hcandidates⟩ := step_accepted st hevt
      rw [← hprev] at hrest
      obtain ⟨last, hlast, heq⟩ := ih hrest
      refine ⟨last, foldlM_cons_eq_ok.mpr ⟨next, hstep, hlast⟩, ?_⟩
      rw [heq, hcandidates, List.flatMap_cons, List.append_assoc]

/-- The time a batch that ends with the event is compiled as of. -/
def timeOf (asOf : Option String) (last : SuppliedEvent) : Value :=
  (asOf.map Value.str).getD last.timestamp

/-- The time a batch is compiled as of. -/
def compileTime (asOf : Option String) (events : List SuppliedEvent) : Value :=
  (events.getLast?.map (timeOf asOf)).getD .null

/-- The candidates that the events of a batch give. -/
def gathered (self : SemanticCompiler) (projectId : String) (authorized : Bool) (time : Value)
    (events : List SuppliedEvent) : Except Exn (List SemanticEntityCandidate) :=
  (events.zipIdx.foldlM (Compilation.step self projectId authorized time) {}).map
    Compilation.candidates

/-- What a batch returns of the candidates its events contribute. -/
def returned (new prior existing : List SemanticEntityCandidate) (time : Value) :
    Except Exn (List SemanticEntityCandidate) := do
  let (deduped, _) ← deduplicateCandidates new prior
  let _ ← detectContradictions deduped existing time
  return (validateCandidates deduped).1

/-- An accepted batch returns what its contributions are merged into. -/
theorem compileEvents_accepted {first last : SuppliedEvent} {events : List SuppliedEvent}
    {existing prior candidates : List SemanticEntityCandidate} {asOf : Option String}
    {receipt : Option TrustedReplayReceipt} {vaultRoot : Option Vault}
    (hfirst : events.head? = some first) (hlast : events.getLast? = some last)
    (hproject : validatedProjectId (first.projectId self.fallbackProjectId) = .ok projectId)
    (haccepted : Accepted projectId none events)
    (hauthorized : canonicalReplayMatches events projectId receipt vaultRoot = authorized)
    (hprior : existingForMerge authorized existing = .ok prior) :
    (∃ result, self.compileEvents events existing asOf receipt vaultRoot = .ok result ∧
        result.projectId = projectId ∧ result.candidates = candidates) ↔
      returned (events.zipIdx.flatMap (contributed self authorized (timeOf asOf last))) prior
        existing (timeOf asOf last) = .ok candidates := by
  have hall : Accepted projectId ({} : Compilation).prevEventDict (events.zipIdx.map Prod.fst) := by
    rwa [List.zipIdx_map_fst]
  obtain ⟨st, hst, hgathered⟩ :=
    @gathered_accepted _ _ _ _ _ self projectId authorized (timeOf asOf last) _ _ hall
  have hcontext : batchContext self first last events asOf receipt vaultRoot =
      .ok (projectId, authorized, timeOf asOf last) :=
    bind_eq_ok.mpr ⟨projectId, hproject, by rw [hauthorized]; rfl⟩
  rw [show ({} : Compilation).candidates = [] from rfl, List.nil_append] at hgathered
  rw [← hgathered]
  unfold SemanticCompiler.compileEvents returned
  rw [hfirst, hlast]
  constructor
  · rintro ⟨result, h, -, rfl⟩
    obtain ⟨_, hcontext', h⟩ := bind_eq_ok.mp h
    rw [hcontext] at hcontext'
    cases hcontext'
    obtain ⟨_, hst', h⟩ := bind_eq_ok.mp h
    rw [hst] at hst'
    cases hst'
    obtain ⟨_, hprior', h⟩ := bind_eq_ok.mp h
    rw [hprior] at hprior'
    cases hprior'
    obtain ⟨⟨deduped, count⟩, hdeduped, h⟩ := bind_eq_ok.mp h
    obtain ⟨proposals, hproposals, h⟩ := bind_eq_ok.mp h
    cases h
    exact bind_eq_ok.mpr ⟨_, hdeduped, bind_eq_ok.mpr ⟨proposals, hproposals, rfl⟩⟩
  · intro h
    obtain ⟨⟨deduped, count⟩, hdeduped, h⟩ := bind_eq_ok.mp h
    obtain ⟨proposals, hproposals, h⟩ := bind_eq_ok.mp h
    cases h
    exact ⟨_, bind_eq_ok.mpr ⟨_, hcontext, bind_eq_ok.mpr ⟨st, hst, bind_eq_ok.mpr ⟨prior, hprior,
      bind_eq_ok.mpr ⟨_, hdeduped, bind_eq_ok.mpr ⟨proposals, hproposals, rfl⟩⟩⟩⟩⟩, rfl, rfl⟩

end

/-! ## Events of the ledger -/

/-- The head of the ledger after the event before. -/
def Precedes (prev : Option Dict) (head : Head) : Prop :=
  ∀ d, prev = some d → ∃ event : ProjectEvent, d = event.modelDump ∧
    head.sequence = event.sequence + 1 ∧ head.prevHash = event.eventHash

theorem digestRefusal_sealed {event : ProjectEvent} (h : event.Sealed) (eventId : String) :
    digestRefusal eventId event.modelDump = .ok none := by
  have hpayload : sha256Canonical (getItemD event.modelDump "payload" (.dict [])) =
      .ok event.payloadDigest := h.payload
  have hdigest : (getItem event.modelDump "payload_digest").isText event.payloadDigest = true :=
    decide_eq_true rfl
  have hhash : (getItem event.modelDump "event_hash").isText event.eventHash = true :=
    decide_eq_true rfl
  refine bind_eq_ok.mpr ⟨_, hpayload, ?_⟩
  rw [if_neg (by rw [hdigest]; decide)]
  refine bind_eq_ok.mpr ⟨_, h.envelope, ?_⟩
  rw [if_neg (by rw [hhash]; decide)]
  rfl

theorem linkRefusal_next {event next : ProjectEvent} (hsequence : next.sequence = event.sequence + 1)
    (hlink : next.prevEventHash = event.eventHash) (eventId : String) :
    linkRefusal eventId event.modelDump next.modelDump = .ok none := by
  have hlater : Value.le (getItemD next.modelDump "sequence" (.int 0))
      (getItemD event.modelDump "sequence" (.int 0)) = .ok false := by
    change Value.le (.int next.sequence) (.int event.sequence) = _
    rw [le_int, hsequence]
    exact congrArg Except.ok (decide_eq_false (by omega))
  have hnext : (getItemD event.modelDump "sequence" (.int 0)).succ =
      .ok (.int (event.sequence + 1)) := rfl
  have hsame : Value.same (getItemD next.modelDump "sequence" (.int 0))
      (.int (event.sequence + 1)) = true := by
    change Value.same (.int next.sequence) _ = true
    rw [same_int, hsequence]
    exact decide_eq_true (Nat.cast_succ event.sequence)
  have hhash : (getItem next.modelDump "prev_event_hash").same
      (getItem event.modelDump "event_hash") = true := by
    change Value.same (.str next.prevEventHash) (.str event.eventHash) = true
    rw [same_str]
    exact decide_eq_true hlink
  refine bind_eq_ok.mpr ⟨_, hlater, ?_⟩
  refine bind_eq_ok.mpr ⟨_, hnext, ?_⟩
  rw [if_neg (by rw [hsame]; decide), if_neg (by rw [hhash]; decide)]
  rfl

/-- A sealed event that continues the ledger is read. -/
theorem refusal_of_fits {projectId : String} {head : Head} {event : ProjectEvent}
    {prev : Option Dict} (h : Fits projectId head event) (hprev : Precedes prev head)
    (hid : event.eventId ≠ "") : refusal projectId prev (.instance event) = .ok none := by
  have htruthy : (getItemD (SuppliedEvent.instance event).toDict "event_id" (.str "")).truthy =
      true := by
    change (event.eventId != "") = true
    exact bne_iff_ne.mpr hid
  have hproject : (getItem (SuppliedEvent.instance event).toDict "project_id").isText projectId =
      true := decide_eq_true h.project
  have hschema : (getItem (SuppliedEvent.instance event).toDict "schema_version").isText
      schemaVersion = true := decide_eq_true (rfl : schemaVersion = schemaVersion)
  unfold refusal
  dsimp only
  rw [if_neg (by rw [htruthy]; decide), if_neg (by rw [hproject]; decide)]
  dsimp only [SuppliedEvent.validated]
  rw [if_neg (by rw [hschema]; decide)]
  refine bind_eq_ok.mpr ⟨none, digestRefusal_sealed h.sealed _, ?_⟩
  cases hd : prev with
  | none => rfl
  | some d =>
      obtain ⟨before, rfl, hsequence, hhash⟩ := hprev d hd
      exact linkRefusal_next (h.sequence.trans hsequence) (h.link.trans hhash) _

/-- The events of a verified ledger are an accepted batch. -/
theorem accepted_chain {projectId : String} {head : Head} {events : List ProjectEvent}
    {prev : Option Dict} (h : Chain projectId head events) (hprev : Precedes prev head)
    (hids : ∀ event ∈ events, event.eventId ≠ "") :
    Accepted projectId prev (events.map .instance) := by
  induction events generalizing head prev with
  | nil => exact trivial
  | cons event events ih =>
      obtain ⟨hfits, hrest⟩ := h
      refine ⟨refusal_of_fits hfits hprev (hids event List.mem_cons_self), ih hrest ?_ ?_⟩
      · intro d hd
        cases hd
        exact ⟨event, rfl, rfl, rfl⟩
      · exact fun other hother => hids other (List.mem_cons_of_mem event hother)

/-- The receipt that the replay of a whole ledger gives. -/
def receiptOf (projectId ledgerPath : String) (events : List ProjectEvent) : TrustedReplayReceipt where
  projectId := projectId
  ledgerPath := ledgerPath
  fromSequence := 1
  toSequence := max ((events.getLast?.map (·.sequence)).getD 1) 1
  eventCount := events.length
  headEventHash := (events.getLast?.map (·.eventHash)).getD ""
  verified := true

/-- The vault of one ledger, at a path that resolves to itself. -/
def vaultOf (ledgerPath : String) (dir : ProjectDir) : Vault where
  store _ := .ok dir
  activeEventsFile _ := ledgerPath
  resolve := .ok

theorem mapM_instance (events : List ProjectEvent) :
    (events.map SuppliedEvent.instance).mapM SuppliedEvent.validated = .ok events := by
  induction events with
  | nil => rfl
  | cons event events ih =>
      rw [List.map_cons, List.mapM_cons, ih]
      rfl

/-- The events of a verified ledger with its receipt are authorised. -/
theorem authorised_chain {projectId ledgerPath : String} {dir : ProjectDir}
    {events : List ProjectEvent} (h : Verified projectId dir events) (hne : events ≠ [])
    (hsame : sameList (identity events) (identity events) = true) :
    canonicalReplayMatches (events.map .instance) projectId
      (some (receiptOf projectId ledgerPath events)) (some (vaultOf ledgerPath dir)) = true := by
  obtain ⟨first, rest, rfl⟩ := List.exists_cons_of_ne_nil hne
  obtain ⟨last, hlast⟩ := Option.isSome_iff_exists.mp
    (List.getLast?_isSome.mpr (List.cons_ne_nil first rest))
  have hall := h.2.numbered
  have hfirst : first.sequence = 1 := h.2.1.sequence
  have hpos : 1 ≤ last.sequence := (hall last (List.mem_of_getLast? hlast)).2
  have hreceipt : receiptOf projectId ledgerPath (first :: rest) =
      ⟨projectId, ledgerPath, 1, last.sequence, (first :: rest).length, last.eventHash, true⟩ := by
    rw [receiptOf, hlast]
    simp [hpos]
  have hreplay : readVerifiedReplay projectId ledgerPath dir 1 =
      .ok (receiptOf projectId ledgerPath (first :: rest), first :: rest) := by
    have hvalid := verify_valid.mpr ⟨_, h⟩
    refine bind_eq_ok.mpr ⟨⟨⟩, raiseIf_eq_ok.mpr (by simp [hvalid]), ?_⟩
    exact bind_eq_ok.mpr ⟨_, h.1, rfl⟩
  have hproject : (first :: rest).any (·.projectId ≠ projectId) = false := by
    rw [List.any_eq_false]
    intro event hevent
    simp [(hall event hevent).1]
  have hmatches : matchesLedger (first :: rest) projectId
      (receiptOf projectId ledgerPath (first :: rest)) (vaultOf ledgerPath dir) = .ok true := by
    unfold matchesLedger
    rw [List.head?_cons, hlast]
    dsimp only
    rw [if_neg (by rw [hreceipt, hproject]; simp [hfirst])]
    refine bind_eq_ok.mpr ⟨dir, rfl, bind_eq_ok.mpr ⟨ledgerPath, by rw [hreceipt]; rfl, ?_⟩⟩
    rw [if_neg (by simp [vaultOf])]
    refine bind_eq_ok.mpr ⟨_, by rw [hreceipt] at hreplay ⊢; exact hreplay, ?_⟩
    dsimp only
    rw [if_neg (by simp [hreceipt]), hsame]
    rfl
  have hbatch : (((first :: rest).map SuppliedEvent.instance).mapM SuppliedEvent.validated >>= fun supplied =>
      matchesLedger supplied projectId (receiptOf projectId ledgerPath (first :: rest))
        (vaultOf ledgerPath dir)) = .ok true := bind_eq_ok.mpr ⟨_, mapM_instance _, hmatches⟩
  rw [canonicalReplayMatches, hbatch]
  rfl

end PowerFramework.Semantic
