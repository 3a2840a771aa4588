import PowerFramework.Lib.Crash
import PowerFramework.Ledger.Verify
/-!
# Torn tails

`recover_torn_tail` as the file-system steps it takes on the active file.  A process killed
between the truncating open and the write of the kept records leaves an empty file; at every
other point the file still starts with all newline-terminated records.
-/

namespace PowerFramework.Ledger

open Lib Lib.Failure Lib.Lines Lib.Crash

def newline : UInt8 := 10

def carriageReturn : UInt8 := 13

/-- `content[:valid_len]`, the newline-terminated records. -/
def keptBytes (content : List UInt8) : List UInt8 := kept newline content

/-- The bytes behind the last newline. -/
def tornBytes (content : List UInt8) : List UInt8 := tail newline content

/-- A file-system step of the repair: the open with `O_TRUNC`, a write, the fsync. -/
inductive RepairStep where
  | truncate
  | write (data : List UInt8)
  | fsync
  deriving DecidableEq

def RepairStep.apply : RepairStep → List UInt8 → List UInt8
  | .truncate, _ => []
  | .write data, content => content ++ data
  | .fsync, content => content

/-- The steps that cut an unterminated tail. -/
def repairSteps (content : List UInt8) : List RepairStep :=
  [.truncate] ++ (if keptBytes content = [] then [] else [.write (keptBytes content)]) ++ [.fsync]

/-- The whitespace of `bytes.strip()`. -/
def isByteSpace (b : UInt8) : Bool := (9 ≤ b && b ≤ 13) || b == 32

/-- `[ln for ln in content.splitlines() if ln.strip()]` -/
def recordLines (content : List UInt8) : List (List UInt8) :=
  (universalLines newline carriageReturn content).filter fun line => line.any (!isByteSpace ·)

def integrityError (message : String) : Exn := ⟨"LedgerIntegrityError", message⟩

section
variable [LaxInt]

def parseLine (line : List UInt8) (context : String) : Except Exn ProjectEvent :=
  match parseRecord (strip (Utf8.decodeReplace line)) with
  | .ok event => .ok event
  | .error exn => .error (integrityError (context ++ exn.message))

/-- The checks on a file whose records are complete: the last two of them. -/
def checkLastRecords (content : List UInt8) : Except Exn PUnit :=
  match (recordLines content).reverse with
  | [] => .ok ⟨⟩
  | last :: earlier => do
      let event ← parseLine last "Corruption detected in complete record: "
      let payloadDigest ← computePayloadDigest event.payload
      raiseIf (event.payloadDigest ≠ payloadDigest) (integrityError
        ("Corruption detected in complete record (payload digest mismatch): " ++
          event.payloadDigest ++ " != " ++ payloadDigest))
      let eventHash ← computeEventHash event.modelDump
      raiseIf (event.eventHash ≠ eventHash) (integrityError
        ("Corruption detected in complete record (event hash mismatch): " ++
          event.eventHash ++ " != " ++ eventHash))
      match earlier with
      | [] => return ⟨⟩
      | prev :: _ =>
          let prevEvent ← parseLine prev "Corruption detected in preceding complete record: "
          raiseIf (event.sequence ≠ prevEvent.sequence + 1) (integrityError
            ("Corruption detected in complete record (broken sequence: " ++
              toString event.sequence ++ " != " ++ toString (prevEvent.sequence + 1) ++ ")"))
          raiseIf (event.prevEventHash ≠ prevEvent.eventHash) (integrityError
            "Corruption detected in complete record (broken prev_event_hash)")

/-- The steps `recover_torn_tail` takes on a file with this content. -/
def recoverSteps (content : List UInt8) : Except Exn (List RepairStep) := do
  if tornBytes content = [] then
    checkLastRecords content
    return []
  else return repairSteps content

/-- The number of bytes cut, and what the file then holds. -/
def recoverTornTail (content : List UInt8) : Except Exn (Nat × List UInt8) := do
  let steps ← recoverSteps content
  return ((tornBytes content).length, runOps RepairStep.apply steps content)

/-- The file after a recovery, whether it returns or raises: a file that it refuses is not
touched. -/
def recoveredFile (content : List UInt8) : List UInt8 :=
  match recoverTornTail content with
  | .ok (_, content) => content
  | .error _ => content

section
omit [LaxInt]

theorem runOps_repairSteps (content : List UInt8) :
    runOps RepairStep.apply (repairSteps content) content = keptBytes content := by
  unfold repairSteps
  split_ifs with hkept
  · rw [hkept]
    rfl
  · rfl

theorem kept_append_torn (content : List UInt8) : keptBytes content ++ tornBytes content = content :=
  kept_append_tail _ content

theorem keptBytes_kept (content : List UInt8) : keptBytes (keptBytes content) = keptBytes content :=
  kept_eq_self (terminated_kept content)

theorem tornBytes_kept (content : List UInt8) : tornBytes (keptBytes content) = [] :=
  tail_eq_nil (terminated_kept content)

theorem kept_of_torn {content : List UInt8} (h : tornBytes content = []) :
    keptBytes content = content := by
  have hsplit := kept_append_torn content
  rwa [h, List.append_nil] at hsplit

/-- A text file is cut at the last newline of its text. -/
theorem keptBytes_encode (text : List Char) :
    keptBytes (Utf8.encode text) = Utf8.encode (kept '\n' text) ∧
      tornBytes (Utf8.encode text) = Utf8.encode (tail '\n' text) := by
  have hterm : Terminated newline (Utf8.encode (kept '\n' text)) := by
    rcases @terminated_kept _ _ '\n' text with hnil | ⟨front, hfront⟩
    · exact Or.inl (by rw [hnil]; rfl)
    · exact Or.inr ⟨Utf8.encode front, by rw [hfront, Utf8.encode_append]; rfl⟩
  have hfree : newline ∉ Utf8.encode (tail '\n' text) := by
    intro hmem
    obtain ⟨c, hc, heq⟩ := (Utf8.mem_encode_ascii (by decide)).mp hmem
    have hlf : c = '\n' := Char.toNat_inj.mp (by rw [heq]; rfl)
    exact notMem_tail text (hlf ▸ hc)
  have hsplit : Utf8.encode (kept '\n' text) ++ Utf8.encode (tail '\n' text) = Utf8.encode text := by
    rw [← Utf8.encode_append, kept_append_tail]
  have hkept : keptBytes (Utf8.encode text) = Utf8.encode (kept '\n' text) := by
    rw [← hsplit]
    exact kept_append hterm hfree
  refine ⟨hkept, ?_⟩
  have hwhole := kept_append_torn (Utf8.encode text)
  rw [hkept] at hwhole
  exact List.append_cancel_left (hwhole.trans hsplit.symm)

end

/-- A recovery leaves the newline-terminated records. -/
theorem recoveredFile_eq (content : List UInt8) : recoveredFile content = keptBytes content := by
  unfold recoveredFile recoverTornTail recoverSteps
  by_cases htorn : tornBytes content = []
  · simp only [if_pos htorn, kept_of_torn htorn]
    cases checkLastRecords content <;> rfl
  · rw [if_neg htorn]
    exact runOps_repairSteps content

theorem recoverTornTail_ok {content : List UInt8} {cut : Nat} {content' : List UInt8}
    (h : recoverTornTail content = .ok (cut, content')) : content' = keptBytes content := by
  rw [← recoveredFile_eq, recoveredFile, h]

omit [LaxInt] in
theorem prefix_repairSteps {content : List UInt8} {done : List RepairStep}
    (h : done <+: repairSteps content) :
    done = [] ∨ done = [.truncate] ∨ runOps RepairStep.apply done content = keptBytes content := by
  rcases prefix_append_cases h with hfront | ⟨rest, hrest, rfl⟩
  · rcases prefix_append_cases hfront with hopen | ⟨written, hwritten, rfl⟩
    · rcases List.prefix_cons_iff.mp hopen with rfl | ⟨rest, rfl, hrest⟩
      · exact Or.inl rfl
      · rw [List.prefix_nil.mp hrest]
        exact Or.inr (Or.inl rfl)
    · refine Or.inr ?_
      split_ifs at hwritten with hkept
      · rw [List.prefix_nil.mp hwritten]
        exact Or.inl rfl
      · rcases List.prefix_cons_iff.mp hwritten with rfl | ⟨rest, rfl, hrest⟩
        · exact Or.inl rfl
        · rw [List.prefix_nil.mp hrest]
          exact Or.inr rfl
  · have hfsync : ∀ t, runOps RepairStep.apply rest t = t := by
      intro t
      rcases List.prefix_cons_iff.mp hrest with rfl | ⟨done, rfl, hdone⟩
      · rfl
      · rw [List.prefix_nil.mp hdone]
        rfl
    refine Or.inr (Or.inr ?_)
    have hwhole := runOps_repairSteps content
    rw [repairSteps, runOps_append] at hwhole
    rw [runOps_append, hfsync]
    exact hwhole

/-- A recovery killed after some of its steps keeps every newline-terminated record, and the next
recovery ends with exactly these, unless it was killed right after the truncating open of a file
that has such records. -/
theorem recover_killed {content : List UInt8} {steps done : List RepairStep}
    (hsteps : recoverSteps content = .ok steps) (hdone : done <+: steps) :
    (keptBytes content <+: runOps RepairStep.apply done content ∧
      recoveredFile (runOps RepairStep.apply done content) = keptBytes content) ↔
    (done = [.truncate] → keptBytes content = []) := by
  have hstart : keptBytes content <+: content := ⟨tornBytes content, kept_append_torn content⟩
  rw [recoveredFile_eq]
  constructor
  · rintro ⟨hpre, -⟩ rfl
    exact List.prefix_nil.mp hpre
  · intro hcond
    unfold recoverSteps at hsteps
    split_ifs at hsteps with htorn
    · obtain ⟨-, -, hsteps⟩ := bind_eq_ok.mp hsteps
      cases hsteps
      rw [List.prefix_nil.mp hdone]
      exact ⟨hstart, rfl⟩
    · cases hsteps
      rcases prefix_repairSteps hdone with rfl | rfl | hrun
      · exact ⟨hstart, rfl⟩
      · rw [hcond rfl]
        exact ⟨List.nil_prefix, rfl⟩
      · rw [hrun]
        exact ⟨List.prefix_rfl, keptBytes_kept content⟩

end

attribute [local instance] LaxInt.intOnly

/-- Killed after the write, a recovery of the record `{}` and a torn `{` has kept the record. -/
theorem recover_killed_sample :
    keptBytes [123, 125, 10, 123] <+:
        runOps RepairStep.apply [.truncate, .write [123, 125, 10]] [123, 125, 10, 123] ∧
      recoveredFile (runOps RepairStep.apply [.truncate, .write [123, 125, 10]]
        [123, 125, 10, 123]) = keptBytes [123, 125, 10, 123] :=
  (recover_killed (rfl : recoverSteps [123, 125, 10, 123] = .ok [.truncate, .write [123, 125, 10], .fsync])
    (by decide)).mpr (by decide)

/-- Killed right after the truncating open, it has lost it. -/
theorem recover_killed_loses :
    ∃ steps, recoverSteps [123, 125, 10, 123] = .ok steps ∧ [RepairStep.truncate] <+: steps ∧
      ¬ (keptBytes [123, 125, 10, 123] <+:
          runOps RepairStep.apply [.truncate] [123, 125, 10, 123] ∧
        recoveredFile (runOps RepairStep.apply [.truncate] [123, 125, 10, 123]) =
          keptBytes [123, 125, 10, 123]) :=
  ⟨_, rfl, by decide, fun h => absurd h.1 (by decide)⟩

end PowerFramework.Ledger
