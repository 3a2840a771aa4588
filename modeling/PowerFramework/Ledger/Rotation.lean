import PowerFramework.Ledger.AppendIntegrity
import PowerFramework.Lib.Padded
/-!
# Rotating the active file

`rotate` renames the active file to the next partition and starts an empty one.  In every run of
calls, rotations and torn writes the committed events, those on lines that end, only grow at their
end (`committed_run`).  A torn line that is rotated is never repaired (`rotate_torn_locked`).
-/

namespace PowerFramework.Ledger

open Lib Lib.Failure Lib.Json Lib.Lines Lib.Padded

/-! ## The rotation -/

def fileExistsError (name : String) : Exn :=
  ⟨"FileExistsError", "Target archive file already exists: " ++ name⟩

/-- The first partition whose index is not the next number, with that number. -/
def gapIn (indices : List Nat) : Option (Nat × Nat) :=
  (indices.zipIdx 1).find? fun found => found.1 ≠ found.2

/-- The checks on a name that the caller gives. -/
def checkArchiveName (expected : String) : Option String → Except Exn PUnit
  | none => return ⟨⟩
  | some name => do
      raiseIf (isRotation name = false) (valueError ("Invalid archive_name '" ++ name ++
        "'. Only store-generated format 'events_XXXXXX.jsonl' is allowed."))
      raiseIf (name ≠ expected) (valueError ("Invalid archive_name '" ++ name ++
        "': partition index must be sequential without gaps. Expected '" ++ expected ++ "'."))

/-- `rotate` -/
def rotate (dir : ProjectDir) (archiveName : Option String) :
    Except Exn (Option String × ProjectDir) := do
  let content := readFile dir activeEventsFile
  if content = [] then return (none, dir)
  else
    let indices := (rotatedFiles dir).map partitionIndex
    match gapIn indices with
    | some (actual, expected) =>
        .error (valueError ("Existing rotated partitions are gapped or non-sequential: found " ++
          toString actual ++ ", expected " ++ toString expected))
    | none => do
        let archive := rotationName (indices.foldl max 0 + 1)
        checkArchiveName archive archiveName
        raiseIf (archive ∈ dir) (fileExistsError archive)
        return (some archive,
          ((dir.erase activeEventsFile).insert archive content).insert activeEventsFile [])

/-! ## The next partition -/

theorem rotationName_eq (index : Nat) : rotationName index =
    String.ofList ("events_".toList ++ (zeroPad 6 index ++ ".jsonl".toList)) := by
  unfold rotationName zeroPad List.leftpad
  simp only [List.append_assoc]

theorem drop_stem (rest : List Char) : ("events_".toList ++ rest).drop 7 = rest :=
  List.drop_left' rfl

theorem isRotation_rotationName (index : Nat) :
    isRotation (rotationName index) = true ↔ index < 10 ^ 6 := by
  have hdigits : ∀ c ∈ zeroPad 6 index, Text.isDigit c = true := by
    intro c hc
    have hdigit := isDigit_of_mem_zeroPad hc
    simp only [Char.isDigit, Bool.and_eq_true, decide_eq_true_eq] at hdigit
    exact Bool.and_eq_true_iff.mpr ⟨decide_eq_true hdigit.1, decide_eq_true hdigit.2⟩
  have hlast : ("events_".toList ++ (zeroPad 6 index ++ ".jsonl".toList)).getLast? = some 'l' := by
    rw [← List.append_assoc, List.getLast?_append_of_ne_nil _ (by decide)]
    decide
  have hbehind : ∀ rest, ("events_".toList ++ rest).drop 13 = rest.drop 6 := by
    intro rest
    rw [← drop_stem rest, List.drop_drop, drop_stem]
  rw [isRotation, rotationName_eq, String.toList_ofList, hlast,
    ← length_zeroPad_eq (by decide), rotationBody]
  simp only [drop_stem, hbehind]
  constructor
  · intro h
    simp only [Bool.or_eq_true, Bool.and_eq_true, beq_iff_eq] at h
    obtain ⟨⟨⟨-, htake⟩, -⟩, hsuffix⟩ := h.resolve_right (by simp)
    have hlength := congrArg List.length hsuffix
    have hsix : ".jsonl".toList.length = 6 := rfl
    rw [List.length_drop, List.length_append, hsix] at hlength
    rw [List.length_take, List.length_append, hsix] at htake
    omega
  · intro hlength
    rw [List.take_left' hlength, List.drop_left' hlength, hlength, List.all_eq_true.mpr hdigits]
    simp

theorem partitionIndex_rotationName {index : Nat} (h : index < 10 ^ 6) :
    partitionIndex (rotationName index) = index := by
  have hlength := (length_zeroPad_eq (by decide : 0 < 6) index).mpr h
  rw [partitionIndex, rotationName_eq, String.toList_ofList, drop_stem, List.take_left' hlength,
    ofDigitChars_zeroPad]

theorem rotationName_ne_active (index : Nat) : rotationName index ≠ activeEventsFile := by
  intro h
  rw [rotationName_eq] at h
  have hchars := congrArg (fun text : String => text.toList[6]?) h
  simp only [String.toList_ofList] at hchars
  exact absurd hchars (by simp [activeEventsFile])

/-- Without a gap the indices are the numbers from one. -/
theorem gapIn_eq_none {indices : List Nat} :
    gapIn indices = none ↔ indices = List.range' 1 indices.length := by
  have hstart : ∀ start, (indices.zipIdx start).find? (fun found => found.1 ≠ found.2) = none ↔
      indices = List.range' start indices.length := by
    induction indices with
    | nil => simp
    | cons index indices ih =>
      intro start
      rw [List.zipIdx_cons, List.find?_cons, List.length_cons, List.range'_succ, List.cons.injEq,
        ← ih (start + 1)]
      by_cases heq : index = start
      · simp [heq]
      · simp [heq]
  exact hstart 1

theorem foldl_max_range' (n : Nat) : (List.range' 1 n).foldl max 0 = n := by
  induction n with
  | zero => rfl
  | succ n ih =>
    rw [List.range'_concat, List.foldl_append, ih]
    simp
    omega

/-- A rotation of nothing leaves the directory as it is. -/
theorem rotate_none {dir dir' : ProjectDir} {archiveName : Option String}
    (h : rotate dir archiveName = .ok (none, dir')) : dir' = dir := by
  unfold rotate at h
  dsimp only at h
  split_ifs at h
  · cases h
    rfl
  · split at h
    · cases h
    · obtain ⟨-, -, h⟩ := bind_eq_ok.mp h
      obtain ⟨-, -, h⟩ := bind_eq_ok.mp h
      cases h

/-- What a rotation has done. -/
theorem rotate_ok {dir dir' : ProjectDir} {archiveName : Option String} {archive : String}
    (h : rotate dir archiveName = .ok (some archive, dir')) :
    archive = rotationName ((rotatedFiles dir).length + 1) ∧ archive ∉ dir ∧
      (rotatedFiles dir).map partitionIndex = List.range' 1 (rotatedFiles dir).length ∧
      dir' = ((dir.erase activeEventsFile).insert archive
        (readFile dir activeEventsFile)).insert activeEventsFile [] := by
  unfold rotate at h
  dsimp only at h
  split_ifs at h with hempty
  · cases h
  cases hgap : gapIn ((rotatedFiles dir).map partitionIndex) with
  | some found =>
    rw [hgap] at h
    cases h
  | none =>
    rw [hgap] at h
    have hindices := gapIn_eq_none.mp hgap
    rw [List.length_map] at hindices
    obtain ⟨-, -, h⟩ := bind_eq_ok.mp h
    obtain ⟨⟨⟩, hnew, h⟩ := bind_eq_ok.mp h
    rw [hindices, foldl_max_range'] at h hnew
    obtain ⟨harchive, hdir⟩ := Prod.mk.inj (Except.ok.inj h)
    rw [Option.some.inj harchive] at hnew hdir
    exact ⟨(Option.some.inj harchive).symm, raiseIf_eq_ok.mp hnew, hindices, hdir.symm⟩

theorem sorted_mergeSort (names : List String) :
    (names.mergeSort fun a b => partitionIndex a ≤ partitionIndex b).Pairwise fun a b =>
      partitionIndex a ≤ partitionIndex b := by
  have hsorted := @List.pairwise_mergeSort String (fun a b => partitionIndex a ≤ partitionIndex b)
    (fun a b c hab hbc => ?_) (fun a b => ?_) names
  · simpa using hsorted
  · simp only [decide_eq_true_eq] at hab hbc ⊢
    exact hab.trans hbc
  · simp only [Bool.or_eq_true, decide_eq_true_eq]
    exact Nat.le_total _ _

/-- The active file is none of the partitions. -/
theorem rotatedKeys_erase (dir : ProjectDir) :
    (dir.erase activeEventsFile).keys.filter isRotation = dir.keys.filter isRotation := by
  rw [AList.keys_erase]
  generalize dir.keys = keys
  induction keys with
  | nil => rfl
  | cons key keys ih =>
    by_cases hkey : key = activeEventsFile
    · rw [hkey, List.erase_cons_head, List.filter_cons_of_neg (by rw [isRotation_active]; decide)]
    · rw [List.erase_cons_tail (by simpa using hkey), List.filter_cons, List.filter_cons, ih]

/-- The partitions behind a rotation are those before it and the new one, as long as its name is
one of a partition. -/
theorem rotatedFiles_rotate {dir dir' : ProjectDir} {archiveName : Option String} {archive : String}
    (h : rotate dir archiveName = .ok (some archive, dir')) :
    rotatedFiles dir' =
      rotatedFiles dir ++ if (rotatedFiles dir).length + 1 < 10 ^ 6 then [archive] else [] := by
  obtain ⟨rfl, hnew, hindices, rfl⟩ := rotate_ok h
  set archive := rotationName ((rotatedFiles dir).length + 1) with harchive
  have hne : archive ≠ activeEventsFile := rotationName_ne_active _
  rw [rotatedFiles_insert]
  have hkeys : ((dir.erase activeEventsFile).insert archive
      (readFile dir activeEventsFile)).keys.filter isRotation =
        (if isRotation archive then [archive] else []) ++ dir.keys.filter isRotation := by
    rw [AList.keys_insert, AList.keys_erase, List.erase_of_not_mem, List.filter_cons]
    · have herase := rotatedKeys_erase dir
      rw [AList.keys_erase] at herase
      rw [herase]
      split_ifs <;> rfl
    · intro hmem
      exact hnew (AList.mem_keys.mpr (List.mem_of_mem_erase hmem))
  have hbelow : ∀ name ∈ dir.keys.filter isRotation,
      partitionIndex name ≤ (rotatedFiles dir).length := by
    intro name hname
    have hindex : partitionIndex name ∈ (rotatedFiles dir).map partitionIndex :=
      List.mem_map_of_mem (List.mem_mergeSort.mpr hname)
    rw [hindices, List.mem_range'_1] at hindex
    omega
  conv_lhs => rw [rotatedFiles, hkeys]
  by_cases hfits : (rotatedFiles dir).length + 1 < 10 ^ 6
  · rw [if_pos ((isRotation_rotationName _).mpr hfits), if_pos hfits]
    have hindex : partitionIndex archive = (rotatedFiles dir).length + 1 :=
      partitionIndex_rotationName hfits
    refine @List.Perm.eq_of_pairwise _ (fun a b => partitionIndex a ≤ partitionIndex b) _ _ ?_
      (sorted_mergeSort _) ?_ ?_
    · intro a b ha hb hab hba
      have hsame : partitionIndex a = partitionIndex b := Nat.le_antisymm hab hba
      have hnodup : ((rotatedFiles dir).map partitionIndex).Nodup := by
        rw [hindices]
        exact List.nodup_range'
      have ha : a = archive ∨ a ∈ rotatedFiles dir := by
        rw [List.mem_mergeSort, List.mem_append, List.mem_singleton] at ha
        exact ha.imp_right List.mem_mergeSort.mpr
      have hb : b ∈ rotatedFiles dir ∨ b = archive := by
        rwa [List.mem_append, List.mem_singleton] at hb
      have hlow : ∀ name ∈ rotatedFiles dir, partitionIndex name ≠ partitionIndex archive := by
        intro name hname
        have := hbelow name (List.mem_mergeSort.mp hname)
        omega
      rcases ha with rfl | ha <;> rcases hb with hb | rfl
      · exact absurd hsame.symm (hlow b hb)
      · rfl
      · exact List.inj_on_of_nodup_map hnodup ha hb hsame
      · exact absurd hsame (hlow a ha)
    · rw [List.pairwise_append]
      refine ⟨sorted_mergeSort _, List.pairwise_singleton _ _, fun name hname other hother => ?_⟩
      rw [List.mem_singleton.mp hother, hindex]
      have hlow := hbelow name (List.mem_mergeSort.mp hname)
      omega
    · exact (List.mergeSort_perm _ _).trans
        (List.perm_append_comm.trans ((List.mergeSort_perm _ _).symm.append_right _))
  · rw [if_neg fun hrotation => hfits ((isRotation_rotationName _).mp hrotation), if_neg hfits,
      List.nil_append, List.append_nil]
    rfl

section
variable [LaxInt] {projectId : String} {dir dir' : ProjectDir} {events : List ProjectEvent}

/-! ## What a rotation does to the events -/

omit [LaxInt] in
theorem readFile_archive {archive : String} {archiveName : Option String}
    (h : rotate dir archiveName = .ok (some archive, dir')) :
    readFile dir' archive = readFile dir activeEventsFile ∧
      readFile dir' activeEventsFile = [] ∧
      ∀ name ∈ rotatedFiles dir, readFile dir' name = readFile dir name := by
  obtain ⟨rfl, hnew, -, rfl⟩ := rotate_ok h
  have hne := rotationName_ne_active ((rotatedFiles dir).length + 1)
  refine ⟨?_, readFile_insert _ _, fun name hname => ?_⟩
  · rw [readFile_insert_ne _ _ hne, readFile, AList.lookup_insert]
    rfl
  · have hactive := ne_active_of_mem_rotated hname
    have hother : name ≠ rotationName ((rotatedFiles dir).length + 1) := by
      rintro rfl
      have hmem := (List.mem_filter.mp (List.mem_mergeSort.mp hname)).1
      exact hnew (AList.mem_keys.mpr hmem)
    rw [readFile_insert_ne _ _ hactive, readFile, AList.lookup_insert_ne hother,
      AList.lookup_erase_ne hactive, readFile]

/-- Up to a million partitions a rotation moves the records of the active file behind the archived
ones. -/
theorem archivedEvents_rotate {archive : String} {archiveName : Option String}
    (h : rotate dir archiveName = .ok (some archive, dir')) :
    archivedEvents dir' =
      if (rotatedFiles dir).length + 1 < 10 ^ 6 then eventsOf dir else archivedEvents dir := by
  obtain ⟨harchive, -, hsame⟩ := readFile_archive h
  have hold : (rotatedFiles dir).mapM (fun name => replayFile (readFile dir' name)) =
      (rotatedFiles dir).mapM fun name => replayFile (readFile dir name) := by
    apply mapM_congr
    intro name hname
    rw [hsame name hname]
  rw [archivedEvents, rotatedFiles_rotate h]
  split_ifs
  · rw [List.mapM_append, hold, eventsOf_eq, archivedEvents]
    cases (rotatedFiles dir).mapM fun name => replayFile (readFile dir name) with
    | error exn => rfl
    | ok parts =>
      rw [List.mapM_cons, harchive]
      cases replayFile (readFile dir activeEventsFile) with
      | error exn => rfl
      | ok current =>
        show Except.ok (parts ++ [current]).flatten = Except.ok (parts.flatten ++ current)
        rw [List.flatten_append, List.flatten_singleton]
  · rw [List.append_nil, hold, archivedEvents]

theorem eventsOf_rotate {archive : String} {archiveName : Option String}
    (h : rotate dir archiveName = .ok (some archive, dir')) :
    eventsOf dir' = archivedEvents dir' := by
  rw [eventsOf_eq, (readFile_archive h).2.1]
  cases archivedEvents dir' with
  | error exn => rfl
  | ok old =>
    show Except.ok (old ++ []) = Except.ok old
    rw [List.append_nil]

/-- A readable ledger replays as before behind a rotation, exactly when its partitions can still be
counted in six digits or there was nothing to lose. -/
theorem replay_rotate_iff {archive : String} {archiveName : Option String}
    (hreplay : replay dir 1 = .ok events)
    (h : rotate dir archiveName = .ok (some archive, dir')) :
    replay dir' 1 = .ok events ↔ (rotatedFiles dir).length < 999999 ∨
      replayFile (readFile dir activeEventsFile) = .ok [] := by
  rw [replay_eq_eventsOf] at hreplay ⊢
  obtain ⟨old, current, hold, hcurrent, rfl⟩ := eventsOf_ok.mp hreplay
  rw [eventsOf_rotate h, archivedEvents_rotate h, hreplay, hold, hcurrent, Except.ok.injEq]
  by_cases hfits : (rotatedFiles dir).length + 1 < 10 ^ 6
  · rw [if_pos hfits]
    exact iff_of_true rfl (Or.inl (by omega))
  · rw [if_neg hfits, Except.ok.injEq, List.self_eq_append_right]
    exact (or_iff_right (by omega)).symm

/-! ## Committed events -/

/-- The records on the lines that end form the chain of these events. -/
def Committed (projectId : String) (dir : ProjectDir) (events : List ProjectEvent) : Prop :=
  Verified projectId (dir.insert activeEventsFile (keptBytes (readFile dir activeEventsFile))) events

theorem eventsOf_congr (harchived : archivedEvents dir' = archivedEvents dir)
    (hread : readFile dir' activeEventsFile = readFile dir activeEventsFile) :
    eventsOf dir' = eventsOf dir := by
  rw [eventsOf_eq, eventsOf_eq, harchived, hread]

theorem verified_congr (harchived : archivedEvents dir' = archivedEvents dir)
    (hread : readFile dir' activeEventsFile = readFile dir activeEventsFile) :
    Verified projectId dir' events ↔ Verified projectId dir events := by
  rw [Verified, Verified, replay_eq_eventsOf, replay_eq_eventsOf, eventsOf_congr harchived hread]

theorem committed_congr (harchived : archivedEvents dir' = archivedEvents dir)
    (hread : keptBytes (readFile dir' activeEventsFile) =
      keptBytes (readFile dir activeEventsFile)) :
    Committed projectId dir' events ↔ Committed projectId dir events := by
  apply verified_congr
  · rw [archivedEvents_insert, archivedEvents_insert, harchived]
  · rw [readFile_insert, readFile_insert, hread]

/-- Where no line is torn, what is committed is what is replayed. -/
theorem committed_iff (hterm : tornBytes (readFile dir activeEventsFile) = []) :
    Committed projectId dir events ↔ Verified projectId dir events := by
  apply verified_congr (archivedEvents_insert _ _)
  rw [readFile_insert, kept_of_torn hterm]

theorem committed_repaired (h : recoverDir dir = .ok dir') :
    Committed projectId dir' events ↔ Committed projectId dir events := by
  obtain ⟨harchived, hread, -⟩ := recoverDir_ok h
  apply committed_congr harchived
  rw [hread, keptBytes_kept]

theorem Committed.unique {a b : List ProjectEvent} (ha : Committed projectId dir a)
    (hb : Committed projectId dir b) : a = b := Verified.unique ha hb

/-- What a call leaves: the ledger as it was, repaired, or repaired and with one more line. -/
theorem Writer.run_cases (projectId : String) (writer : Writer) (draw : Draw)
    (cmd : AppendCommand) (dir : ProjectDir) :
    (writer.run projectId draw dir cmd.toCommandFields).1 = dir ∨
      ∃ repaired, recoverDir dir = .ok repaired ∧
        ((writer.run projectId draw dir cmd.toCommandFields).1 = repaired ∨
          cmd.projectId = projectId ∧ ∃ events event line, Verified projectId repaired events ∧
            (∀ other ∈ events, sameEvent cmd.toCommandFields other = false) ∧
            buildEvent projectId draw (cmd.withSource (writer.sourceOf cmd.toCommandFields))
              (verify projectId repaired).lastSequence
              (verify projectId repaired).lastEventHash = .ok event ∧
            eventLine event = .ok line ∧
            (writer.run projectId draw dir cmd.toCommandFields).1 = writeActive repaired line) := by
  rw [Writer.run_eq]
  split_ifs with hrefused
  · exact Or.inl rfl
  · unfold appendUnchecked
    split_ifs with hproject
    · exact Or.inl rfl
    · cases hrecover : recoverDir dir with
      | error exn => exact Or.inl rfl
      | ok repaired =>
        refine Or.inr ⟨repaired, rfl, ?_⟩
        cases happend : appendRecovered projectId draw writer.expected.1 writer.expected.2 repaired
            (cmd.withSource (writer.sourceOf cmd.toCommandFields)) with
        | error exn =>
          dsimp only
          rw [happend]
          exact Or.inl rfl
        | ok result =>
          obtain ⟨dir', event⟩ := result
          dsimp only
          rw [happend]
          obtain ⟨events, hverified, ⟨rfl, -⟩ | ⟨hnone, hbuild, line, hline, rfl⟩⟩ :=
            appendRecovered_ok happend
          · exact Or.inl rfl
          · exact Or.inr ⟨not_not.mp hproject, events, event, line, hverified, hnone, hbuild, hline,
              rfl⟩

/-! ## Runs -/

/-- What happens to a project's directory: calls, rotations, and bytes of a line that a killed write
leaves behind the others. -/
inductive LedgerOp where
  | call (writer : Writer) (draw : Draw) (cmd : AppendCommand)
  | rotate (archiveName : Option String)
  | tear (fragment : List UInt8)

def LedgerOp.apply (projectId : String) (dir : ProjectDir) : LedgerOp → ProjectDir
  | call writer draw cmd => (writer.run projectId draw dir cmd.toCommandFields).1
  | rotate archiveName =>
      match Ledger.rotate dir archiveName with
      | .ok (_, dir') => dir'
      | .error _ => dir
  | tear fragment =>
      dir.insert activeEventsFile (readFile dir activeEventsFile ++ fragment)

/-- A new event has a new id and a payload that reads back; a line is not torn when it is rotated,
and the partitions can still be counted; what a killed write leaves has no end of line. -/
def LedgerOp.Safe (projectId : String) (dir : ProjectDir) : LedgerOp → Prop
  | call _ draw cmd => ∀ events, Committed projectId dir events →
      (∀ other ∈ events, sameEvent cmd.toCommandFields other = false) →
      NewEventSafe projectId draw cmd.toCommandFields events
  | rotate _ => tornBytes (readFile dir activeEventsFile) = [] ∧
      (rotatedFiles dir).length < 999999
  | tear fragment => newline ∉ fragment

def runLedger (projectId : String) : ProjectDir → List LedgerOp → ProjectDir
  | dir, [] => dir
  | dir, op :: ops => runLedger projectId (op.apply projectId dir) ops

/-- Every step is safe in the ledger it finds. -/
def SafeRun (projectId : String) : ProjectDir → List LedgerOp → Prop
  | _, [] => True
  | dir, op :: ops => op.Safe projectId dir ∧ SafeRun projectId (op.apply projectId dir) ops

theorem committed_call {writer : Writer} {draw : Draw} {cmd : AppendCommand}
    (h : Committed projectId dir events)
    (hsafe : (LedgerOp.call writer draw cmd).Safe projectId dir) :
    ∃ events', Committed projectId ((LedgerOp.call writer draw cmd).apply projectId dir) events' ∧
      events <+: events' := by
  show ∃ events', Committed projectId (writer.run projectId draw dir cmd.toCommandFields).1
    events' ∧ events <+: events'
  rcases Writer.run_cases projectId writer draw cmd dir with
    hsame | ⟨repaired, hrecover, hsame | ⟨rfl, kept, event, line, hverified, hnone, hbuild, hline,
      hwritten⟩⟩
  · rw [hsame]
    exact ⟨events, h, List.prefix_refl _⟩
  · rw [hsame]
    exact ⟨events, (committed_repaired hrecover).mpr h, List.prefix_refl _⟩
  · have hterm : tornBytes (readFile repaired activeEventsFile) = [] := by
      rw [(recoverDir_ok hrecover).2.1]
      exact tornBytes_kept _
    have hkept : Committed cmd.projectId dir kept :=
      (committed_repaired hrecover).mp ((committed_iff hterm).mpr hverified)
    obtain rfl := h.unique hkept
    have hnew := hsafe events h hnone
    have hvalid := writer.sourceOf_valid cmd
    have hlonger := (verified_writeActive hvalid.saga hterm hverified hbuild hline events).mpr
      ⟨rfl, hnew⟩
    rw [hwritten]
    exact ⟨events ++ [event], (committed_iff (torn_writeActive hterm
      (terminated_eventLine hline))).mpr hlonger, List.prefix_append _ _⟩

theorem committed_rotate {archiveName : Option String}
    (h : Committed projectId dir events)
    (hsafe : (LedgerOp.rotate archiveName).Safe projectId dir) :
    Committed projectId ((LedgerOp.rotate archiveName).apply projectId dir) events := by
  obtain ⟨hterm, hfits⟩ := hsafe
  unfold LedgerOp.apply
  dsimp only
  cases hrotate : rotate dir archiveName with
  | error exn => exact h
  | ok result =>
    obtain ⟨_ | archive, dir'⟩ := result
    · rw [rotate_none hrotate]
      exact h
    · have hevents : eventsOf dir' = eventsOf dir := by
        rw [eventsOf_rotate hrotate, archivedEvents_rotate hrotate, if_pos (by omega)]
      have hactive := (readFile_archive hrotate).2.1
      rw [committed_iff hterm] at h
      rw [committed_iff (by rw [hactive]; rfl), Verified, replay_eq_eventsOf, hevents,
        ← replay_eq_eventsOf]
      exact h

theorem committed_tear {fragment : List UInt8} (h : Committed projectId dir events)
    (hsafe : (LedgerOp.tear fragment).Safe projectId dir) :
    Committed projectId ((LedgerOp.tear fragment).apply projectId dir) events := by
  show Committed projectId (dir.insert activeEventsFile
    (readFile dir activeEventsFile ++ fragment)) events
  apply (committed_congr (archivedEvents_insert _ _) _).mpr h
  rw [readFile_insert]
  conv_lhs => rw [← kept_append_torn (readFile dir activeEventsFile), List.append_assoc]
  have hrest : newline ∉ tornBytes (readFile dir activeEventsFile) ++ fragment := by
    rw [List.mem_append, not_or]
    exact ⟨notMem_tail _, hsafe⟩
  exact kept_append (terminated_kept _) hrest

/-- In a run of calls, rotations and torn writes the committed events only grow at their end. -/
theorem committed_run {ops : List LedgerOp} (h : Committed projectId dir events)
    (hsafe : SafeRun projectId dir ops) :
    ∃ events', Committed projectId (runLedger projectId dir ops) events' ∧ events <+: events' := by
  induction ops generalizing dir events with
  | nil => exact ⟨events, h, List.prefix_refl _⟩
  | cons op ops ih =>
    obtain ⟨hop, hops⟩ := hsafe
    have hstep : ∃ events', Committed projectId (op.apply projectId dir) events' ∧
        events <+: events' := by
      cases op with
      | call writer draw cmd => exact committed_call h hop
      | rotate archiveName => exact ⟨events, committed_rotate h hop, List.prefix_refl _⟩
      | tear fragment => exact ⟨events, committed_tear h hop, List.prefix_refl _⟩
    obtain ⟨mid, hmid, hprefix⟩ := hstep
    obtain ⟨events', hevents', hprefix'⟩ := ih hmid hops
    exact ⟨events', hevents', hprefix.trans hprefix'⟩

/-! ## A torn line in a partition -/

theorem archived_error_step {exn : Exn} (op : LedgerOp) (h : archivedEvents dir = .error exn) :
    archivedEvents (op.apply projectId dir) = .error exn := by
  cases op with
  | call writer draw cmd =>
    show archivedEvents (writer.run projectId draw dir cmd.toCommandFields).1 = _
    rcases Writer.run_cases projectId writer draw cmd dir with
      hsame | ⟨repaired, hrecover, hsame | ⟨-, -, -, line, -, -, -, -, hwritten⟩⟩
    · rw [hsame, h]
    · rw [hsame, (recoverDir_ok hrecover).1, h]
    · rw [hwritten, writeActive, archivedEvents_insert, (recoverDir_ok hrecover).1, h]
  | rotate archiveName =>
    unfold LedgerOp.apply
    dsimp only
    cases hrotate : rotate dir archiveName with
    | error exn => exact h
    | ok result =>
      obtain ⟨_ | archive, dir'⟩ := result
      · rw [rotate_none hrotate]
        exact h
      · dsimp only
        rw [archivedEvents_rotate hrotate, eventsOf_eq, h]
        split_ifs <;> rfl
  | tear fragment => exact (archivedEvents_insert _ _).trans h

theorem archived_error_run {exn : Exn} (ops : List LedgerOp)
    (h : archivedEvents dir = .error exn) :
    archivedEvents (runLedger projectId dir ops) = .error exn := by
  induction ops generalizing dir with
  | nil => exact h
  | cons op ops ih => exact ih (archived_error_step op h)

/-- Nothing is appended behind a partition that does not parse. -/
theorem call_refused {exn : Exn} (writer : Writer) (draw : Draw) (cmd : AppendCommand)
    (h : archivedEvents dir = .error exn) :
    ∃ failure, (writer.run projectId draw dir cmd.toCommandFields).2 = .error failure := by
  cases hrun : (writer.run projectId draw dir cmd.toCommandFields).2 with
  | error failure => exact ⟨failure, rfl⟩
  | ok event =>
    have hcall : writer.run projectId draw dir cmd.toCommandFields =
        ((writer.run projectId draw dir cmd.toCommandFields).1, .ok event) := by
      rw [← hrun]
    obtain ⟨-, repaired, hrecover, happend⟩ := appendUnchecked_ok (Writer.run_ok hcall).2
    obtain ⟨events, hverified, -⟩ := appendRecovered_ok happend
    have hreplay := hverified.1
    rw [replay_eq_eventsOf] at hreplay
    obtain ⟨old, -, hold, -⟩ := eventsOf_ok.mp hreplay
    rw [(recoverDir_ok hrecover).1, h] at hold
    cases hold

/-- Once a line that does not parse is rotated, no call of any later run is accepted. -/
theorem rotate_torn_locked {archive : String} {archiveName : Option String} {exn : Exn}
    (hrotate : rotate dir archiveName = .ok (some archive, dir'))
    (hfits : (rotatedFiles dir).length < 999999)
    (htorn : replayFile (readFile dir activeEventsFile) = .error exn)
    (ops : List LedgerOp) (writer : Writer) (draw : Draw) (cmd : AppendCommand) :
    ∃ failure, (writer.run projectId draw (runLedger projectId dir' ops) cmd.toCommandFields).2 =
      .error failure := by
  have harchived : ∃ exn, archivedEvents dir' = .error exn := by
    rw [archivedEvents_rotate hrotate, if_pos (by omega), eventsOf_eq, htorn]
    cases archivedEvents dir with
    | error exn => exact ⟨exn, rfl⟩
    | ok old => exact ⟨exn, rfl⟩
  obtain ⟨failure, hfailure⟩ := harchived
  exact call_refused writer draw cmd (archived_error_run ops hfailure)

end

attribute [local instance] LaxInt.intOnly

/-- A ledger of an active file alone. -/
def oneFile (content : List UInt8) : ProjectDir := AList.singleton activeEventsFile content

theorem rotatedFiles_oneFile (content : List UInt8) : rotatedFiles (oneFile content) = [] := by
  show ([activeEventsFile].filter isRotation).mergeSort _ = []
  rw [List.filter_cons_of_neg (by rw [isRotation_active]; decide), List.filter_nil,
    List.mergeSort_nil]

theorem rotate_oneFile {content : List UInt8} (h : content ≠ []) :
    ∃ dir', rotate (oneFile content) none = .ok (some (rotationName 1), dir') := by
  have hread : readFile (oneFile content) activeEventsFile = content := rfl
  have hnew : rotationName 1 ∉ oneFile content := by
    intro hmem
    exact rotationName_ne_active 1 (List.mem_singleton.mp (AList.mem_keys.mp hmem))
  unfold rotate
  dsimp only
  rw [hread, if_neg h, rotatedFiles_oneFile]
  show ∃ dir', (raiseIf (rotationName 1 ∈ oneFile content) (fileExistsError (rotationName 1)) >>=
    _) = _
  rw [raiseIf, if_neg hnew]
  exact ⟨_, rfl⟩

/-- A blank line is rotated away without a trace. -/
theorem replay_rotate_blank : ∃ dir', replay dir' 1 = .ok [] ↔
    (rotatedFiles (oneFile [newline])).length < 999999 ∨
      replayFile (readFile (oneFile [newline]) activeEventsFile) = .ok [] := by
  obtain ⟨dir', hrotate⟩ := rotate_oneFile (List.cons_ne_nil newline [])
  have hreplay : replay (oneFile [newline]) 1 = .ok [] := by
    rw [replay_eq_eventsOf, eventsOf_eq, archivedEvents, rotatedFiles_oneFile]
    rfl
  exact ⟨dir', replay_rotate_iff hreplay hrotate⟩

/-- The start of a record is rotated. -/
theorem rotate_brace_locked : ∃ dir' failure,
    (Writer.append.run "prj_abc" sampleDraw (runLedger "prj_abc" dir' [])
      plainNote.toCommandFields).2 = .error failure := by
  obtain ⟨dir', hrotate⟩ := rotate_oneFile (List.cons_ne_nil 123 [])
  have htorn : replayFile [123] = .error jsonDecodeError := by rfl
  have hfits : (rotatedFiles (oneFile [123])).length < 999999 := by
    rw [rotatedFiles_oneFile]
    decide
  exact ⟨dir', rotate_torn_locked hrotate hfits htorn [] .append sampleDraw plainNote⟩

/-- A first call, and a second write that is killed. -/
theorem committed_two : ∃ events, Committed "prj_abc" (runLedger "prj_abc" ∅
    [.call .append sampleDraw plainNote, .tear [123]]) events ∧ [] <+: events := by
  have hempty : Committed "prj_abc" ∅ [] := (committed_iff rfl).mpr (verified_empty "prj_abc")
  have htear : newline ∉ ([123] : List UInt8) := by decide
  refine committed_run hempty ⟨fun events h _ => ?_, htear, trivial⟩
  obtain rfl := h.unique hempty
  exact ⟨List.not_mem_nil, rfl, rfl⟩

end PowerFramework.Ledger
