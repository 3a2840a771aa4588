import Mathlib.Data.List.Perm.Basic
import PowerFramework.Upkeep.Archive
/-!
# The live run of archiving

What one move does to the vault, the moves of a live run, and when the preview lists exactly them.
-/

namespace PowerFramework.Upkeep

open Lib Lib.Failure Lib.Json Lib.Loop Retrieval State TaskStore

/-! ## One move -/

namespace NoteVault

variable {vault next : NoteVault} {rel path source target : RelPath}
  {notes : List (RelPath × NoteFile)}

theorem lookup_renamed (hsource : path ≠ source) (htarget : path ≠ target) :
    (renamed source target notes).lookup path = notes.lookup path := by
  induction notes with
  | nil => rfl
  | cons entry notes ih =>
    unfold renamed at ih ⊢
    by_cases hentry : entry.1 = target
    · rw [List.filter_cons_of_neg (by simpa using hentry), ih,
        Grouping.lookup_cons, if_neg (by rw [hentry]; exact htarget)]
    · rw [List.filter_cons_of_pos (by simpa using hentry), List.map_cons]
      split_ifs with hmoved
      · rw [Grouping.lookup_cons, Grouping.lookup_cons, if_neg htarget,
          if_neg (by rw [hmoved]; exact hsource), ih]
      · rw [Grouping.lookup_cons, Grouping.lookup_cons, ih]

theorem lookup_filter (hpath : path ≠ source) :
    (notes.filter fun entry => entry.1 ≠ source).lookup path = notes.lookup path := by
  induction notes with
  | nil => rfl
  | cons entry notes ih =>
    by_cases hentry : entry.1 = source
    · rw [List.filter_cons_of_neg (by simpa using hentry), ih, Grouping.lookup_cons,
        if_neg (by rw [hentry]; exact hpath)]
    · rw [List.filter_cons_of_pos (by simpa using hentry), Grouping.lookup_cons,
        Grouping.lookup_cons, ih]

/-- A note that takes a path no other has keeps the contents. -/
theorem contents_renamed (htarget : target ∉ notes.map Prod.fst) :
    (renamed source target notes).map (fun entry => entry.2.data) =
      notes.map fun entry => entry.2.data := by
  have hall : notes.filter (fun entry => entry.1 ≠ target) = notes := by
    rw [List.filter_eq_self]
    intro entry hentry
    have hne : entry.1 ≠ target := by
      intro heq
      exact htarget (heq ▸ List.mem_map_of_mem hentry)
    simpa using hne
  rw [renamed, hall, List.map_map]
  apply List.map_congr_left
  intro entry _
  simp only [Function.comp_apply]
  split_ifs <;> rfl

theorem mem_paths_renamed :
    path ∈ (renamed source target notes).map Prod.fst ↔
      (path = target ∧ source ∈ notes.map Prod.fst ∧ source ≠ target) ∨
        (path ∈ notes.map Prod.fst ∧ path ≠ source ∧ path ≠ target) := by
  rw [paths_renamed, List.mem_map]
  constructor
  · rintro ⟨old, hold, rfl⟩
    rw [List.mem_filter] at hold
    have hne : old ≠ target := by simpa using hold.2
    split_ifs with hsource
    · subst hsource
      exact .inl ⟨rfl, hold.1, hne⟩
    · exact .inr ⟨hold.1, hsource, hne⟩
  · rintro (⟨rfl, hmem, hne⟩ | ⟨hmem, hsource, htarget⟩)
    · exact ⟨source, List.mem_filter.mpr ⟨hmem, by simpa using hne⟩, if_pos rfl⟩
    · exact ⟨path, List.mem_filter.mpr ⟨hmem, by simpa using htarget⟩, if_neg hsource⟩

theorem archivePath_inj {name name' : String} :
    archivePath name = archivePath name' ↔ name = name' := by
  simp [archivePath]

/-- Where a move can go, it goes; the directory is usable behind it. -/
theorem move_ok (h : vault.archiveDir ≠ .file) :
    ∃ next, vault.move rel = .ok next ∧ next.archiveDir ≠ .file := by
  unfold move
  split
  · contradiction
  · exact ⟨_, rfl, by simp⟩
  · exact ⟨_, rfl, by simp⟩
  · exact ⟨_, rfl, by simp⟩

theorem move_error (h : vault.archiveDir = .file) :
    vault.move rel = .error ⟨"FileExistsError", "File exists"⟩ := by
  unfold move
  split <;> simp_all

/-- The other notes off the archive stay where they are. -/
theorem lookup_move (h : vault.move rel = .ok next) (hrel : path ≠ rel)
    (hpath : path ≠ archivePath (fileName rel)) :
    next.notes.lookup path = vault.notes.lookup path := by
  unfold move at h
  split at h
  · cases h
  · cases h
    exact lookup_renamed hrel hpath
  · cases h
    exact lookup_renamed hrel hpath
  · cases h
    exact lookup_filter hrel

/-- The archive has one name more behind a move. -/
theorem archived_move (h : vault.move rel = .ok next) (hrel : rel ∈ vault.paths)
    (hsource : ∀ name, rel ≠ archivePath name) (name : String) :
    next.archived name = (vault.archived name || decide (name = fileName rel)) := by
  rw [Bool.eq_iff_iff, Bool.or_eq_true, decide_eq_true_iff]
  unfold move at h
  split at h
  next hdir => cases h
  next hdir =>
    cases h
    have hnone : archivePath name ∉ vault.notes.map Prod.fst := by
      intro hmem
      obtain ⟨_, hentries⟩ := vault.housed name hmem
      rw [hdir] at hentries
      cases hentries
    simp only [archived, hdir, paths, List.contains_nil, Bool.false_or, List.contains_iff_mem,
      mem_paths_renamed, archivePath_inj, hnone, false_and, or_false, Bool.false_eq_true, false_or]
    exact ⟨fun h => h.1, fun h => ⟨h, hrel, hsource _⟩⟩
  next entries hdir =>
    cases h
    have hname := (hsource name).symm
    simp only [archived, hdir, paths, Bool.or_eq_true, List.contains_iff_mem, mem_paths_renamed,
      archivePath_inj]
    constructor
    · rintro (hentry | ⟨heq, -⟩ | ⟨hmem, -⟩)
      · exact .inl (.inl hentry)
      · exact .inr heq
      · exact .inl (.inr hmem)
    · rintro ((hentry | hmem) | heq)
      · exact .inl hentry
      · by_cases heq : name = fileName rel
        · exact .inr (.inl ⟨heq, hrel, hsource _⟩)
        · exact .inr (.inr ⟨hmem, hname, fun h => heq (archivePath_inj.mp h)⟩)
      · exact .inr (.inl ⟨heq, hrel, hsource _⟩)
  next entries hdir =>
    cases h
    simp only [archived, hdir, List.contains_iff_mem, List.mem_cons]
    exact or_comm

/-- In a directory of the vault no content is lost or changed. -/
theorem contents_move (h : vault.move rel = .ok next)
    (hdir : ∀ entries, vault.archiveDir ≠ .link entries)
    (hfree : vault.archived (fileName rel) = false) :
    next.contents = vault.contents ∧ ∀ entries, next.archiveDir ≠ .link entries := by
  have hnone : archivePath (fileName rel) ∉ vault.notes.map Prod.fst := by
    intro hmem
    obtain ⟨entries, hentries⟩ := vault.housed _ hmem
    rw [archived, hentries] at hfree
    simp only [Bool.or_eq_false_iff] at hfree
    exact absurd (List.contains_iff_mem.mpr hmem) (by rw [← paths, hfree.2]; simp)
  unfold move at h
  split at h
  · cases h
  · cases h
    exact ⟨congrArg Multiset.ofList (contents_renamed hnone), by simp⟩
  · cases h
    exact ⟨congrArg Multiset.ofList (contents_renamed hnone), by simp⟩
  next hlink => exact absurd hlink (hdir _)

/-- Through a link a note leaves the vault. -/
theorem contents_move_link {entries : List String} (h : vault.move rel = .ok next)
    (hdir : vault.archiveDir = .link entries) (hrel : rel ∈ vault.paths) :
    next.contents.card < vault.contents.card ∧ ∃ entries, next.archiveDir = .link entries := by
  unfold move at h
  split at h
  next hfile => cases h
  next hmissing => simp [hdir] at hmissing
  next hentries => simp [hdir] at hentries
  next entries' hlink =>
    cases h
    refine ⟨?_, _, rfl⟩
    simp only [contents, Multiset.coe_card, List.length_map]
    obtain ⟨entry, hentry, rfl⟩ := List.mem_map.mp hrel
    exact List.length_filter_lt_length_iff_exists.mpr ⟨entry, hentry, by simp⟩

end NoteVault

/-! ## The moves of a live run -/

section
variable [PythonText] [PythonYamlDates] [PythonPatterns]

/-- The first path of each name, of the names that are not taken. -/
def firsts : List String → List RelPath → List RelPath
  | _, [] => []
  | taken, rel :: rels =>
      if taken.contains (fileName rel) then firsts taken rels
      else rel :: firsts (fileName rel :: taken) rels

/-- The vault behind the moves of the names that are taken, as far as the paths that are left can
tell. -/
structure Moving (rules : List IgnoreRule) (start : NoteVault) (taken : List String)
    (vault : NoteVault) (rels : List RelPath) : Prop where
  usable : vault.archiveDir ≠ .file
  archived : ∀ name, vault.archived name = (start.archived name || taken.contains name)
  lookup : ∀ rel ∈ rels, isCandidate rules rel = true →
    vault.notes.lookup rel = start.notes.lookup rel

variable {today : Temporal.Date} {rules : List IgnoreRule} {start vault next : NoteVault}
  {taken : List String} {rel : RelPath} {rels : List RelPath} {report : ArchiveReport}

omit [PythonText] [PythonYamlDates] in
theorem isCandidate_ne (h : isCandidate rules rel = true) (name : String) :
    rel ≠ archivePath name := by
  rintro rfl
  simp [isCandidate, archivePath] at h

/-- A path that is found at the start is found as long as its name is not taken. -/
theorem finds_moving (h : Moving rules start taken vault (rel :: rels)) :
    finds today rules vault rel =
      (finds today rules start rel).map fun found => found && !taken.contains (fileName rel) := by
  have hlookup := h.lookup rel List.mem_cons_self
  unfold finds
  cases hcandidate : isCandidate rules rel with
  | false => cases vault.notes.lookup rel <;> cases start.notes.lookup rel <;> simp [Except.map]
  | true =>
    rw [hlookup hcandidate, h.archived]
    cases start.notes.lookup rel with
    | none => rfl
    | some note =>
      cases hstale : isStale today note with
      | error exn => simp [hstale, Except.map]
      | ok stale => simp [hstale, Except.map, Bool.and_assoc]

omit [PythonText] [PythonYamlDates] in
theorem Moving.tail (h : Moving rules start taken vault (rel :: rels)) :
    Moving rules start taken vault rels :=
  ⟨h.usable, h.archived, fun path hpath => h.lookup path (List.mem_cons_of_mem _ hpath)⟩

/-- One move takes one name. -/
theorem Moving.move (h : Moving rules start taken vault (rel :: rels))
    (hfinds : finds today rules vault rel = .ok true) (hrel : rel ∉ rels) :
    ∃ next, vault.move rel = .ok next ∧
      Moving rules start (fileName rel :: taken) next rels := by
  obtain ⟨hmem, hcandidate, -⟩ := finds_true hfinds
  obtain ⟨next, hmove, husable⟩ := @NoteVault.move_ok _ rel h.usable
  refine ⟨next, hmove, husable, ?_, ?_⟩
  · intro name
    rw [NoteVault.archived_move hmove hmem (isCandidate_ne hcandidate), h.archived,
      Bool.or_assoc, Bool.or_comm (taken.contains name), List.contains_cons]
    rfl
  · intro path hpath hcand
    rw [NoteVault.lookup_move hmove (fun heq => hrel (heq ▸ hpath)) (isCandidate_ne hcand _)]
    exact h.lookup path (List.mem_cons_of_mem _ hpath) hcand

/-- A live run moves the first note of each name the preview lists. -/
theorem archiveLoop_live (h : Moving rules start taken vault rels) (hnodup : rels.Nodup) :
    (archiveLoop false today rules rels vault report).2.map ArchiveReport.moved =
      outcome (failure today rules start rels)
        (report.moved ++ (firsts taken (movable today rules start rels)).map moveLine) := by
  induction rels generalizing taken vault report with
  | nil => simp [archiveLoop, failure, movable, untilFailure, outcome, Except.map, firsts]
  | cons rel rels ih =>
    have hfinds := @finds_moving _ _ _ today _ _ _ _ _ _ h
    rw [List.nodup_cons] at hnodup
    cases hstart : finds today rules start rel with
    | error exn =>
      rw [hstart] at hfinds
      rw [archiveLoop_error hfinds, (movable_cons_error hstart).2]
      rfl
    | ok found =>
      rw [hstart] at hfinds
      rw [(movable_cons_ok hstart).1, (movable_cons_ok hstart).2]
      cases found with
      | false =>
        obtain ⟨report', hmoved, hloop⟩ :=
          @archiveLoop_pass _ _ _ today rules vault rel rels report false hfinds
        rw [hloop, ← hmoved]
        exact ih h.tail hnodup.2
      | true =>
        cases htaken : taken.contains (fileName rel) with
        | true =>
          simp only [htaken, Except.map, Bool.not_true, Bool.and_false] at hfinds
          obtain ⟨report', hmoved, hloop⟩ :=
            @archiveLoop_pass _ _ _ today rules vault rel rels report false hfinds
          rw [hloop, ← hmoved, ih h.tail hnodup.2]
          simp only [if_true, List.singleton_append, firsts, htaken]
        | false =>
          simp only [htaken, Except.map, Bool.not_false, Bool.and_true] at hfinds
          obtain ⟨next, hmove, hnext⟩ := h.move hfinds hnodup.1
          rw [archiveLoop_found hfinds, if_neg Bool.false_ne_true, hmove]
          dsimp only
          rw [ih hnext hnodup.2]
          simp only [if_true, List.singleton_append, firsts, htaken, Bool.false_eq_true, if_false,
            List.map_cons, List.append_assoc]

/-- Where the preview lists nothing, a live run leaves the vault as it is. -/
theorem archiveLoop_idle (h : movable today rules vault rels = []) :
    (archiveLoop false today rules rels vault report).1 = vault ∧
      (archiveLoop false today rules rels vault report).2.map ArchiveReport.moved =
        outcome (failure today rules vault rels) report.moved := by
  induction rels generalizing report with
  | nil => exact ⟨rfl, rfl⟩
  | cons rel rels ih =>
    cases hfinds : finds today rules vault rel with
    | error exn =>
      rw [archiveLoop_error hfinds, (movable_cons_error hfinds).2]
      exact ⟨rfl, rfl⟩
    | ok found =>
      rw [(movable_cons_ok hfinds).1] at h
      rw [(movable_cons_ok hfinds).2]
      cases found with
      | true => simp at h
      | false =>
        obtain ⟨report', hmoved, hloop⟩ :=
          @archiveLoop_pass _ _ _ today rules vault rel rels report false hfinds
        rw [hloop, ← hmoved]
        exact ih (List.append_eq_nil_iff.mp h).2

/-- Where the archive is a file, a live run ends at the first note it would move. -/
theorem archiveLoop_file (hfile : vault.archiveDir = .file)
    (h : movable today rules vault rels ≠ []) :
    ∃ exn, archiveLoop false today rules rels vault report = (vault, .error exn) := by
  induction rels generalizing report with
  | nil => exact absurd rfl h
  | cons rel rels ih =>
    cases hfinds : finds today rules vault rel with
    | error exn => exact ⟨exn, archiveLoop_error hfinds⟩
    | ok found =>
      cases found with
      | true =>
        rw [archiveLoop_found hfinds, if_neg Bool.false_ne_true, NoteVault.move_error hfile]
        exact ⟨_, rfl⟩
      | false =>
        rw [(movable_cons_ok hfinds).1] at h
        obtain ⟨report', -, hloop⟩ :=
          @archiveLoop_pass _ _ _ today rules vault rel rels report false hfinds
        rw [hloop]
        exact ih h

/-- A live run in a directory of the vault loses no note and changes none. -/
theorem archiveLoop_contents (hdir : ∀ entries, vault.archiveDir ≠ .link entries) :
    (archiveLoop false today rules rels vault report).1.contents = vault.contents := by
  induction rels generalizing vault report with
  | nil => rfl
  | cons rel rels ih =>
    cases hfinds : finds today rules vault rel with
    | error exn => rw [archiveLoop_error hfinds]
    | ok found =>
      cases found with
      | false =>
        obtain ⟨report', -, hloop⟩ :=
          @archiveLoop_pass _ _ _ today rules vault rel rels report false hfinds
        rw [hloop]
        exact ih hdir
      | true =>
        rw [archiveLoop_found hfinds, if_neg Bool.false_ne_true]
        cases hmove : vault.move rel with
        | error exn => rfl
        | ok next =>
          obtain ⟨hcontents, hnext⟩ :=
            NoteVault.contents_move hmove hdir (finds_true hfinds).2.2
          dsimp only
          rw [ih hnext, hcontents]

/-- Behind a link the vault has no more notes than before, and fewer once one is moved. -/
theorem archiveLoop_link (hlink : ∃ entries, vault.archiveDir = .link entries) :
    (archiveLoop false today rules rels vault report).1.contents.card ≤ vault.contents.card ∧
      (movable today rules vault rels ≠ [] →
        (archiveLoop false today rules rels vault report).1.contents.card <
          vault.contents.card) := by
  induction rels generalizing vault report with
  | nil => exact ⟨le_rfl, fun h => absurd rfl h⟩
  | cons rel rels ih =>
    cases hfinds : finds today rules vault rel with
    | error exn =>
      rw [archiveLoop_error hfinds, (movable_cons_error hfinds).1]
      exact ⟨le_rfl, fun h => absurd rfl h⟩
    | ok found =>
      cases found with
      | false =>
        obtain ⟨report', -, hloop⟩ :=
          @archiveLoop_pass _ _ _ today rules vault rel rels report false hfinds
        rw [hloop, (movable_cons_ok hfinds).1]
        exact ih hlink
      | true =>
        obtain ⟨entries, hentries⟩ := hlink
        obtain ⟨next, hmove, -⟩ := @NoteVault.move_ok vault rel (by simp [hentries])
        obtain ⟨hless, hnext⟩ :=
          NoteVault.contents_move_link hmove hentries (finds_true hfinds).1
        rw [archiveLoop_found hfinds, if_neg Bool.false_ne_true, hmove]
        have hrest := (@ih next { report with moved := report.moved ++ [moveLine rel] } hnext).1
        exact ⟨by dsimp only; omega, fun _ => by dsimp only; omega⟩

/-! ## The preview is the archive -/

omit [PythonText] [PythonYamlDates] [PythonPatterns] in
theorem firsts_sublist (taken : List String) (rels : List RelPath) :
    (firsts taken rels).Sublist rels := by
  induction rels generalizing taken with
  | nil => exact List.Sublist.slnil
  | cons rel rels ih =>
    rw [firsts]
    split_ifs
    · exact (ih taken).cons rel
    · exact (ih _).cons_cons rel

omit [PythonText] [PythonYamlDates] [PythonPatterns] in
theorem firsts_eq_self_iff : firsts taken rels = rels ↔
    (rels.map fileName).Nodup ∧ ∀ rel ∈ rels, fileName rel ∉ taken := by
  induction rels generalizing taken with
  | nil => simp [firsts]
  | cons rel rels ih =>
    rw [firsts, List.map_cons, List.nodup_cons, List.forall_mem_cons]
    by_cases htaken : fileName rel ∈ taken
    · rw [if_pos (List.contains_iff_mem.mpr htaken)]
      constructor
      · intro h
        have hlength := (firsts_sublist taken rels).length_le
        rw [h, List.length_cons] at hlength
        omega
      · intro h
        exact absurd htaken h.2.1
    · rw [if_neg (fun h => htaken (List.contains_iff_mem.mp h)), List.cons_inj_right, ih]
      constructor
      · rintro ⟨hnodup, hfree⟩
        refine ⟨⟨?_, hnodup⟩, htaken, fun path hpath hmem =>
          hfree path hpath (List.mem_cons_of_mem _ hmem)⟩
        intro hmem
        obtain ⟨path, hpath, hname⟩ := List.mem_map.mp hmem
        exact hfree path hpath (hname ▸ List.mem_cons_self)
      · rintro ⟨⟨hfirst, hnodup⟩, -, hfree⟩
        refine ⟨hnodup, fun path hpath hmem => ?_⟩
        rcases List.mem_cons.mp hmem with heq | hmem
        · exact hfirst (heq ▸ List.mem_map_of_mem hpath)
        · exact hfree path hpath hmem

/-- The preview lists the moves of the live run, and the live run loses no note. -/
def PreviewExact (today : Temporal.Date) (rules : List IgnoreRule) (vault : NoteVault) : Prop :=
  (∀ report, (archiveStaleNotes true today rules vault).2 = .ok report →
    ∃ live, (archiveStaleNotes false today rules vault).2 = .ok live ∧
      live.moved = report.moved) ∧
  (archiveStaleNotes false today rules vault).1.contents = vault.contents

omit [PythonText] [PythonYamlDates] [PythonPatterns] in
/-- A run lists what a preview listed, in the terms of what both report as moved. -/
theorem listed_iff {dry live : Except Exn ArchiveReport} {ended : Option Exn}
    {moved : List String} (hdry : dry.map ArchiveReport.moved = outcome ended moved) :
    (∀ report, dry = .ok report → ∃ report', live = .ok report' ∧ report'.moved = report.moved) ↔
      (ended = none → live.map ArchiveReport.moved = .ok moved) := by
  cases ended with
  | some exn =>
    cases dry with
    | error exn' => simp
    | ok report => cases hdry
  | none =>
    obtain ⟨report, rfl, rfl⟩ := map_eq_ok.mp hdry
    simp only [Except.ok.injEq, forall_eq', forall_true_left, map_eq_ok]

/-- No two of the notes that are to be moved have one name, and `04_Archive` takes them in. -/
def Separate (today : Temporal.Date) (rules : List IgnoreRule) (vault : NoteVault) : Prop :=
  (failure today rules vault vault.paths = none →
    ((movable today rules vault vault.paths).map fileName).Nodup ∧
      (vault.archiveDir = .file → movable today rules vault vault.paths = [])) ∧
  ∀ entries, vault.archiveDir = .link entries → movable today rules vault vault.paths = []

omit [PythonText] [PythonYamlDates] in
theorem Moving.initial (hfile : vault.archiveDir ≠ .file) : Moving rules vault [] vault rels :=
  ⟨hfile, fun _ => by simp, fun _ _ _ => rfl⟩

omit [PythonText] [PythonYamlDates] [PythonPatterns] in
/-- The moves of the first of each name are all the moves when no two have the same name. -/
theorem map_moveLine_firsts_iff : (firsts [] rels).map moveLine = rels.map moveLine ↔
    (rels.map fileName).Nodup := by
  constructor
  · intro h
    have hlength : (firsts [] rels).length = rels.length := by
      simpa using congrArg List.length h
    exact (firsts_eq_self_iff.mp ((firsts_sublist [] rels).eq_of_length hlength)).1
  · intro h
    rw [firsts_eq_self_iff.mpr ⟨h, fun _ _ => List.not_mem_nil⟩]

/-- The preview is exact when, and only when, the moves that are due are separate. -/
theorem archiveStaleNotes_previewExact_iff (today : Temporal.Date) (rules : List IgnoreRule)
    (vault : NoteVault) : PreviewExact today rules vault ↔ Separate today rules vault := by
  have hdry := (@archiveLoop_preview _ _ _ today rules vault vault.paths ⟨[], []⟩).2
  rw [List.nil_append] at hdry
  unfold PreviewExact Separate archiveStaleNotes
  rw [listed_iff hdry]
  by_cases hidle : movable today rules vault vault.paths = []
  · obtain ⟨hvault, hlive⟩ := @archiveLoop_idle _ _ _ _ _ _ _ ⟨[], []⟩ hidle
    rw [hvault, hlive, hidle]
    simp only [List.map_nil, List.nodup_nil, implies_true, and_self, and_true, iff_true]
    intro hnone
    rw [hnone]
    rfl
  · cases hdir : vault.archiveDir with
    | file =>
      obtain ⟨exn, hlive⟩ := @archiveLoop_file _ _ _ _ _ _ _ ⟨[], []⟩ hdir hidle
      rw [hlive]
      simp [hidle, Except.map]
    | link entries =>
      have hless := (@archiveLoop_link _ _ _ today rules _ _ ⟨[], []⟩ ⟨entries, hdir⟩).2 hidle
      constructor
      · rintro ⟨-, hcontents⟩
        rw [hcontents] at hless
        omega
      · intro h
        exact absurd (h.2 entries rfl) hidle
    | missing | directory =>
      have hfile : vault.archiveDir ≠ .file := by simp [hdir]
      have hlink : ∀ entries, vault.archiveDir ≠ .link entries := by simp [hdir]
      have hlive := @archiveLoop_live _ _ _ today rules vault vault [] vault.paths ⟨[], []⟩
        (Moving.initial hfile) vault.nodup
      rw [List.nil_append] at hlive
      rw [hlive, archiveLoop_contents hlink, ← map_moveLine_firsts_iff]
      constructor
      · rintro ⟨hlisted, -⟩
        refine ⟨fun hnone => ⟨?_, by simp⟩, by simp⟩
        have := hlisted hnone
        rw [hnone] at this
        exact Except.ok.inj this
      · rintro ⟨hseparate, -⟩
        refine ⟨fun hnone => ?_, rfl⟩
        rw [hnone, outcome, (hseparate hnone).1]

end

/-! ## Two notes of one name -/

/-- YAML that holds `status: archived`. -/
abbrev archivedYaml : PythonYamlDates where
  safeLoad _ := .ok (some [("status", .str "archived")])

def archivedNote (data : Bytes) : NoteFile := ⟨data, .ok "---\nstatus: archived\n---\n"⟩

/-- Two archived notes of one name in two folders. -/
def namesakes : NoteVault where
  notes := [(["01_Projects", "a.md"], archivedNote [1]), (["02_Areas", "a.md"], archivedNote [2])]
  archiveDir := .missing
  nodup := by decide
  housed := by simp [archivePath]

/-- The preview lists two moves, and the live run makes one. -/
theorem namesakes_not_previewExact :
    ¬ @PreviewExact PythonText.ascii archivedYaml plainPatterns 0 [] namesakes := by
  let _ := PythonText.ascii
  let _ := archivedYaml
  let _ := plainPatterns
  have hdry : ((archiveStaleNotes true 0 [] namesakes).2.map (·.moved.length)).toOption = some 2 := by
    decide +kernel
  have hlive : ((archiveStaleNotes false 0 [] namesakes).2.map (·.moved.length)).toOption = some 1 := by
    decide +kernel
  intro h
  rw [toOption_eq_some, map_eq_ok] at hdry hlive
  obtain ⟨report, hreport, htwo⟩ := hdry
  obtain ⟨live, hok, hone⟩ := hlive
  obtain ⟨live', hok', heq⟩ := h.1 report hreport
  rw [hok] at hok'
  cases hok'
  rw [heq, htwo] at hone
  cases hone

end PowerFramework.Upkeep
