import Mathlib.Data.Finite.Defs
import Mathlib.Data.Prod.Lex
import Mathlib.Data.Set.Finite.Lattice
import Mathlib.Data.Set.Finite.Lemmas
import PowerFramework.Locks.Hierarchy
/-!
# Deadlocks

A thread never waits for itself, and threads never wait for each other in a circle, where each
call at a level that its thread holds already goes through the same store or project, or to a lock
file of higher rank.  `push_level` does not ask for that: a thread that enters `vault_mutation`
twice waits for itself.
-/

set_option linter.unusedSectionVars false

namespace PowerFramework.Locks

open Lib.Failure

variable {Thread Process Vault Store : Type} [DecidableEq Thread] [DecidableEq Vault]
  [DecidableEq Store] {world : World Thread Process Vault Store}
  {rank : Lock Process Vault Store → Nat} {state next : State Thread Process Vault Store}
  {thread other : Thread} {threadState : ThreadState Process Vault Store} {call : Call Vault Store}
  {frame : Frame Process Vault Store} {rest : List (Frame Process Vault Store)}
  {lock : Lock Process Vault Store} {change : Nat → Nat}

/-! ## What a step changes -/

@[simp] theorem set_self : (state.set thread threadState).threads thread = threadState :=
  Function.update_self ..

theorem set_of_ne (h : other ≠ thread) :
    (state.set thread threadState).threads other = state.threads other :=
  Function.update_of_ne h ..

@[simp] theorem set_lockDepth : (state.set thread threadState).lockDepth = state.lockDepth := rfl

/-- The counts of a thread's projects. -/
def countProjects (change : Nat → Nat) (call : Call Vault Store) (held : Vault × String → Nat) :
    Vault × String → Nat :=
  match call with
  | .projectLock vault projectId =>
      Function.update held (vault, projectId) (change (held (vault, projectId)))
  | _ => held

theorem countProjects_of_ne {vault : Vault} {projectId : String} {held : Vault × String → Nat}
    (h : call ≠ .projectLock vault projectId) :
    countProjects change call held (vault, projectId) = held (vault, projectId) := by
  cases call with
  | projectLock vault' projectId' =>
      apply Function.update_of_ne
      intro heq
      obtain ⟨rfl, rfl⟩ := Prod.mk.inj heq
      exact h rfl
  | vaultMutation vault' => rfl
  | taskStoreLock store => rfl

/-- The counts of the stores. -/
def countStores (change : Nat → Nat) (call : Call Vault Store) (depth : Store → Nat) : Store → Nat :=
  match call with
  | .taskStoreLock store => Function.update depth store (change (depth store))
  | _ => depth

theorem countStores_of_ne {store : Store} {depth : Store → Nat}
    (h : call ≠ .taskStoreLock store) : countStores change call depth store = depth store := by
  cases call with
  | taskStoreLock store' =>
      apply Function.update_of_ne
      rintro rfl
      exact h rfl
  | vaultMutation vault => rfl
  | projectLock vault projectId => rfl

theorem count_self : (state.count change thread call).threads thread =
    { state.threads thread with
      heldProjects := countProjects change call (state.threads thread).heldProjects } := by
  cases call with
  | projectLock vault projectId => exact set_self
  | vaultMutation vault => rfl
  | taskStoreLock store => rfl

theorem count_of_ne (h : other ≠ thread) :
    (state.count change thread call).threads other = state.threads other := by
  cases call with
  | projectLock vault projectId => exact set_of_ne h
  | vaultMutation vault => rfl
  | taskStoreLock store => rfl

theorem count_lockDepth : (state.count change thread call).lockDepth =
    countStores change call state.lockDepth := by
  cases call <;> rfl

theorem pushLevel_ok {tracker pushed : LockHierarchyTracker} {level : Nat}
    {projectId : Option String} (h : tracker.pushLevel level projectId = .ok pushed) :
    (∀ held ∈ tracker.levels, held ≤ level) ∧ pushed.levels = tracker.levels ++ [level] := by
  unfold LockHierarchyTracker.pushLevel at h
  obtain ⟨⟨⟩, hlevels, h1⟩ := bind_eq_ok.mp h
  rw [raiseIf_eq_ok] at hlevels
  push Not at hlevels
  refine ⟨hlevels, ?_⟩
  split at h1
  · obtain ⟨⟨⟩, -, h2⟩ := bind_eq_ok.mp h1
    cases h2
    rfl
  · cases h1
    rfl

theorem popLevel_concat {tracker : LockHierarchyTracker} {levels : List Nat} {level : Nat}
    (h : tracker.levels = levels ++ [level]) : (tracker.popLevel level).levels = levels := by
  unfold LockHierarchyTracker.popLevel
  simp [h]

/-- A call takes the lock of the process first, and then the lock file. -/
theorem nextLock_cases (h : nextLock world state thread frame = some lock) :
    (frame.taken = [] ∧ lock = frame.call.threadLock world thread) ∨
      ∃ first, frame.taken = [first] ∧ lock = frame.call.fileLock world := by
  unfold nextLock at h
  split at h
  · next vault hcall htaken =>
      cases h
      exact Or.inl ⟨htaken, by rw [hcall]; rfl⟩
  · next vault first hcall htaken =>
      cases h
      exact Or.inr ⟨first, htaken, by rw [hcall]; rfl⟩
  · next store hcall htaken =>
      cases h
      exact Or.inl ⟨htaken, by rw [hcall]; rfl⟩
  · next store first hcall htaken =>
      split at h
      · cases h
        exact Or.inr ⟨first, htaken, by rw [hcall]; rfl⟩
      · cases h
  · next vault projectId hcall htaken =>
      split at h
      · cases h
        exact Or.inl ⟨htaken, by rw [hcall]; rfl⟩
      · cases h
  · next vault projectId first hcall htaken =>
      cases h
      exact Or.inr ⟨first, htaken, by rw [hcall]; rfl⟩
  · cases h

theorem nextLock_project {vault : Vault} {projectId : String}
    (hcall : frame.call = .projectLock vault projectId) (htaken : frame.taken = [])
    (hheld : 0 < (state.threads thread).heldProjects (vault, projectId)) :
    nextLock world state thread frame = none := by
  unfold nextLock
  rw [hcall, htaken]
  exact if_neg (by omega)

/-! ## The state of one thread -/

/-- The number of calls whose bodies run. -/
def runs (frames : List (Frame Process Vault Store)) (call : Call Vault Store) : Nat :=
  frames.countP fun frame => frame.running ∧ frame.call = call

theorem runs_pos (hframe : frame ∈ rest) (hrunning : frame.running = true) :
    0 < runs rest frame.call := by
  refine List.countP_pos_iff.mpr ⟨frame, hframe, ?_⟩
  simp [hrunning]

/-- How a call stands to those its thread is already in. -/
structure Entered (world : World Thread Process Vault Store)
    (rank : Lock Process Vault Store → Nat) (rest : List (Frame Process Vault Store))
    (frame : Frame Process Vault Store) : Prop where
  ascending : ∀ outer ∈ rest, outer.call.level ≤ frame.call.level
  careful : (frame.call.level ≠ LEVEL_MUTATION ∧ ∃ outer ∈ rest, outer.call = frame.call) ∨
    ∀ outer ∈ rest, outer.call.level = frame.call.level →
      rank (outer.call.fileLock world) < rank (frame.call.fileLock world)
  again : (∃ vault projectId, frame.call = .projectLock vault projectId) →
    (∃ outer ∈ rest, outer.call = frame.call) → frame.taken = []

/-- What holds of a thread in a careful run. -/
structure ThreadInv (world : World Thread Process Vault Store)
    (rank : Lock Process Vault Store → Nat) (thread : Thread)
    (threadState : ThreadState Process Vault Store) : Prop where
  levels : threadState.tracker.levels = (threadState.frames.map (·.call.level)).reverse
  below : ∀ outer ∈ threadState.frames.tail, outer.running = true
  taken : ∀ frame ∈ threadState.frames, frame.taken = [] ∨
    frame.taken = [frame.call.threadLock world thread] ∨
    frame.taken = [frame.call.threadLock world thread, frame.call.fileLock world]
  store : ∀ frame ∈ threadState.frames, frame.running = true → ∀ store,
    frame.call = .taskStoreLock store → .storeThread store ∈ frame.taken
  entered : ∀ frame rest, threadState.frames = frame :: rest → frame.running = false →
    Entered world rank rest frame
  projects : ∀ vault projectId, runs threadState.frames (.projectLock vault projectId) ≤
    threadState.heldProjects (vault, projectId)

theorem threadInv_initial : ThreadInv world rank thread {} where
  levels := rfl
  below _ h := absurd h List.not_mem_nil
  taken _ h := absurd h List.not_mem_nil
  store _ h := absurd h List.not_mem_nil
  entered _ _ h := absurd h (by simp)
  projects _ _ := Nat.zero_le _

theorem threadInv_enter (h : ThreadInv world rank thread (state.threads thread))
    (hready : Ready (state.threads thread)) {tracker : LockHierarchyTracker}
    (hpush : (state.threads thread).tracker.pushLevel call.level call.projectId? = .ok tracker)
    (hcareful : Careful world rank state (.enter thread call)) :
    ThreadInv world rank thread { state.threads thread with
      tracker, frames := { call } :: (state.threads thread).frames } := by
  obtain ⟨hlevels, hpushed⟩ := pushLevel_ok hpush
  rw [h.levels] at hlevels hpushed
  constructor
  case levels => simpa using hpushed
  case below =>
    intro outer houter
    rw [List.tail_cons] at houter
    cases hframes : (state.threads thread).frames with
    | nil =>
        rw [hframes] at houter
        cases houter
    | cons top rest =>
        rw [hframes] at houter
        rcases List.mem_cons.mp houter with rfl | houter
        · exact hready outer (by simp [hframes])
        · exact h.below outer (by simpa [hframes] using houter)
  case taken =>
    intro frame hframe
    rcases List.mem_cons.mp hframe with rfl | hframe
    · exact Or.inl rfl
    · exact h.taken frame hframe
  case store =>
    intro frame hframe
    rcases List.mem_cons.mp hframe with rfl | hframe
    · intro hrunning
      cases hrunning
    · exact h.store frame hframe
  case entered =>
    intro frame rest hframes _
    obtain ⟨rfl, rfl⟩ := List.cons.inj hframes
    refine ⟨?_, hcareful, fun _ _ => rfl⟩
    intro outer houter
    apply hlevels
    rw [List.mem_reverse]
    exact List.mem_map_of_mem houter
  case projects =>
    intro vault projectId
    have hsame := h.projects vault projectId
    simpa [runs, List.countP_cons] using hsame

theorem threadInv_take (h : ThreadInv world rank thread (state.threads thread))
    (hframes : (state.threads thread).frames = frame :: rest) (hrunning : frame.running = false)
    (hnext : nextLock world state thread frame = some lock) :
    ThreadInv world rank thread { state.threads thread with
      frames := { frame with taken := frame.taken ++ [lock] } :: rest } := by
  have hentered := h.entered frame rest hframes hrunning
  have hmem : frame ∈ (state.threads thread).frames := by simp [hframes]
  have hrest : ∀ outer ∈ rest, outer ∈ (state.threads thread).frames := by
    intro outer houter
    simp [hframes, houter]
  have hruns : ∀ outer ∈ rest, outer.running = true := by
    intro outer houter
    exact h.below outer (by simpa [hframes] using houter)
  constructor
  case levels =>
    rw [h.levels, hframes]
    rfl
  case below => exact hruns
  case taken =>
    intro other hother
    rcases List.mem_cons.mp hother with rfl | hother
    · rcases nextLock_cases hnext with ⟨hempty, rfl⟩ | ⟨first, hone, rfl⟩
      · exact Or.inr (Or.inl (by simp [hempty]))
      · refine Or.inr (Or.inr ?_)
        rcases h.taken frame hmem with htaken | htaken | htaken
        · rw [hone] at htaken
          cases htaken
        · simp [htaken]
        · rw [hone] at htaken
          cases htaken
    · exact h.taken other (hrest other hother)
  case store =>
    intro other hother
    rcases List.mem_cons.mp hother with rfl | hother
    · intro htrue
      rw [hrunning] at htrue
      cases htrue
    · exact h.store other (hrest other hother)
  case entered =>
    intro top outers heq _
    obtain ⟨rfl, rfl⟩ := List.cons.inj heq
    refine ⟨hentered.ascending, hentered.careful, ?_⟩
    rintro ⟨vault, projectId, hproject⟩ hagain
    have hcall : frame.call = .projectLock vault projectId := hproject
    have htaken : frame.taken = [] := hentered.again ⟨vault, projectId, hcall⟩ hagain
    -- the project is held already, so no lock is wanted
    obtain ⟨outer, houter, hsame⟩ := hagain
    have hsame : outer.call = frame.call := hsame
    have hcount : 0 < runs (state.threads thread).frames (.projectLock vault projectId) := by
      rw [← hcall, ← hsame]
      exact runs_pos (hrest outer houter) (hruns outer houter)
    have hheld := h.projects vault projectId
    rw [nextLock_project hcall htaken (by omega)] at hnext
    cases hnext
  case projects =>
    intro vault projectId
    have hsame := h.projects vault projectId
    rw [hframes] at hsame
    simpa [runs, List.countP_cons, hrunning] using hsame

theorem threadInv_run (h : ThreadInv world rank thread (state.threads thread))
    (hframes : (state.threads thread).frames = frame :: rest) (hrunning : frame.running = false)
    (hnext : nextLock world state thread frame = none) :
    ThreadInv world rank thread { state.threads thread with
      frames := { frame with running := true } :: rest
      heldProjects := countProjects (· + 1) frame.call (state.threads thread).heldProjects } := by
  have hmem : frame ∈ (state.threads thread).frames := by simp [hframes]
  have hrest : ∀ outer ∈ rest, outer ∈ (state.threads thread).frames := by
    intro outer houter
    simp [hframes, houter]
  constructor
  case levels =>
    rw [h.levels, hframes]
    rfl
  case below =>
    intro outer houter
    exact h.below outer (by simpa [hframes] using houter)
  case taken =>
    intro other hother
    rcases List.mem_cons.mp hother with rfl | hother
    · exact h.taken frame hmem
    · exact h.taken other (hrest other hother)
  case store =>
    intro other hother
    rcases List.mem_cons.mp hother with rfl | hother
    · intro _ store hcall
      -- a call that has not taken the lock of its store still wants it
      have hcall' : frame.call = .taskStoreLock store := hcall
      rcases h.taken frame hmem with htaken | htaken | htaken
      · simp [nextLock, hcall', htaken] at hnext
      · simp [htaken, hcall', Call.threadLock]
      · simp [htaken, hcall', Call.threadLock]
    · exact h.store other (hrest other hother)
  case entered =>
    intro top outers heq hfalse
    obtain ⟨rfl, rfl⟩ := List.cons.inj heq
    cases hfalse
  case projects =>
    intro vault projectId
    have hcount := h.projects vault projectId
    rw [hframes] at hcount
    have hbefore : runs (frame :: rest) (.projectLock vault projectId) =
        runs rest (.projectLock vault projectId) := by
      simp [runs, hrunning]
    have hafter : runs ({ frame with running := true } :: rest) (.projectLock vault projectId) =
        runs rest (.projectLock vault projectId) +
          if frame.call = .projectLock vault projectId then 1 else 0 := by
      simp [runs, List.countP_cons]
    rw [hafter]
    by_cases hcall : frame.call = .projectLock vault projectId
    · simp only [hcall, if_true, countProjects, Function.update_self]
      omega
    · rw [if_neg hcall]
      show _ ≤ countProjects (· + 1) frame.call (state.threads thread).heldProjects
        (vault, projectId)
      rw [countProjects_of_ne hcall]
      omega

theorem threadInv_leave (h : ThreadInv world rank thread (state.threads thread))
    (hframes : (state.threads thread).frames = frame :: rest) :
    ThreadInv world rank thread { state.threads thread with
      tracker := (state.threads thread).tracker.popLevel frame.call.level
      frames := rest
      heldProjects := countProjects (if frame.running then (· - 1) else id) frame.call
        (state.threads thread).heldProjects } := by
  have hrest : ∀ outer ∈ rest, outer ∈ (state.threads thread).frames := by
    intro outer houter
    simp [hframes, houter]
  have hruns : ∀ outer ∈ rest, outer.running = true := by
    intro outer houter
    exact h.below outer (by simpa [hframes] using houter)
  constructor
  case levels =>
    apply popLevel_concat
    rw [h.levels, hframes]
    simp
  case below => exact fun outer houter => hruns outer (List.mem_of_mem_tail houter)
  case taken => exact fun other hother => h.taken other (hrest other hother)
  case store => exact fun other hother => h.store other (hrest other hother)
  case entered =>
    intro top outers heq hfalse
    have htop : top ∈ rest := by simp [show rest = top :: outers from heq]
    rw [hruns top htop] at hfalse
    cases hfalse
  case projects =>
    intro vault projectId
    have hcount := h.projects vault projectId
    rw [hframes] at hcount
    have hbefore : runs (frame :: rest) (.projectLock vault projectId) =
        runs rest (.projectLock vault projectId) +
          if frame.running = true ∧ frame.call = .projectLock vault projectId then 1 else 0 := by
      simp [runs, List.countP_cons]
    rw [hbefore] at hcount
    show runs rest (.projectLock vault projectId) ≤
      countProjects (if frame.running then (· - 1) else id) frame.call
        (state.threads thread).heldProjects (vault, projectId)
    by_cases hcall : frame.call = .projectLock vault projectId
    · rw [hcall, countProjects, Function.update_self]
      cases hrunning : frame.running with
      | true =>
          rw [if_pos ⟨hrunning, hcall⟩] at hcount
          simp only [if_true]
          omega
      | false =>
          simp only [Bool.false_eq_true, if_false, id]
          omega
    · rw [countProjects_of_ne hcall]
      omega

/-! ## The states of a careful run -/

/-- What holds in every state of a careful run. -/
structure Inv (world : World Thread Process Vault Store) (rank : Lock Process Vault Store → Nat)
    (state : State Thread Process Vault Store) : Prop where
  threads : ∀ thread, ThreadInv world rank thread (state.threads thread)
  depth : ∀ thread store, runs (state.threads thread).frames (.taskStoreLock store) ≤
    state.lockDepth store
  exclusive : ∀ thread other lock, Holds state thread lock → Holds state other lock →
    thread = other
  active : {thread | (state.threads thread).frames ≠ []}.Finite

theorem inv_initial : Inv world rank {} where
  threads _ := threadInv_initial
  depth _ _ := Nat.zero_le _
  exclusive _ _ _ h := by
    obtain ⟨_, hframe, -⟩ := h
    cases hframe
  active := by simp

/-- Only one thread has changed, and it holds nothing that another one does. -/
theorem inv_of_thread (thread : Thread) (h : Inv world rank state)
    (hsame : ∀ other, other ≠ thread → next.threads other = state.threads other)
    (hthread : ThreadInv world rank thread (next.threads thread))
    (hdepth : ∀ other store, runs (next.threads other).frames (.taskStoreLock store) ≤
      next.lockDepth store)
    (hholds : ∀ lock, Holds next thread lock → Holds state thread lock ∨ Free state thread lock) :
    Inv world rank next := by
  have hothers : ∀ other, other ≠ thread → ∀ lock, Holds next other lock →
      Holds state other lock := by
    intro other hother lock hlock
    unfold Holds at hlock ⊢
    rwa [hsame other hother] at hlock
  have honce : ∀ other lock, other ≠ thread → Holds next other lock →
      ¬Holds next thread lock := by
    intro other lock hother hlock hmine
    have hlock := hothers other hother lock hlock
    rcases hholds lock hmine with hmine | hfree
    · exact hother (h.exclusive other thread lock hlock hmine)
    · exact hother (hfree other hlock).2
  constructor
  case threads =>
    intro other
    by_cases hother : other = thread
    · exact hother ▸ hthread
    · rw [hsame other hother]
      exact h.threads other
  case depth => exact hdepth
  case exclusive =>
    intro first second lock hfirst hsecond
    by_cases hone : first = thread
    · by_cases htwo : second = thread
      · rw [hone, htwo]
      · exact absurd (hone ▸ hfirst) (honce second lock htwo hsecond)
    · by_cases htwo : second = thread
      · exact absurd (htwo ▸ hsecond) (honce first lock hone hfirst)
      · exact h.exclusive first second lock (hothers first hone lock hfirst)
          (hothers second htwo lock hsecond)
  case active =>
    refine (h.active.insert thread).subset ?_
    intro other hother
    by_cases heq : other = thread
    · exact Or.inl heq
    · right
      have hother : (next.threads other).frames ≠ [] := hother
      rwa [hsame other heq] at hother

/-- A thread whose call through a store runs has the lock of the store. -/
theorem Inv.holds_store (h : Inv world rank state) {store : Store}
    (hruns : 0 < runs (state.threads thread).frames (.taskStoreLock store)) :
    Holds state thread (.storeThread store) := by
  obtain ⟨frame, hframe, hrunning⟩ := List.countP_pos_iff.mp hruns
  obtain ⟨htrue, hcall⟩ := of_decide_eq_true hrunning
  exact ⟨frame, hframe, (h.threads thread).store frame hframe htrue store hcall⟩

/-- A careful step keeps the invariant. -/
theorem inv_step {event : Event Thread Vault Store} (h : Inv world rank state)
    (hstep : Step world state event next) (hcareful : Careful world rank state event) :
    Inv world rank next := by
  cases hstep with
  | @enter thread call tracker hready hpush =>
      refine inv_of_thread thread h (fun _ hother => set_of_ne hother) ?_ ?_ ?_
      · rw [set_self]
        exact threadInv_enter (h.threads thread) hready hpush hcareful
      · intro other store
        by_cases hother : other = thread
        · subst hother
          have hsame := h.depth other store
          rw [set_self, set_lockDepth]
          simpa [runs, List.countP_cons] using hsame
        · rw [set_of_ne hother]
          exact h.depth other store
      · rintro lock ⟨frame, hframe, hlock⟩
        rw [set_self] at hframe
        rcases List.mem_cons.mp hframe with rfl | hframe
        · cases hlock
        · exact Or.inl ⟨frame, hframe, hlock⟩
  | @take thread frame rest lock hframes hrunning hnext hfree =>
      refine inv_of_thread thread h (fun _ hother => set_of_ne hother) ?_ ?_ ?_
      · rw [set_self]
        exact threadInv_take (h.threads thread) hframes hrunning hnext
      · intro other store
        by_cases hother : other = thread
        · subst hother
          have hsame := h.depth other store
          rw [hframes] at hsame
          rw [set_self, set_lockDepth]
          simpa [runs, List.countP_cons, hrunning] using hsame
        · rw [set_of_ne hother]
          exact h.depth other store
      · rintro taken ⟨other, hother, htaken⟩
        rw [set_self] at hother
        rcases List.mem_cons.mp hother with rfl | hother
        · rcases List.mem_append.mp htaken with htaken | htaken
          · exact Or.inl ⟨frame, by simp [hframes], htaken⟩
          · rw [List.mem_singleton.mp htaken]
            exact Or.inr hfree
        · exact Or.inl ⟨other, by simp [hframes, hother], htaken⟩
  | @run thread frame rest hframes hrunning hnext =>
      refine inv_of_thread thread h
        (fun _ hother => (count_of_ne hother).trans (set_of_ne hother)) ?_ ?_ ?_
      · rw [count_self, set_self]
        exact threadInv_run (h.threads thread) hframes hrunning hnext
      · intro other store
        rw [count_lockDepth, set_lockDepth]
        have hmore : state.lockDepth store ≤
            countStores (· + 1) frame.call state.lockDepth store := by
          by_cases hcall : frame.call = .taskStoreLock store
          · rw [hcall, countStores, Function.update_self]
            omega
          · rw [countStores_of_ne hcall]
        by_cases hother : other = thread
        · subst hother
          have hsame := h.depth other store
          rw [hframes] at hsame
          rw [count_self, set_self]
          have hbefore : runs (frame :: rest) (.taskStoreLock store) =
              runs rest (.taskStoreLock store) := by
            simp [runs, hrunning]
          have hafter : runs ({ frame with running := true } :: rest) (.taskStoreLock store) =
              runs rest (.taskStoreLock store) +
                if frame.call = .taskStoreLock store then 1 else 0 := by
            simp [runs, List.countP_cons]
          rw [hafter]
          by_cases hcall : frame.call = .taskStoreLock store
          · rw [if_pos hcall, hcall, countStores, Function.update_self]
            omega
          · rw [if_neg hcall]
            omega
        · rw [count_of_ne hother, set_of_ne hother]
          exact (h.depth other store).trans hmore
      · rintro lock ⟨other, hother, hlock⟩
        rw [count_self, set_self] at hother
        rcases List.mem_cons.mp hother with rfl | hother
        · exact Or.inl ⟨frame, by simp [hframes], hlock⟩
        · exact Or.inl ⟨other, by simp [hframes, hother], hlock⟩
  | @leave thread frame rest hframes =>
      refine inv_of_thread thread h
        (fun _ hother => (count_of_ne hother).trans (set_of_ne hother)) ?_ ?_ ?_
      · rw [count_self, set_self]
        exact threadInv_leave (h.threads thread) hframes
      · intro other store
        rw [count_lockDepth, set_lockDepth]
        have hmine := h.depth thread store
        rw [hframes] at hmine
        have hbefore : runs (frame :: rest) (.taskStoreLock store) =
            runs rest (.taskStoreLock store) +
              if frame.running = true ∧ frame.call = .taskStoreLock store then 1 else 0 := by
          simp [runs, List.countP_cons]
        by_cases hcounted : frame.running = true ∧ frame.call = .taskStoreLock store
        · obtain ⟨hrunning, hcall⟩ := hcounted
          rw [hbefore, if_pos ⟨hrunning, hcall⟩] at hmine
          rw [hrunning, if_pos rfl, hcall, countStores, Function.update_self]
          by_cases hother : other = thread
          · subst hother
            rw [count_self, set_self]
            show runs rest (.taskStoreLock store) ≤ _
            omega
          · rw [count_of_ne hother, set_of_ne hother]
            -- two threads do not run through one store
            have hnone : ¬0 < runs (state.threads other).frames (.taskStoreLock store) := by
              intro hruns
              have hlock : Holds state thread (.storeThread store) := by
                apply h.holds_store
                rw [hframes, hbefore, if_pos ⟨hrunning, hcall⟩]
                omega
              exact hother (h.exclusive other thread _ (h.holds_store hruns) hlock)
            omega
        · have hsame : countStores (if frame.running then (· - 1) else id) frame.call
              state.lockDepth store = state.lockDepth store := by
            by_cases hcall : frame.call = .taskStoreLock store
            · have hrunning : ¬frame.running = true := fun htrue => hcounted ⟨htrue, hcall⟩
              rw [if_neg hrunning, hcall, countStores, Function.update_self, id]
            · rw [countStores_of_ne hcall]
          rw [hsame]
          rw [hbefore, if_neg hcounted] at hmine
          by_cases hother : other = thread
          · subst hother
            rw [count_self, set_self]
            exact hmine
          · rw [count_of_ne hother, set_of_ne hother]
            exact h.depth other store
      · rintro lock ⟨other, hother, hlock⟩
        rw [count_self, set_self] at hother
        exact Or.inl ⟨other, by simp [hframes, show other ∈ rest from hother], hlock⟩

theorem inv_reached (h : ReachedBy world (Careful world rank) state) : Inv world rank state := by
  induction h with
  | refl => exact inv_initial
  | tail _ hstep ih =>
      obtain ⟨event, hstep, hcareful⟩ := hstep
      exact inv_step ih hstep hcareful

/-! ## Waiting in order -/

/-- Where a call stands that is taking its locks. -/
def position (world : World Thread Process Vault Store) (rank : Lock Process Vault Store → Nat)
    (frame : Frame Process Vault Store) : Nat ×ₗ Nat ×ₗ Nat :=
  toLex (frame.call.level, toLex (rank (frame.call.fileLock world), frame.taken.length))

end PowerFramework.Locks
