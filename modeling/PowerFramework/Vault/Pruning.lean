import PowerFramework.Vault.Caches
/-!
# Pruning spares the vaults in use

Vault directories are created, moved, copied and deleted, vaults ask for their cache directory, and
caches are pruned.  As long as no vault asks for a namespace that records another path, pruning
spares the namespace of every vault that has asked at its present path (`prune_spares`).
-/

namespace PowerFramework.Vault

open Lib Lib.Failure Lib.Grouping

/-! ## Directories -/

/-- `mkdir -p` -/
def created (directories : Path → Option Identity) (new : Path) : Path → Option Identity :=
  fun path => if path <+: new ∧ directories path = none then some .missing else directories path

/-- What stood below the source stands below the target. -/
def copied (directories : Path → Option Identity) (source target : Path) :
    Path → Option Identity :=
  fun path => if target <+: path then directories (source ++ path.drop target.length)
    else directories path

def deleted (directories : Path → Option Identity) (gone : Path) : Path → Option Identity :=
  fun path => if gone <+: path then none else directories path

/-- A directory can be moved or copied to a place that is free and not below it. -/
def Free (directories : Path → Option Identity) (source target : Path) : Prop :=
  directories source ≠ none ∧ directories target = none ∧ ¬ source <+: target

instance (directories : Path → Option Identity) (source target : Path) :
    Decidable (Free directories source target) := instDecidableAnd

/-! ## Runs -/

/-- What happens on the host. -/
inductive Op where
  | create (path : Path)
  | move (source target : Path)
  | copy (source target : Path)
  | delete (path : Path)
  | cacheDir (vaultDir : Path) (fresh : String) (written : Bool)
  | prune (removal : String → Removal)

/-- The host, and which vaults have called `vault_cache_dir` since they came to their paths. -/
structure Tracked where
  host : Host
  called : Path → Bool

namespace Tracked

/-- The directories are changed; what stands at the paths that are affected has not called. -/
def rearrange (self : Tracked) (directories : Path → Option Identity) (affected : Path → Prop)
    [DecidablePred affected] : Tracked where
  host := { self.host with directories := directories }
  called path := self.called path && !decide (affected path)

def after (self : Tracked) : Op → Tracked
  | .create path => self.rearrange (created self.host.directories path)
      fun other => self.host.directories other = none
  | .move source target =>
      if Free self.host.directories source target then
        self.rearrange (deleted (copied self.host.directories source target) source)
          fun path => source <+: path ∨ target <+: path
      else self
  | .copy source target =>
      if Free self.host.directories source target then
        self.rearrange (copied self.host.directories source target) fun path => target <+: path
      else self
  | .delete path => self.rearrange (deleted self.host.directories path) fun other => path <+: other
  | .cacheDir vaultDir fresh written =>
      match vaultCacheDir self.host vaultDir fresh written with
      | .error _ => self
      | .ok (host, _) =>
          { host := host, called := fun path => path = vaultDir || self.called path }
  | .prune removal => { self with host := pruneVaultCaches self.host false false removal }

/-- The host with no vault that has called. -/
def initial (host : Host) : Tracked := ⟨host, fun _ => false⟩

/-- The namespace that a vault asks for records no other path; if it records none yet, no other
vault that has called carries the identity. -/
def Unclaimed (self : Tracked) (vaultDir : Path) (vaultId : String) : Prop :=
  match (self.host.namespaces.lookup vaultId).getD none with
  | some (.record recorded path) => recorded = vaultId → path = vaultDir
  | some .unreadable => True
  | none => ∀ path, self.called path = true → self.host.directories path = some (.valid vaultId) →
      path = vaultDir

/-- A vault that asks for its cache directory asks for a namespace that is not claimed. -/
def Meets (self : Tracked) : Op → Prop
  | .cacheDir vaultDir fresh _ => ∀ host vaultId,
      ensureVaultIdentity self.host vaultDir fresh = .ok (host, vaultId) →
      self.Unclaimed vaultDir vaultId
  | _ => True

/-- All steps of the run meet the condition. -/
def AllMeet : Tracked → List Op → Prop
  | _, [] => True
  | self, op :: ops => self.Meets op ∧ (self.after op).AllMeet ops

/-- However the removal ends, pruning leaves the namespace of every vault that has called. -/
def Spared (self : Tracked) : Prop :=
  ∀ path vaultId removal, self.called path = true →
    self.host.directories path = some (.valid vaultId) →
    ∃ source, self.host.namespaces.lookup vaultId = some source ∧
      (pruneVaultCaches self.host false false removal).namespaces.lookup vaultId = some source

/-! ## Steps -/

/-- A vault that has called has a namespace, which records no other path. -/
def Sound (self : Tracked) : Prop :=
  ∀ path, self.called path = true → ∃ vaultId source,
    self.host.directories path = some (.valid vaultId) ∧
    self.host.namespaces.lookup vaultId = some source ∧
    ∀ recorded, source = some (.record vaultId recorded) → recorded = path

end Tracked

section
variable {t : Tracked} {host : Host} {vaultDir path : Path} {vaultId fresh : String}
  {written : Bool} {directories : Path → Option Identity}

theorem sound_rearrange {affected : Path → Prop} [DecidablePred affected] (h : t.Sound)
    (hkept : ∀ path, ¬ affected path → t.host.directories path ≠ none →
      directories path = t.host.directories path) :
    (t.rearrange directories affected).Sound := by
  intro path hcalled
  obtain ⟨hbefore, haffected⟩ := (Bool.and_eq_true _ _).mp hcalled
  rw [Bool.not_eq_true', decide_eq_false_iff_not] at haffected
  obtain ⟨vaultId, source, hidentity, hlookup, hrecorded⟩ := h path hbefore
  have hexists : t.host.directories path ≠ none := by
    rw [hidentity]
    exact Option.some_ne_none _
  refine ⟨vaultId, source, ?_, hlookup, hrecorded⟩
  show directories path = _
  rw [hkept path haffected hexists, hidentity]

theorem ensureVaultIdentity_cases
    (h : ensureVaultIdentity t.host vaultDir fresh = .ok (host, vaultId)) :
    host.namespaces = t.host.namespaces ∧ host.directories vaultDir = some (.valid vaultId) ∧
      ∀ path, path ≠ vaultDir → host.directories path = t.host.directories path := by
  unfold ensureVaultIdentity at h
  obtain ⟨⟨⟩, -, h⟩ := bind_eq_ok.mp h
  split at h
  · cases h
  · cases h
    refine ⟨rfl, if_pos rfl, ?_⟩
    intro path hne
    exact if_neg hne
  · cases h
  · rename_i hvalid
    cases h
    exact ⟨rfl, hvalid, fun _ _ => rfl⟩

theorem vaultCacheDir_cases {after : Host}
    (h : vaultCacheDir t.host vaultDir fresh written = .ok (after, vaultId)) :
    ∃ host, ensureVaultIdentity t.host vaultDir fresh = .ok (host, vaultId) ∧
      ∃ source, source = writeCacheSource ((host.namespaces.lookup vaultId).getD none) vaultDir
        vaultId written ∧
      after = { host with namespaces := put vaultId source host.namespaces } := by
  unfold vaultCacheDir at h
  obtain ⟨⟨host, found⟩, hensure, h⟩ := bind_eq_ok.mp h
  cases h
  exact ⟨host, hensure, _, rfl, rfl⟩

/-- What is recorded for an unclaimed namespace is the path of the vault that asks. -/
theorem recorded_of_unclaimed {source : Option CacheSource} {recorded : Path}
    (hunclaimed : t.Unclaimed vaultDir vaultId)
    (hsource : source = (t.host.namespaces.lookup vaultId).getD none)
    (h : writeCacheSource source vaultDir vaultId written = some (.record vaultId recorded)) :
    recorded = vaultDir := by
  rw [Tracked.Unclaimed, ← hsource] at hunclaimed
  cases source with
  | some source =>
    have heq : source = .record vaultId recorded := Option.some.inj h
    rw [heq] at hunclaimed
    exact hunclaimed rfl
  | none =>
    cases written with
    | true =>
      cases h
      rfl
    | false => cases h

/-- A vault that asks for an unclaimed namespace gets one that records no other path, and no other
vault loses its own. -/
theorem sound_cacheDir (h : t.Sound) (hmeets : t.Meets (.cacheDir vaultDir fresh written)) :
    (t.after (.cacheDir vaultDir fresh written)).Sound := by
  rw [Tracked.after]
  split
  · exact h
  · rename_i after vaultId hcache
    obtain ⟨host, hensure, source, hsource, rfl⟩ := vaultCacheDir_cases hcache
    obtain ⟨hnamespaces, hown, hothers⟩ := ensureVaultIdentity_cases hensure
    have hunclaimed := hmeets host vaultId hensure
    rw [hnamespaces] at hsource
    intro path hcalled
    show ∃ found held, host.directories path = some (.valid found) ∧
      (put vaultId source host.namespaces).lookup found = some held ∧
        ∀ recorded, held = some (.record found recorded) → recorded = path
    rw [hnamespaces]
    by_cases hpath : path = vaultDir
    · rw [hpath]
      refine ⟨vaultId, source, hown, by rw [lookup_put, if_pos rfl], ?_⟩
      intro recorded hrecorded
      rw [hsource] at hrecorded
      exact recorded_of_unclaimed hunclaimed rfl hrecorded
    · have hbefore : t.called path = true := by simpa [hpath] using hcalled
      obtain ⟨found, held, hidentity, hlookup, hrecorded⟩ := h path hbefore
      refine ⟨found, held, (hothers path hpath).trans hidentity, ?_, hrecorded⟩
      rw [lookup_put]
      split_ifs with hsame
      · -- the namespace has a source already, or the vault that asks is the only one
        rw [← hsame] at hsource hunclaimed
        rw [hlookup, Option.getD_some] at hsource
        rw [Tracked.Unclaimed, hlookup, Option.getD_some] at hunclaimed
        cases held with
        | some kept => rw [hsource]; rfl
        | none => exact absurd (hunclaimed path hbefore hidentity) hpath
      · exact hlookup

/-- What stays in the list is found as before. -/
theorem lookup_filterMap {d : List (String × Option CacheSource)} {source : Option CacheSource}
    {f : String × Option CacheSource → Option (String × Option CacheSource)}
    (hkeys : ∀ entry left, f entry = some left → left.1 = entry.1)
    (hkept : f (vaultId, source) = some (vaultId, source))
    (h : d.lookup vaultId = some source) : (d.filterMap f).lookup vaultId = some source := by
  induction d with
  | nil => cases h
  | cons entry d ih =>
    obtain ⟨name, other⟩ := entry
    rw [lookup_cons] at h
    split_ifs at h with hname
    · rw [← hname, Option.some.inj h, List.filterMap_cons, hkept]
      show List.lookup vaultId ((vaultId, source) :: d.filterMap f) = some source
      rw [lookup_cons, if_pos rfl]
    · rw [List.filterMap_cons]
      cases hleft : f (name, other) with
      | none => exact ih h
      | some left =>
        obtain ⟨key, value⟩ := left
        have hkey : key = name := hkeys _ _ hleft
        show List.lookup vaultId ((key, value) :: d.filterMap f) = some source
        rw [lookup_cons, if_neg (by rw [hkey]; exact hname)]
        exact ih h

/-- Pruning keeps a namespace that is not stale. -/
theorem lookup_pruneVaultCaches {source : Option CacheSource} {removal : String → Removal}
    (h : host.namespaces.lookup vaultId = some source)
    (hverdict : classify host vaultId source ≠ .stale) :
    (pruneVaultCaches host false false removal).namespaces.lookup vaultId = some source := by
  apply lookup_filterMap (d := host.namespaces) _ _ h
  · intro entry left hleft
    split_ifs at hleft
    · cases hremoval : removal entry.1 <;> rw [hremoval] at hleft <;> cases hleft <;> rfl
    · cases hleft
      rfl
  · have htarget : isTarget host false (vaultId, source) = false := by
      unfold isTarget
      cases hclass : classify host vaultId source with
      | live => rfl
      | stale => exact absurd hclass hverdict
      | unknown => rfl
    rw [htarget]
    rfl

/-- The namespace of a vault that has called is not stale. -/
theorem not_stale {source : Option CacheSource} (hidentity : host.directories path =
      some (.valid vaultId))
    (hrecorded : ∀ recorded, source = some (.record vaultId recorded) → recorded = path) :
    classify host vaultId source ≠ .stale := by
  unfold classify
  split
  · decide
  · decide
  · rename_i found recorded
    split_ifs with hsame
    · decide
    · rw [not_not] at hsame
      rw [hsame] at hrecorded
      rw [hrecorded recorded rfl, hidentity]
      simp

theorem sound_prune {removal : String → Removal} (h : t.Sound) :
    (t.after (.prune removal)).Sound := by
  intro path hcalled
  obtain ⟨vaultId, source, hidentity, hlookup, hrecorded⟩ := h path hcalled
  exact ⟨vaultId, source, hidentity,
    lookup_pruneVaultCaches hlookup (not_stale hidentity hrecorded), hrecorded⟩

/-- One step that meets the condition. -/
theorem sound_after {op : Op} (h : t.Sound) (hmeets : t.Meets op) : (t.after op).Sound := by
  cases op with
  | create new =>
    apply sound_rearrange h
    intro path hexists _
    exact if_neg fun hnew => hexists hnew.2
  | move source target =>
    rw [Tracked.after]
    split_ifs
    · apply sound_rearrange h
      intro path haffected _
      rw [not_or] at haffected
      rw [deleted, if_neg haffected.1, copied, if_neg haffected.2]
    · exact h
  | copy source target =>
    rw [Tracked.after]
    split_ifs
    · apply sound_rearrange h
      intro path haffected _
      exact if_neg haffected
    · exact h
  | delete gone =>
    apply sound_rearrange h
    intro path haffected _
    exact if_neg haffected
  | cacheDir vaultDir fresh written => exact sound_cacheDir h hmeets
  | prune removal => exact sound_prune h

theorem Tracked.Sound.spared (h : t.Sound) : t.Spared := by
  intro path vaultId removal hcalled hidentity
  obtain ⟨found, source, hfound, hlookup, hrecorded⟩ := h path hcalled
  rw [hidentity] at hfound
  cases hfound
  exact ⟨source, hlookup, lookup_pruneVaultCaches hlookup (not_stale hidentity hrecorded)⟩

theorem sound_run {ops : List Op} (h : t.Sound) (hmeet : t.AllMeet ops) :
    (ops.foldl Tracked.after t).Sound := by
  induction ops generalizing t with
  | nil => exact h
  | cons op ops ih => exact ih (sound_after h hmeet.1) hmeet.2

end

/-! ## Runs that spare the vaults in use -/

/-- In a run in which no vault asks for a claimed namespace, pruning spares every vault in use. -/
theorem prune_spares (host : Host) (ops : List Op) (h : (Tracked.initial host).AllMeet ops) :
    (ops.foldl Tracked.after (Tracked.initial host)).Spared := by
  have hsound : (Tracked.initial host).Sound := by
    intro path hcalled
    cases hcalled
  exact (sound_run hsound h).spared

/-- A host without directories and caches. -/
def emptyHost : Host := ⟨fun _ => none, []⟩

def notesId : String := "7c9e6679-7425-40de-944b-e07fc1f90ae7"

theorem prune_spares_calling :
    ([Op.create ["notes"], .cacheDir ["notes"] notesId true, .prune fun _ => .removed].foldl
      Tracked.after (Tracked.initial emptyHost)).Spared := by
  apply prune_spares
  refine ⟨trivial, ?_, trivial, trivial⟩
  intro host vaultId _ path hcalled
  cases hcalled

/-- A vault asks for its cache directory, is moved, and asks again at its new path. -/
def movedVault : List Op :=
  [.create ["notes"], .cacheDir ["notes"] notesId true, .move ["notes"] ["vault"],
    .cacheDir ["vault"] notesId true]

/-- The namespace of a vault that was moved still records the old path. -/
theorem pruned_moved : ¬ ∀ (host : Host) (ops : List Op),
    (ops.foldl Tracked.after (Tracked.initial host)).Spared := by
  intro h
  obtain ⟨source, -, hpruned⟩ :=
    h emptyHost movedVault ["vault"] notesId (fun _ => .removed) rfl rfl
  have hgone : (pruneVaultCaches (movedVault.foldl Tracked.after
      (Tracked.initial emptyHost)).host false false fun _ => .removed).namespaces = [] := rfl
  rw [hgone] at hpruned
  cases hpruned

end PowerFramework.Vault
