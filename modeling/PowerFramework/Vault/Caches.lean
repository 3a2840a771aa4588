import PowerFramework.Lib.Failure
import PowerFramework.Lib.Grouping
/-!
# Cache namespaces

A vault carries its identity in its directory; the cache namespace of the identity records the path
of the vault.  `vault_cache_dir` makes both, and `prune_vault_caches` removes the namespaces whose
recorded vault is gone.
-/

namespace PowerFramework.Vault

open Lib Lib.Failure Lib.Grouping

/-- The parts of a resolved path. -/
abbrev Path := List String

/-- `.power/vault.json` of a directory. -/
inductive Identity where
  | missing
  | invalid
  | valid (vaultId : String)
  deriving DecidableEq, Repr

/-- `source.json` of a namespace, as `read_cache_source` reads it. -/
inductive CacheSource where
  | unreadable
  | record (vaultId : String) (vaultPath : Path)
  deriving DecidableEq, Repr

/-- The directories with their identities, and the namespaces with their sources. -/
structure Host where
  directories : Path → Option Identity
  namespaces : List (String × Option CacheSource)

/-! ## `vault_cache_dir` -/

/-- The identity of the directory is set. -/
def Host.identify (self : Host) (vaultDir : Path) (vaultId : String) : Host :=
  { self with directories := fun path =>
      if path = vaultDir then some (.valid vaultId) else self.directories path }

/-- `ensure_vault_identity`, with the id a new vault is given. -/
def ensureVaultIdentity (host : Host) (vaultDir : Path) (fresh : String) :
    Except Exn (Host × String) := do
  raiseIf (vaultDir = [])
    (valueError "Vault path must be a dedicated directory, not the filesystem root")
  match host.directories vaultDir with
  | none => .error ⟨"FileNotFoundError", "Vault path does not exist: /" ++ "/".intercalate vaultDir⟩
  | some .missing => pure (host.identify vaultDir fresh, fresh)
  | some .invalid => .error (valueError
      ("Invalid vault identity at /" ++ "/".intercalate (vaultDir ++ [".power", "vault.json"])))
  | some (.valid vaultId) => pure (host, vaultId)

/-- `_write_cache_source`; a failing write is suppressed. -/
def writeCacheSource (source : Option CacheSource) (vaultDir : Path) (vaultId : String)
    (written : Bool) : Option CacheSource :=
  match source with
  | some source => some source
  | none => if written then some (.record vaultId vaultDir) else none

/-- `vault_cache_dir` -/
def vaultCacheDir (host : Host) (vaultDir : Path) (fresh : String) (written : Bool) :
    Except Exn (Host × String) := do
  let (host, vaultId) ← ensureVaultIdentity host vaultDir fresh
  let source := (host.namespaces.lookup vaultId).getD none
  let source := writeCacheSource source vaultDir vaultId written
  pure ({ host with namespaces := put vaultId source host.namespaces }, vaultId)

/-! ## `prune_vault_caches` -/

inductive Verdict where
  | live
  | stale
  | unknown
  deriving DecidableEq, Repr

/-- `classify_cache_namespaces` on one namespace. -/
def classify (host : Host) (name : String) (source : Option CacheSource) : Verdict :=
  match source with
  | none => .unknown
  | some .unreadable => .unknown
  | some (.record vaultId vaultPath) =>
      if vaultId ≠ name then .unknown else
      match host.directories vaultPath with
      | none => .stale
      | some .missing => .unknown
      | some .invalid => .unknown
      | some (.valid vaultId) => if vaultId = name then .live else .stale

/-- How `shutil.rmtree` ends on a namespace: a failure may come before or behind the removal of the
source. -/
inductive Removal where
  | removed
  | failed
  | emptied
  deriving DecidableEq, Repr

/-- `namespace in targets` -/
def isTarget (host : Host) (includeUnknown : Bool) (entry : String × Option CacheSource) : Bool :=
  match classify host entry.1 entry.2 with
  | .live => false
  | .stale => true
  | .unknown => includeUnknown

/-- What is left of a target. -/
def remains (removal : Removal) (entry : String × Option CacheSource) :
    Option (String × Option CacheSource) :=
  match removal with
  | .removed => none
  | .failed => some entry
  | .emptied => some (entry.1, none)

/-- `prune_vault_caches` -/
def pruneVaultCaches (host : Host) (dryRun includeUnknown : Bool) (removal : String → Removal) :
    Host :=
  let pruned := fun entry =>
    if isTarget host includeUnknown entry then remains (removal entry.1) entry else some entry
  if dryRun then host else { host with namespaces := host.namespaces.filterMap pruned }

end PowerFramework.Vault
