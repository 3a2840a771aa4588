import PowerFramework.Lib.Realpath
import PowerFramework.Lib.Text
/-!
# Note paths

`resolve_path_in_vault`: the text of an untrusted path is checked, and the directory it names is
resolved.  What is returned is a Markdown path below the vault, without links on the way; it lies in
an allowed directory unless the last link on the way leads astray
(`resolvePathInVault_contained_iff`).
-/

namespace PowerFramework.Vault

open Lib Lib.Failure Lib.Text Lib.Realpath

/-- The texts of paths, as the standard library reads them. -/
class PathText where
  unquote : String → String
  lower : String → String
  isWindowsPath : String → Bool

/-- `validate_vault_path`: a directory that is not the root of the tree, and neither a link nor a
file as its control directory. -/
structure VaultRoot (tree : Tree) where
  path : List String
  nonempty : path ≠ []
  plain : ∀ component ∈ path, Plain component
  directories : ∀ front, front <+: path → tree front = some .directory
  control : ∀ node, tree (path ++ [".power"]) = some node → node = .directory

section
variable [PathText]

/-- The checks of the text. -/
def checkNotePath (untrusted : String) (allowedDirectories : Option (List String)) :
    Except Exn (List String) := do
  let decoded := PathText.unquote untrusted
  raiseIf (untrusted = "" ∨ decoded.toList.any isControl = true)
    (valueError "Invalid vault-relative path")
  raiseIf (decoded.toList.head? = some '/' ∨ PathText.isWindowsPath decoded = true)
    (valueError "Absolute paths are not allowed")
  raiseIf ('\\' ∈ decoded.toList) (valueError "Windows path separators are not allowed")
  let parts := PosixPath.parts decoded
  raiseIf (parts = [] ∨ "." ∈ parts ∨ ".." ∈ parts) (valueError "Path traversal is not allowed")
  let allowed := allowedDirectories.getD []
  raiseIf (allowed ≠ [] ∧ parts.head?.getD "" ∉ allowed)
    (valueError "Path is outside the allowed vault directories")
  raiseIf (PathText.lower (PosixPath.suffix (parts.getLast?.getD "")) ≠ ".md")
    (valueError "Only Markdown note targets are allowed")
  pure parts

/-- The nearest directory on the way that exists. -/
def existingParent (tree : Tree) (steps : Nat) (root dirs : List String) : List String :=
  (dirs.inits.reverse.find? fun front => pathExists tree steps (root ++ front)).getD []

/-- `parent`, with the checks of the ancestors. -/
def resolveParent (tree : Tree) (steps : Nat) (root dirs : List String)
    (allowMissingParent : Bool) : Except Exn (List String) := do
  let parent ← walk tree (!allowMissingParent) steps [] (root ++ dirs)
  raiseIf (¬ root <+: parent) (valueError "parent is not in the subpath of the vault")
  let existing := existingParent tree steps root dirs
  let linked := dirs.inits.any fun front =>
    existing.length ≤ front.length && islink tree steps (root ++ front)
  raiseIf (allowMissingParent = true ∧ linked = true)
    (valueError "Target parent must not contain a symlink")
  pure parent

/-- `except (FileNotFoundError, ValueError)` -/
def outsideVault (e : Exn) : Exn :=
  if e.kind ∈ ["FileNotFoundError", "ValueError"] then
    valueError "Target parent is outside the vault or does not exist"
  else e

/-- `resolve_path_in_vault` -/
def resolvePathInVault {tree : Tree} (vault : VaultRoot tree) (steps : Nat) (untrusted : String)
    (allowedDirectories : Option (List String)) (allowMissingParent : Bool) :
    Except Exn (List String) := do
  let parts ← checkNotePath untrusted allowedDirectories
  let parent ← (resolveParent tree steps vault.path parts.dropLast allowMissingParent).mapError
    outsideVault
  let target := parent ++ [parts.getLast?.getD ""]
  raiseIf (isLink tree target = true) (valueError "Symlink note targets are not allowed")
  pure target

/-! ## What is returned -/

/-- The directory lies in one of the named ones. -/
def Within (root names parent : List String) : Prop :=
  ∃ first rest, parent = root ++ first :: rest ∧ first ∈ names

/-- A Markdown path below the vault; no place on the way is a link, and if the parent must exist
every place before the last exists.  The first directory is an allowed one. -/
structure Contained {tree : Tree} (vault : VaultRoot tree) (allowedDirectories : Option (List String))
    (allowMissingParent : Bool) (target : List String) : Prop where
  markdown : PathText.lower (PosixPath.suffix (target.getLast?.getD "")) = ".md"
  below : vault.path <+: target.dropLast
  unlinked : ∀ front, front <+: target → isLink tree front = false
  present : allowMissingParent = false → ∀ front, front <+: target.dropLast → tree front ≠ none
  allowed : ∀ names, allowedDirectories = some names → Within vault.path names target.dropLast

/-- The path names no directory, or its last link leads into the vault but not into an allowed
directory. -/
def Astray {tree : Tree} (vault : VaultRoot tree) (names : List String) (untrusted : String)
    (allowMissingParent : Bool) : Prop :=
  let dirs := (PosixPath.parts (PathText.unquote untrusted)).dropLast
  names = [] ∨ dirs = [] ∨ ∃ place rest,
    LastLink tree (!allowMissingParent) vault.path dirs place rest ∧
      vault.path <+: place ++ rest ∧ ¬ Within vault.path names (place ++ rest)

variable {tree : Tree} {vault : VaultRoot tree} {steps : Nat} {untrusted : String}
  {allowedDirectories : Option (List String)} {allowMissingParent : Bool}
  {parts parent target : List String}

/-- What the checks of the text have found. -/
structure CheckedPath (untrusted : String) (allowedDirectories : Option (List String))
    (parts : List String) : Prop where
  parts_eq : parts = PosixPath.parts (PathText.unquote untrusted)
  nonempty : parts ≠ []
  plain : ∀ part ∈ parts, Plain part
  head : ∀ names, allowedDirectories = some names → names ≠ [] → parts.head?.getD "" ∈ names
  markdown : PathText.lower (PosixPath.suffix (parts.getLast?.getD "")) = ".md"

theorem checkedPath (h : checkNotePath untrusted allowedDirectories = .ok parts) :
    CheckedPath untrusted allowedDirectories parts := by
  unfold checkNotePath at h
  obtain ⟨⟨⟩, -, h⟩ := bind_eq_ok.mp h
  obtain ⟨⟨⟩, -, h⟩ := bind_eq_ok.mp h
  obtain ⟨⟨⟩, -, h⟩ := bind_eq_ok.mp h
  obtain ⟨⟨⟩, htraversal, h⟩ := bind_eq_ok.mp h
  obtain ⟨⟨⟩, hallowed, h⟩ := bind_eq_ok.mp h
  obtain ⟨⟨⟩, hmarkdown, h⟩ := bind_eq_ok.mp h
  cases h
  rw [raiseIf_eq_ok, not_or, not_or] at htraversal
  rw [raiseIf_eq_ok, not_and, not_not] at hallowed
  rw [raiseIf_eq_ok, not_not] at hmarkdown
  refine ⟨rfl, htraversal.1, ?_, ?_, hmarkdown⟩
  · intro part hpart
    have hkept := of_decide_eq_true (List.mem_filter.mp hpart).2
    refine ⟨hkept.1, hkept.2, ?_⟩
    rintro rfl
    exact htraversal.2.2 hpart
  · rintro names rfl hne
    exact hallowed hne

omit [PathText] in
theorem VaultRoot.isLink (vault : VaultRoot tree) {front : List String}
    (h : front <+: vault.path) : isLink tree front = false := by
  rw [Realpath.isLink, vault.directories front h]

omit [PathText] in
/-- The named directory leads to the parent, which lies in the vault. -/
theorem leads_of_resolveParent {dirs : List String}
    (h : resolveParent tree steps vault.path dirs allowMissingParent = .ok parent) :
    Leads tree (!allowMissingParent) vault.path dirs parent ∧ vault.path <+: parent := by
  unfold resolveParent at h
  obtain ⟨place, hplace, h⟩ := bind_eq_ok.mp h
  obtain ⟨⟨⟩, hbelow, h⟩ := bind_eq_ok.mp h
  obtain ⟨⟨⟩, -, h⟩ := bind_eq_ok.mp h
  cases h
  rw [raiseIf_eq_ok, not_not] at hbelow
  obtain ⟨mid, hroot, hdirs⟩ := leads_append.mp ⟨steps, hplace⟩
  have hunlinked : Unlinked tree [] vault.path := by
    intro front _ hfront
    exact vault.isLink hfront
  rw [hroot.unlinked vault.plain hunlinked, List.nil_append] at hdirs
  exact ⟨hdirs, hbelow⟩

/-- A returned target is the resolved parent and the name. -/
theorem returned (h : resolvePathInVault vault steps untrusted allowedDirectories
      allowMissingParent = .ok target) :
    ∃ parts parent, CheckedPath untrusted allowedDirectories parts ∧
      Leads tree (!allowMissingParent) vault.path parts.dropLast parent ∧ vault.path <+: parent ∧
      target = parent ++ [parts.getLast?.getD ""] ∧ isLink tree target = false := by
  unfold resolvePathInVault at h
  obtain ⟨parts, hparts, h⟩ := bind_eq_ok.mp h
  obtain ⟨parent, hparent, h⟩ := bind_eq_ok.mp h
  obtain ⟨⟨⟩, hlink, h⟩ := bind_eq_ok.mp h
  cases h
  rw [raiseIf_eq_ok, Bool.not_eq_true] at hlink
  have hresolved : resolveParent tree steps vault.path parts.dropLast allowMissingParent =
      .ok parent := by
    cases hresolve : resolveParent tree steps vault.path parts.dropLast allowMissingParent with
    | error e =>
      rw [hresolve] at hparent
      cases hparent
    | ok place =>
      rw [hresolve] at hparent
      exact hparent
  obtain ⟨hleads, hbelow⟩ := leads_of_resolveParent hresolved
  exact ⟨parts, parent, checkedPath hparts, hleads, hbelow, rfl, hlink⟩

/-- The resolved parent lies in an allowed directory unless the path is led astray. -/
theorem within_iff {names : List String} (hchecked : CheckedPath untrusted (some names) parts)
    (hleads : Leads tree (!allowMissingParent) vault.path parts.dropLast parent)
    (hbelow : vault.path <+: parent) :
    Within vault.path names parent ↔ ¬ Astray vault names untrusted allowMissingParent := by
  have hplain : ∀ c ∈ parts.dropLast, Plain c := fun c hc =>
    hchecked.plain c (List.mem_of_mem_dropLast hc)
  rw [Astray, ← hchecked.parts_eq]
  constructor
  · rintro ⟨first, rest, hwithin, hfirst⟩ (rfl | hnone | ⟨place, behind, hlast, -, hastray⟩)
    · cases hfirst
    · rw [hnone] at hleads
      rw [leads_nil.mp hleads] at hwithin
      simp at hwithin
    · rw [← hlast.ends hplain hleads] at hastray
      exact hastray ⟨first, rest, hwithin, hfirst⟩
  · intro hstraight
    simp only [not_or] at hstraight
    obtain ⟨hnames, hdirs, hlast⟩ := hstraight
    rcases hleads.last_link hplain with hunlinked | ⟨place, rest, hlink⟩
    · -- without a link the parent is the directory that was checked
      have hhead := hchecked.head names rfl hnames
      rw [hleads.unlinked hplain hunlinked]
      cases hparts : parts.dropLast with
      | nil => exact absurd hparts hdirs
      | cons first rest =>
        refine ⟨first, rest, rfl, ?_⟩
        cases parts with
        | nil => cases hparts
        | cons head tail =>
          cases tail with
          | nil => cases hparts
          | cons second tail =>
            rw [List.dropLast_cons_cons, List.cons.injEq] at hparts
            rw [← hparts.1]
            exact hhead
    · have hplace := hlink.ends hplain hleads
      rw [hplace]
      by_contra hastray
      exact hlast ⟨place, rest, hlink, by rw [← hplace]; exact hbelow, hastray⟩

/-- A returned target is contained in the vault and the allowed directories, unless the last link on
the way leads into another directory of the vault. -/
theorem resolvePathInVault_contained_iff (h : resolvePathInVault vault steps untrusted
      allowedDirectories allowMissingParent = .ok target) :
    Contained vault allowedDirectories allowMissingParent target ↔
      ∀ names, allowedDirectories = some names →
        ¬ Astray vault names untrusted allowMissingParent := by
  obtain ⟨parts, parent, hchecked, hleads, hbelow, rfl, hlink⟩ := returned h
  constructor
  · rintro hcontained names rfl
    have hwithin := hcontained.allowed names rfl
    rw [List.dropLast_concat] at hwithin
    exact (within_iff hchecked hleads hbelow).mp hwithin
  · intro hstraight
    refine ⟨?_, ?_, ?_, ?_, ?_⟩
    · rw [List.getLast?_concat]
      exact hchecked.markdown
    · rw [List.dropLast_concat]
      exact hbelow
    · intro front hfront
      rcases List.prefix_concat_iff.mp hfront with rfl | hfront
      · exact hlink
      · apply hleads.forall_prefix (P := fun other => isLink tree other = false) _ _ front hfront
        · exact fun other hother _ => hother
        · exact fun other hother => vault.isLink hother
    · rintro rfl front hfront
      rw [List.dropLast_concat] at hfront
      apply hleads.forall_prefix (P := fun other => tree other ≠ none) _ _ front hfront
      · exact fun other _ hexists => hexists rfl
      · intro other hother
        rw [vault.directories other hother]
        exact Option.some_ne_none _
    · rintro names rfl
      rw [List.dropLast_concat]
      exact (within_iff hchecked hleads hbelow).mpr (hstraight names rfl)

end

/-! ## Examples -/

/-- Texts without escapes, drives and letters beyond ASCII. -/
abbrev plainText : PathText where
  unquote text := text
  lower text := String.ofList (text.toList.map Char.toLower)
  isWindowsPath _ := false

/-- A vault with one folder, which may be a link to the control directory. -/
def folderTree (folder : Node) : Tree := fun place =>
  if place = [] ∨ place = ["vault"] ∨ place = ["vault", ".power"] then some .directory
  else if place = ["vault", "01_Projects"] then some folder
  else none

def folderVault (folder : Node) : VaultRoot (folderTree folder) where
  path := ["vault"]
  nonempty := List.cons_ne_nil _ _
  plain := by
    intro component hcomponent
    rw [List.mem_singleton.mp hcomponent]
    exact ⟨by decide, by decide, by decide⟩
  directories := by
    intro front hfront
    rcases List.prefix_concat_iff.mp (show front <+: [] ++ ["vault"] from hfront) with rfl | hfront
    · rfl
    · rw [List.prefix_nil.mp hfront]
      rfl
  control := by
    intro node hnode
    exact (Option.some.inj hnode).symm

theorem contained_folder :
    @Contained plainText _ (folderVault .directory) (some ["01_Projects"]) false
        ["vault", "01_Projects", "plan.md"] ↔
      ∀ names, some ["01_Projects"] = some names →
        ¬ @Astray plainText _ (folderVault .directory) names "01_Projects/plan.md" false :=
  @resolvePathInVault_contained_iff plainText _ (folderVault .directory) 8 "01_Projects/plan.md"
    (some ["01_Projects"]) false _ rfl

/-- A folder that is a link to the control directory leads there. -/
theorem not_forall_contained : ¬ ∀ (_ : PathText) (tree : Tree) (vault : VaultRoot tree)
    (steps : Nat) (untrusted : String) (allowedDirectories : Option (List String))
    (allowMissingParent : Bool) (target : List String),
    resolvePathInVault vault steps untrusted allowedDirectories allowMissingParent = .ok target →
      Contained vault allowedDirectories allowMissingParent target := by
  intro h
  have hcontained := h plainText _ (folderVault (.symlink ".power")) 8 "01_Projects/plan.md"
    (some ["01_Projects"]) false ["vault", ".power", "plan.md"] rfl
  obtain ⟨first, rest, hwithin, hfirst⟩ := @Contained.allowed plainText _ _ _ _ _ hcontained _ rfl
  obtain ⟨rfl, -⟩ : ".power" = first ∧ [] = rest := by simpa [folderVault] using hwithin
  exact absurd hfirst (by decide)

end PowerFramework.Vault
