import PowerFramework.TaskStore.Artifacts
/-!
# The notes that upkeep looks at

Which notes of a vault are in the scope of its knowledge base, and not ignored.
-/

namespace PowerFramework.Upkeep

open TaskStore

/-- The matching of file names that the standard library does. -/
class PythonPatterns where
  /-- `\d` -/
  isDecimal : Char → Bool
  /-- `fnmatch.fnmatch` -/
  fnmatch : String → String → Bool

/-- Patterns that match nothing but themselves. -/
abbrev plainPatterns : PythonPatterns where
  isDecimal := Char.isDigit
  fnmatch name pattern := name = pattern

/-- `EXCLUDED_DIRS` -/
def excludedDirs : List String := [".git", ".backups", "05_Templates", "scratch",
  ".system_generated", ".agents", "node_modules", ".venv", "venv", "vendor", "site-packages",
  "__pycache__", ".mypy_cache", ".pytest_cache", ".ruff_cache", ".claude", ".github"]

/-- `KB_SCOPE_PREFIXES` -/
def kbScopePrefixes : List String := ["00_Inbox", "01_Projects", "02_Areas", "03_Resources",
  "04_Archive", "06_Daily_Logs", "PROTOCOLS", "brain"]

/-- `rel_path.as_posix()` -/
def asPosix (rel : RelPath) : String := String.intercalate "/" rel

/-- `rel_path.name` -/
def fileName (rel : RelPath) : String := rel.getLast?.getD ""

section
variable [PythonPatterns]

/-- `_DAILY_LOG_RE.match(name)` -/
def isDailyLog (name : String) : Bool :=
  match name.toList with
  | y₁ :: y₂ :: y₃ :: y₄ :: '-' :: m₁ :: m₂ :: '-' :: d₁ :: d₂ :: '_' :: rest =>
      [y₁, y₂, y₃, y₄, m₁, m₂, d₁, d₂].all PythonPatterns.isDecimal &&
      -- `.` is no line break, and `$` stands in front of a last one too
      ".md".toList.isSuffixOf (rest.takeWhile (· ≠ '\n')) &&
      (rest.dropWhile (· ≠ '\n')).length ≤ 1
  | _ => false

/-- `in_kb_scope` -/
def inKbScope (rel : RelPath) : Bool :=
  match rel with
  | [name] => isDailyLog name
  | top :: _ => kbScopePrefixes.contains top
  | [] => false

/-- A rule of `.powerignore`. -/
structure IgnoreRule where
  negated : Bool
  isDir : Bool
  pattern : String
  anchored : Bool
  deriving DecidableEq, Repr

/-- `hit` -/
def IgnoreRule.hits (rule : IgnoreRule) (rel : RelPath) : Bool :=
  let below := asPosix rel = rule.pattern || (rule.pattern ++ "/").toList.isPrefixOf (asPosix rel).toList
  if rule.anchored then below
  else if rule.isDir then rel.contains rule.pattern || below
  else PythonPatterns.fnmatch (fileName rel) rule.pattern

/-- `is_ignored`, by the rules in the cache. -/
def isIgnored (rules : List IgnoreRule) (rel : RelPath) : Bool :=
  rules.foldl (fun ignored rule => if rule.hits rel then !rule.negated else ignored) false

/-- `should_skip` -/
def shouldSkip (rules : List IgnoreRule) (rel : RelPath) : Bool :=
  rel.any excludedDirs.contains || !inKbScope rel || isIgnored rules rel

end

end PowerFramework.Upkeep
