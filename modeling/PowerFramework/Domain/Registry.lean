import PowerFramework.Retrieval.Contracts
import PowerFramework.State.ProjectState
/-!
# The domain registry

The configuration file of a vault, and `load_domain_registry`, the strict reader of its first
version.
-/

namespace PowerFramework.Domain

open Lib Lib.Failure Lib.Json Lib.Text State Search Retrieval

/-! ## The configuration file -/

def domainConfigError (message : String) : Exn := ⟨"DomainConfigError", message⟩

/-- What the loaders are told about the configuration of a vault. -/
structure DomainConfig where
  /-- `_domain_config_path_info`: whether the path was set explicitly, or the message of its
  error. -/
  explicit : Except String Bool
  /-- The YAML of the file, if there is one; the message of an error names the label. -/
  yaml : Option (Except (String → String) Value)
  /-- Why `_validate_vault_path` refuses a path of the vault, given the label. -/
  refusal : String → Option (String → String)

/-- `_domain_config_path_info(root)` -/
def DomainConfig.pathInfo (config : DomainConfig) : Except Exn Bool :=
  config.explicit.mapError domainConfigError

/-- `_load_yaml(config_path, label=label, root=root)` -/
def loadYaml (yaml : Except (String → String) Value) (label : String) : Except Exn Value :=
  yaml.mapError fun message => domainConfigError (message label)

/-- `value is None` -/
def isNone : Value → Bool
  | .null => true
  | _ => false

/-- `_check_keys` -/
def checkKeys (raw : Value) (allowed : List String) (context : String) : Except Exn Dict :=
  match raw with
  | .dict items =>
      if items.all fun item => decide (item.1 ∈ allowed) then .ok items
      else .error (domainConfigError (context ++ " contains unknown fields"))
  | _ => .error (domainConfigError (context ++ " must be a mapping"))

/-! ## Paths -/

/-- The parts of `Path(text)`, its root aside. -/
def pathParts (text : String) : List String :=
  ((text.toList.splitOn '/').map String.ofList).filter fun part => part ≠ "" && part ≠ "."

/-- `Path(text).as_posix()` of a relative path. -/
def asPosix (text : String) : String :=
  if pathParts text = [] then "." else "/".intercalate (pathParts text)

section
variable [PythonText]

/-- `text.casefold().startswith(("file:", "http:", "https:"))` -/
def hasScheme (text : String) : Bool :=
  ["file:", "http:", "https:"].any fun scheme => startsWith scheme (PythonText.casefold text)

/-- `_relative_safe`, with the checks of `_path_text`. -/
def relativeSafe (value : Value) (field : String) : Except Exn String :=
  match value with
  | .str s => do
      let text := stripText s
      raiseIf (text = "")
        (domainConfigError ("domain " ++ field ++ " must be a non-empty relative path"))
      raiseIf (1024 < text.length)
        (domainConfigError ("domain " ++ field ++ " exceeds its length bound"))
      raiseIf (hasControl text || isWithin "\\" text || isDrive text || isWithin "://" text ||
          hasScheme text)
        (domainConfigError ("domain " ++ field ++ " contains unsafe characters"))
      raiseIf (startsWith "/" text || decide (".." ∈ pathParts text) || pathParts text = [])
        (domainConfigError ("domain " ++ field ++ " must stay inside the vault"))
      return asPosix text
  | _ => .error (domainConfigError ("domain " ++ field ++ " must be a non-empty relative path"))

/-- `_validate_vault_path(root, root / path, label=label, allow_missing=True)` -/
def validateVaultPath (config : DomainConfig) (path label : String) : Except Exn Unit :=
  match config.refusal path with
  | some message => .error (domainConfigError (message label))
  | none => .ok ()

/-! ## Rules -/

/-- The value of a finite double. -/
def doubleValue (x : Double) : ℚ :=
  (if x.negative then -1 else 1) * x.scaled / 2 ^ 1074

/-- `float(n)` raises an `OverflowError`. -/
def overflows (n : Int) : Bool := 2 ^ 1024 - 2 ^ 970 ≤ n.natAbs

/-- `_bounded_weight` -/
def boundedWeight (value : Value) (field : String) : Except Exn ℚ :=
  let bounded (weight : ℚ) : Except Exn ℚ :=
    if 0 < weight ∧ weight ≤ 1000000 then .ok weight
    else .error (domainConfigError (field ++ " must be finite and bounded"))
  match value with
  | .int n =>
      if overflows n then .error (domainConfigError (field ++ " must be finite")) else bounded n
  | .float x =>
      if x.isFinite then bounded (doubleValue x)
      else .error (domainConfigError (field ++ " must be finite and bounded"))
  | _ => .error (domainConfigError (field ++ " must be numeric"))

/-- `DomainRule` -/
structure DomainRule where
  keywords : List String
  tags : List String
  types : List String
  weight : ℚ
  deriving DecidableEq, Repr

/-- `all(isinstance(item, str) for item in value)`, with the texts. -/
def allTexts : List Value → Option (List String) := List.mapM fun
  | .str s => some s
  | _ => none

/-- `_string_tuple` -/
def stringTuple (value : Value) (field : String) : Except Exn (List String) :=
  let malformed := domainConfigError ("domain rule " ++ field ++ " must be a list of strings")
  match value with
  | .null => .ok []
  | .list items =>
      match if items.length ≤ 64 then allTexts items else none with
      | none => .error malformed
      | some texts => do
          let result := (texts.filter fun s => stripText s ≠ "").map fun s =>
            PythonText.casefold (stripText s)
          raiseIf (result = [])
            (domainConfigError ("domain rule " ++ field ++ " must contain a value"))
          raiseIf (result.any hasControl)
            (domainConfigError ("domain rule " ++ field ++ " contains unsafe text"))
          return result
  | _ => .error malformed

/-- `_V1_RULE_FIELDS` -/
def v1RuleFields : List String := ["keywords", "terms", "contains", "tags", "types", "weight"]

/-- `_parse_rule` -/
def parseRule (raw : Value) : Except Exn DomainRule := do
  let fields ← checkKeys raw v1RuleFields "domain rule"
  raiseIf (1 < (["keywords", "terms", "contains"].filter (hasItem fields)).length)
    (domainConfigError "domain rule keyword aliases are mutually exclusive")
  let keywords := getItemD fields "keywords" (getItemD fields "terms" (getItem fields "contains"))
  let tags := getItem fields "tags"
  let types := getItem fields "types"
  let weight ← boundedWeight (getItemD fields "weight" (.int 1)) "domain rule weight"
  raiseIf (isNone keywords && isNone tags && isNone types)
    (domainConfigError "domain rule needs keywords, tags, or types")
  let keywords ← stringTuple keywords "keywords"
  let tags ← stringTuple tags "tags"
  let types ← stringTuple types "types"
  return ⟨keywords, tags, types, weight⟩

/-! ## Domains -/

/-- `DomainSpec` of the registry. -/
structure RegisteredDomain extends DomainSpec where
  template : String
  rules : List DomainRule
  searchPriority : List String
  deriving DecidableEq, Repr

/-- `_SLUG_RE.fullmatch(name)` -/
def isSlug (name : String) : Bool :=
  match name.toList with
  | [] => false
  | c :: cs => (isDigit c || isLower c) &&
      cs.all fun d => isDigit d || isLower d || d == '_' || d == '-'

/-- The name of an entry, normalized. -/
def domainName (fields : Dict) : Except Exn String :=
  match getItem fields "name" with
  | .str s =>
      if isSlug (PythonText.casefold (stripText s)) then .ok (PythonText.casefold (stripText s))
      else .error (domainConfigError "domain name must be a lowercase slug")
  | _ => .error (domainConfigError "domain name must be a lowercase slug")

/-- `SUPPORTED_SEARCH_MODES` -/
def supportedSearchModes : List String :=
  ["fts", "vector", "hybrid", "semantic", "reranked", "graph_assisted"]

/-- `SEARCH_MODE_ALIASES.get(mode.casefold(), mode.casefold())` -/
def canonicalMode (mode : String) : String :=
  if PythonText.casefold mode = "hybrid_reranked" then "reranked" else PythonText.casefold mode

/-- One of the search modes of a domain. -/
def searchMode (name : String) : Value → Except Exn String
  | .str mode =>
      if canonicalMode mode ∈ supportedSearchModes then .ok (canonicalMode mode)
      else .error (domainConfigError ("domain " ++ name ++ " requests unsupported search mode '" ++
        mode ++ "'; supported modes: " ++ ", ".intercalate (sortedSet supportedSearchModes)))
  | _ => .error (domainConfigError ("domain " ++ name ++ " search modes must be strings"))

/-- The search modes of a domain, each one once. -/
def searchPriority (name : String) (fields : Dict) : Except Exn (List String) :=
  match getItemD fields "search_priority" (.list [.str "fts", .str "semantic"]) with
  | .list priorities =>
      if priorities.isEmpty ∨ 32 < priorities.length then
        .error (domainConfigError ("domain " ++ name ++ " search_priority must be a non-empty list"))
      else (priorities.mapM (searchMode name)).map List.eraseDups
  | _ => .error (domainConfigError ("domain " ++ name ++ " search_priority must be a non-empty list"))

/-- The rules of a domain. -/
def domainRules (name : String) (fields : Dict) : Except Exn (List DomainRule) :=
  match getItemD fields "rules" (.list []) with
  | .list rules =>
      if rules.length ≤ 128 then rules.mapM parseRule
      else .error (domainConfigError ("domain " ++ name ++ " rules must be a list"))
  | _ => .error (domainConfigError ("domain " ++ name ++ " rules must be a list"))

/-- `_V1_DOMAIN_FIELDS` -/
def v1DomainFields : List String := ["name", "path", "template", "rules", "search_priority"]

/-- One turn of the loop over the entries. -/
def registerDomain (config : DomainConfig) (domains : List RegisteredDomain) (entry : Value) :
    Except Exn (List RegisteredDomain) := do
  let fields ← checkKeys entry v1DomainFields "domain"
  let name ← domainName fields
  raiseIf (name ∈ domains.map fun domain => domain.name)
    (domainConfigError ("duplicate domain: " ++ name))
  let path ← relativeSafe (getItem fields "path") "path"
  let template ← relativeSafe (getItem fields "template") "template"
  validateVaultPath config path ("domain " ++ name ++ " path")
  validateVaultPath config template ("domain " ++ name ++ " template")
  let rules ← domainRules name fields
  let priority ← searchPriority name fields
  return domains ++ [⟨⟨name, path⟩, template, rules, priority⟩]

/-! ## `load_domain_registry` -/

/-- `type(value) is int and value == version` -/
def isVersion (version : Int) : Value → Bool
  | .int n => n = version
  | _ => false

/-- `_V1_ROOT_FIELDS` -/
def v1RootFields : List String := ["version", "domains"]

/-- The entries of a registry. -/
def registryEntries (fields : Dict) : Except Exn (List Value) :=
  match getItem fields "domains" with
  | .list entries =>
      if entries.length ≤ 32 then .ok entries
      else .error (domainConfigError "domain registry domains must be a list")
  | _ => .error (domainConfigError "domain registry domains must be a list")

/-- The registry that a YAML value holds. -/
def parseRegistry (config : DomainConfig) (raw : Value) : Except Exn (List RegisteredDomain) := do
  let fields ← checkKeys raw v1RootFields "domain registry"
  raiseIf (isVersion 1 (getItem fields "version") = false)
    (domainConfigError "domain registry version must be 1")
  let entries ← registryEntries fields
  entries.foldlM (registerDomain config) []

/-- `load_domain_registry` -/
def loadDomainRegistry (config : DomainConfig) : Except Exn (List RegisteredDomain) := do
  let explicit ← config.pathInfo
  match config.yaml with
  | none =>
      if explicit then .error (domainConfigError "explicit domain registry is missing") else .ok []
  | some yaml =>
      let raw ← loadYaml yaml "domain registry"
      parseRegistry config raw

end

end PowerFramework.Domain
