import Mathlib.Data.List.Sort
import Mathlib.Data.Prod.Lex
import Mathlib.Data.String.Basic
import PowerFramework.Ledger.Directory
import PowerFramework.Lib.BoundedSearch
import PowerFramework.Lib.Double
import PowerFramework.Lib.PosixPath
import PowerFramework.Lib.PythonValue
import PowerFramework.Lib.Text
/-!
# The source projection

The notes of a vault and the links between them, as they are read from a generation or a scan, and
`get_graph_projection`: the slice around a note, found by a bounded breadth-first search and cut in
the order of distance and path.
-/

namespace PowerFramework.Source

open Lib Lib.Failure Lib.Json Lib.Text Lib.BoundedSearch

/-! ## Data -/

/-- `SourceRecord`, by what the graph shows of it. -/
structure SourceRecord where
  relPath : String
  title : String
  category : String
  tags : List String

structure SourceLink where
  source : String
  target : String
  relationType : String
  weight : Double
  isCandidate : Bool

structure SourceAmbiguity where
  source : String
  rawTarget : String
  relationType : String
  candidates : List String

/-- `_ProjectionData` -/
structure ProjectionData where
  sources : List SourceRecord
  links : List SourceLink
  ambiguities : List SourceAmbiguity
  sourceRevision : String
  actualCapability : String
  degradedReason : Option String

structure GraphNode where
  id : String
  label : String
  category : String
  degree : Nat
  tags : List String

structure GraphEdge where
  source : String
  target : String
  relationType : String
  isCandidate : Bool
  weight : Double

structure GraphProjectionResponse where
  nodes : List GraphNode
  edges : List GraphEdge
  totalNodes : Nat
  totalEdges : Nat
  maxDepth : Int
  isTruncated : Bool
  sourceRevision : String
  actualCapability : String
  degradedReason : Option String
  ambiguities : List SourceAmbiguity

/-! ## Resolution -/

def permissionError (message : String) : Exn := ⟨"PermissionError", message⟩

def sourceNotFoundError (message : String) : Exn := ⟨"SourceNotFoundError", message⟩

def sourceAmbiguousError (message : String) : Exn := ⟨"SourceAmbiguousError", message⟩

def keyError (key : String) : Exn := ⟨"KeyError", key⟩

def validationError (message : String) : Exn := ⟨"ValidationError", message⟩

/-- `normalize_rel_path` -/
def normalizeRelPath (path : String) : Except Exn String :=
  let stripped := (Ledger.strip path.toList).map fun c => if c = '\\' then '/' else c
  let norm := PosixPath.normpath (String.ofList (stripped.dropWhile (· = '/')))
  if norm = "." ∨ norm = "" then .ok ""
  else if "..".toList <+: norm.toList ∨ "/../".toList <:+: ("/" ++ norm ++ "/").toList then
    .error (permissionError ("Path traversal detected: " ++ path))
  else .ok norm

section
variable [PythonText]

/-- `Path(path).stem.casefold()` -/
def foldedStem (path : String) : String := PythonText.casefold (PosixPath.stem path)

/-- `_resolve_projection_path` -/
def resolveProjectionPath (projection : ProjectionData) (requested : String) :
    Except Exn String := do
  let normalized ← normalizeRelPath requested
  let exact := projection.sources.map SourceRecord.relPath
  if normalized ∈ exact then return normalized
  else if endsWith ".md" normalized = false ∧ normalized ++ ".md" ∈ exact then
    return normalized ++ ".md"
  else
    match (exact.filter fun path => foldedStem path = foldedStem normalized).insertionSort (· ≤ ·) with
    | [] => .error (sourceNotFoundError ("source not found in projection: " ++ requested))
    | [candidate] => return candidate
    | candidates => .error (sourceAmbiguousError ("source stem is ambiguous: " ++ requested ++
        "; candidates=" ++ ",".intercalate candidates))

end

/-! ## The graph -/

/-- `source_map`: of two sources with one path the later one. -/
def sourceMap (sources : List SourceRecord) : List (String × SourceRecord) :=
  sources.foldl (fun d source => Grouping.put source.relPath source d) []

/-- `adjacency` -/
def adjacency (links : List SourceLink) (path : String) : List String :=
  (((links.filter (·.source = path)).map SourceLink.target ++
    (links.filter (·.target = path)).map SourceLink.source).eraseDups).insertionSort (· ≤ ·)

/-- The ends of a link are looked up among the paths. -/
def checkLink (paths : List String) (link : SourceLink) : Except Exn Unit := do
  raiseIf (link.source ∉ paths) (keyError link.source)
  raiseIf (link.target ∉ paths) (keyError link.target)

/-- The weight is between 0 and 1. -/
def isWeight (weight : Double) : Bool :=
  weight.mantissa = 0 || (!weight.negative && (weight.exponent.val < 1023 ||
    (weight.exponent.val = 1023 && weight.fraction.val = 0)))

/-- The edge that shows a link. -/
def SourceLink.edge (link : SourceLink) : GraphEdge :=
  ⟨link.source, link.target, link.relationType, link.isCandidate, link.weight⟩

/-- `GraphEdgeDTO` of a link. -/
def graphEdge (link : SourceLink) : Except Exn GraphEdge := do
  raiseIf (isWeight link.weight = false) (validationError "weight")
  return link.edge

/-- `degrees`: each edge counts at both of its ends. -/
def countEdge (degrees : String → Nat) (edge : GraphEdge) : String → Nat :=
  let counted := Function.update degrees edge.source (degrees edge.source + 1)
  Function.update counted edge.target (counted edge.target + 1)

/-- The paths in the slice, and whether any were left out. -/
def selectPaths [PythonText] (projection : ProjectionData) (paths : List String) (maxNodes : Int)
    (focusPath : Option String) (maxDepth : Int) : Except Exn (List String × Bool) :=
  match focusPath with
  | none =>
      let ordered := paths.insertionSort (· ≤ ·)
      .ok (ordered.take maxNodes.toNat, decide (maxNodes.toNat < ordered.length))
  | some requested => do
      let focus ← resolveProjectionPath projection requested
      projection.links.forM (checkLink paths)
      let found := search (adjacency projection.links) maxDepth.toNat paths.length (around focus)
      let ordered := found.known.insertionSort fun a b =>
        toLex (found.distanceOf a, a) ≤ toLex (found.distanceOf b, b)
      return (ordered.take maxNodes.toNat, decide (maxNodes.toNat < ordered.length))

/-- `get_graph_projection` of the projection that is read. -/
def getGraphProjection [PythonText] (projection : ProjectionData) (maxNodes : Int)
    (focusPath : Option String) (maxDepth : Int) : Except Exn GraphProjectionResponse := do
  raiseIf (¬ (1 ≤ maxNodes ∧ maxNodes ≤ 1000)) (valueError "max_nodes must be between 1 and 1000")
  raiseIf (¬ (1 ≤ maxDepth ∧ maxDepth ≤ 10)) (valueError "max_depth must be between 1 and 10")
  let sources := sourceMap projection.sources
  let (selected, truncated) ←
    selectPaths projection (sources.map Prod.fst) maxNodes focusPath maxDepth
  let edges ← (projection.links.filter fun link =>
    link.source ∈ selected ∧ link.target ∈ selected).mapM graphEdge
  let degrees := edges.foldl countEdge fun _ => 0
  let nodes := selected.filterMap fun path => (sources.lookup path).map fun source =>
    (⟨source.relPath, source.title, source.category, degrees source.relPath, source.tags⟩ :
      GraphNode)
  return {
    nodes := nodes
    edges := edges
    totalNodes := nodes.length
    totalEdges := edges.length
    maxDepth := maxDepth
    isTruncated := truncated
    sourceRevision := projection.sourceRevision
    actualCapability := projection.actualCapability
    degradedReason := projection.degradedReason
    ambiguities := projection.ambiguities.filter fun ambiguity => ambiguity.source ∈ selected }

end PowerFramework.Source
