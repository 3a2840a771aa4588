import PowerFramework.Source.Projection
/-!
# The slice around a source

The links make a graph of the sources, whatever their direction.  What `get_graph_projection`
returns around a source is the first part of its ball in this graph, with all links inside
(`getGraphProjection_exact`); as the parts of a ball are cut off from the outside, every source in
the slice is linked to one that is nearer.
-/

namespace PowerFramework.Source

open Lib Lib.Failure Lib.Json Lib.BoundedSearch

/-! ## The graph of the links -/

/-- Two sources are adjacent when one links to the other. -/
def linkGraph (links : List SourceLink) : SimpleGraph String :=
  SimpleGraph.fromRel fun a b => ∃ link ∈ links, link.source = a ∧ link.target = b

section
variable {links : List SourceLink} {paths : List String} {a b : String}

theorem mem_adjacency : b ∈ adjacency links a ↔
    (∃ link ∈ links, link.source = a ∧ link.target = b) ∨
      ∃ link ∈ links, link.source = b ∧ link.target = a := by
  simp only [adjacency, List.mem_insertionSort, List.mem_eraseDups, List.mem_append, List.mem_map,
    List.mem_filter, decide_eq_true_eq]
  constructor
  · rintro (⟨link, ⟨hlink, hsource⟩, htarget⟩ | ⟨link, ⟨hlink, htarget⟩, hsource⟩)
    · exact Or.inl ⟨link, hlink, hsource, htarget⟩
    · exact Or.inr ⟨link, hlink, hsource, htarget⟩
  · rintro (⟨link, hlink, hsource, htarget⟩ | ⟨link, hlink, hsource, htarget⟩)
    · exact Or.inl ⟨link, ⟨hlink, hsource⟩, htarget⟩
    · exact Or.inr ⟨link, ⟨hlink, htarget⟩, hsource⟩

theorem lists_adjacency : Lists (linkGraph links) (adjacency links) := by
  constructor
  · intro a b hb
    by_cases heq : a = b
    · exact Or.inl heq
    · right
      rw [linkGraph, SimpleGraph.fromRel_adj]
      exact ⟨heq, mem_adjacency.mp hb⟩
  · intro a b hadj
    rw [linkGraph, SimpleGraph.fromRel_adj] at hadj
    exact mem_adjacency.mpr hadj.2

theorem checkLink_eq_ok {link : SourceLink} :
    checkLink paths link = .ok ⟨⟩ ↔ link.source ∈ paths ∧ link.target ∈ paths := by
  unfold checkLink
  constructor
  · intro h
    obtain ⟨⟨⟩, hsource, htarget⟩ := bind_eq_ok.mp h
    exact ⟨not_not.mp (raiseIf_eq_ok.mp hsource), not_not.mp (raiseIf_eq_ok.mp htarget)⟩
  · rintro ⟨hsource, htarget⟩
    exact bind_eq_ok.mpr ⟨⟨⟩, raiseIf_eq_ok.mpr (not_not.mpr hsource),
      raiseIf_eq_ok.mpr (not_not.mpr htarget)⟩

theorem adjacency_subset (hlinks : ∀ link ∈ links, checkLink paths link = .ok ⟨⟩) (node : String) :
    adjacency links node ⊆ paths := by
  intro other hother
  rcases mem_adjacency.mp hother with ⟨link, hlink, -, rfl⟩ | ⟨link, hlink, rfl, -⟩
  · exact (checkLink_eq_ok.mp (hlinks link hlink)).2
  · exact (checkLink_eq_ok.mp (hlinks link hlink)).1

theorem mem_of_reachable (hlinks : ∀ link ∈ links, checkLink paths link = .ok ⟨⟩) (ha : a ∈ paths)
    (h : (linkGraph links).Reachable a b) : b ∈ paths := by
  obtain ⟨walk⟩ := h
  induction walk with
  | nil => exact ha
  | cons hadj walk ih => exact ih (adjacency_subset hlinks _ (lists_adjacency.2 _ _ hadj))

end

/-! ## Sources by path -/

section
variable {sources : List SourceRecord} {path : String}

theorem foldl_put (d : List (String × SourceRecord)) (hnodup : (d.map Prod.fst).Nodup)
    (hpaths : ∀ item ∈ d, item.2.relPath = item.1) :
    let found := sources.foldl (fun d source => Grouping.put source.relPath source d) d
    (found.map Prod.fst).Nodup ∧ (∀ item ∈ found, item.2.relPath = item.1) ∧
      ∀ path, path ∈ found.map Prod.fst ↔
        path ∈ d.map Prod.fst ∨ path ∈ sources.map SourceRecord.relPath := by
  induction sources generalizing d with
  | nil => exact ⟨hnodup, hpaths, by simp⟩
  | cons source sources ih =>
    have hstep := ih (Grouping.put source.relPath source d) (Grouping.nodup_keys_put hnodup) (by
      intro item hitem
      rcases Grouping.mem_put hitem with rfl | hitem
      · rfl
      · exact hpaths item hitem)
    refine ⟨hstep.1, hstep.2.1, fun path => ?_⟩
    rw [List.foldl_cons, hstep.2.2 path, Grouping.mem_keys_put, List.map_cons, List.mem_cons]
    tauto

theorem nodup_sourceMap : ((sourceMap sources).map Prod.fst).Nodup :=
  (foldl_put [] List.nodup_nil nofun).1

theorem mem_sourceMap :
    path ∈ (sourceMap sources).map Prod.fst ↔ path ∈ sources.map SourceRecord.relPath := by
  rw [sourceMap, (foldl_put [] List.nodup_nil nofun).2.2 path]
  simp

theorem lookup_sourceMap (h : path ∈ (sourceMap sources).map Prod.fst) :
    ∃ source, (sourceMap sources).lookup path = some source ∧ source.relPath = path := by
  obtain ⟨source, hsource⟩ := Option.isSome_iff_exists.mp (Grouping.lookup_isSome.mpr h)
  exact ⟨source, hsource,
    (foldl_put [] List.nodup_nil nofun).2.1 _ (Grouping.mem_of_lookup hsource)⟩

end

/-! ## Degrees -/

section
variable {paths : List String} {degrees : String → Nat}

theorem sum_update (hnodup : paths.Nodup) {path : String} (hpath : path ∈ paths) :
    (paths.map (Function.update degrees path (degrees path + 1))).sum =
      (paths.map degrees).sum + 1 := by
  induction paths with
  | nil => cases hpath
  | cons first paths ih =>
    rw [List.nodup_cons] at hnodup
    rw [List.map_cons, List.map_cons, List.sum_cons, List.sum_cons]
    rcases List.mem_cons.mp hpath with rfl | hpath
    · have hrest : paths.map (Function.update degrees path (degrees path + 1)) =
          paths.map degrees := by
        apply List.map_congr_left
        intro other hother
        exact Function.update_of_ne (by rintro rfl; exact hnodup.1 hother) _ _
      rw [Function.update_self, hrest]
      omega
    · have hne : first ≠ path := by
        rintro rfl
        exact hnodup.1 hpath
      rw [Function.update_of_ne hne, ih hnodup.2 hpath]
      omega

/-- Every edge counts twice among its ends. -/
theorem sum_countEdge (hnodup : paths.Nodup) {edges : List GraphEdge}
    (hedges : ∀ edge ∈ edges, edge.source ∈ paths ∧ edge.target ∈ paths) :
    (paths.map (edges.foldl countEdge degrees)).sum = (paths.map degrees).sum + 2 * edges.length := by
  induction edges generalizing degrees with
  | nil => rfl
  | cons edge edges ih =>
    rw [List.forall_mem_cons] at hedges
    rw [List.foldl_cons, ih hedges.2, countEdge, sum_update hnodup hedges.1.2,
      sum_update hnodup hedges.1.1, List.length_cons]
    omega

end

/-! ## The slice -/

/-- The first sources of the ball in the order of distance and path, with all links among them; each
but the focus is linked to another. -/
structure ExactSlice (projection : ProjectionData) (focus : String) (maxDepth maxNodes : Nat)
    (response : GraphProjectionResponse) : Prop where
  nodes : ∃ ball : List String,
    (ball.Pairwise fun a b => toLex ((linkGraph projection.links).dist focus a, a) <
      toLex ((linkGraph projection.links).dist focus b, b)) ∧
    (∀ path, path ∈ ball ↔ path ∈ projection.sources.map SourceRecord.relPath ∧
      (linkGraph projection.links).Reachable focus path ∧
      (linkGraph projection.links).dist focus path ≤ maxDepth) ∧
    response.nodes.map GraphNode.id = ball.take maxNodes ∧
    (response.isTruncated = true ↔ maxNodes < ball.length)
  edges : response.edges = (projection.links.filter fun link =>
    link.source ∈ response.nodes.map GraphNode.id ∧
      link.target ∈ response.nodes.map GraphNode.id).map SourceLink.edge
  degrees : (response.nodes.map GraphNode.degree).sum = 2 * response.edges.length
  connected : ∀ path ∈ response.nodes.map GraphNode.id, path ≠ focus →
    ∃ other ∈ response.nodes.map GraphNode.id, (linkGraph projection.links).Adj path other

/-- Links run between sources, and their weights are between 0 and 1. -/
def WellFormed (projection : ProjectionData) : Prop :=
  ∀ link ∈ projection.links, link.source ∈ projection.sources.map SourceRecord.relPath ∧
    link.target ∈ projection.sources.map SourceRecord.relPath ∧ isWeight link.weight = true

theorem mem_take_of_lt {α β : Type} [Preorder β] {key : α → β} {xs : List α}
    (hsorted : xs.Pairwise fun a b => key a < key b) {n : Nat} {a b : α} (ha : a ∈ xs)
    (hb : b ∈ xs.take n) (hlt : key a < key b) : a ∈ xs.take n := by
  rw [← List.take_append_drop n xs] at ha hsorted
  rcases List.mem_append.mp ha with ha | ha
  · exact ha
  · have hgt := (List.pairwise_append.mp hsorted).2.2 b hb a ha
    exact absurd hgt hlt.asymm

section
variable [PythonText] {projection : ProjectionData} {requested focus : String} {maxNodes maxDepth : Int}

theorem mem_paths_of_resolve (h : resolveProjectionPath projection requested = .ok focus) :
    focus ∈ projection.sources.map SourceRecord.relPath := by
  unfold resolveProjectionPath at h
  obtain ⟨normalized, -, h⟩ := bind_eq_ok.mp h
  dsimp only at h
  split_ifs at h with hexact hmarkdown
  · cases h
    exact hexact
  · cases h
    exact hmarkdown.2
  · split at h
    · cases h
    · rename_i candidate hcandidates
      cases h
      have hmem : focus ∈ [focus] := List.mem_singleton_self _
      rw [← hcandidates, List.mem_insertionSort] at hmem
      exact (List.mem_filter.mp hmem).1
    · cases h

/-- The ends of the links have been looked up. -/
theorem links_of_selectPaths {paths : List String} {slice : List String × Bool}
    (h : selectPaths projection paths maxNodes (some requested) maxDepth = .ok slice) :
    ∀ link ∈ projection.links, checkLink paths link = .ok ⟨⟩ := by
  unfold selectPaths at h
  dsimp only at h
  obtain ⟨_, -, h⟩ := bind_eq_ok.mp h
  obtain ⟨⟨⟩, hlinks, -⟩ := bind_eq_ok.mp h
  exact forM_eq_ok.mp hlinks

/-- The ball around a source in the order in which it is cut. -/
theorem selectPaths_ok {selected : List String} {truncated : Bool} {paths : List String}
    (hpaths : paths.Nodup) (hfocus : focus ∈ paths)
    (hresolve : resolveProjectionPath projection requested = .ok focus)
    (h : selectPaths projection paths maxNodes (some requested) maxDepth = .ok (selected, truncated)) :
    ∃ ball : List String,
      (ball.Pairwise fun a b => toLex ((linkGraph projection.links).dist focus a, a) <
        toLex ((linkGraph projection.links).dist focus b, b)) ∧
      (∀ path, path ∈ ball ↔ path ∈ paths ∧ (linkGraph projection.links).Reachable focus path ∧
        (linkGraph projection.links).dist focus path ≤ maxDepth.toNat) ∧
      selected = ball.take maxNodes.toNat ∧ (truncated = true ↔ maxNodes.toNat < ball.length) := by
  have hlinks := links_of_selectPaths h
  unfold selectPaths at h
  dsimp only at h
  obtain ⟨focus', hfocus', h⟩ := bind_eq_ok.mp h
  rw [hresolve] at hfocus'
  cases hfocus'
  obtain ⟨⟨⟩, -, h⟩ := bind_eq_ok.mp h
  set found := search (adjacency projection.links) maxDepth.toNat paths.length (around focus)
    with hfound
  have hclosed : ∀ node ∈ paths, adjacency projection.links node ⊆ paths :=
    fun node _ => adjacency_subset hlinks node
  have hmem : ∀ path d, (path, d) ∈ found.distances ↔
      (linkGraph projection.links).Reachable focus path ∧
        (linkGraph projection.links).dist focus path = d ∧ d ≤ maxDepth.toNat :=
    fun path d => mem_search lists_adjacency hpaths hclosed hfocus le_rfl
  have hnodup : found.known.Nodup := nodup_search lists_adjacency paths.length
  have hdistance : ∀ path ∈ found.known,
      found.distanceOf path = (linkGraph projection.links).dist focus path := by
    intro path hpath
    obtain ⟨d, hd⟩ := Search.mem_known.mp hpath
    rw [Search.distanceOf_eq hnodup hd, ((hmem path d).mp hd).2.1]
  cases h
  refine ⟨_, ?_, fun path => ?_, rfl, decide_eq_true_iff⟩
  · have hsorted := List.pairwise_insertionSort
      (fun a b => toLex (found.distanceOf a, a) ≤ toLex (found.distanceOf b, b)) found.known
    have hdistinct := (List.perm_insertionSort
      (fun a b => toLex (found.distanceOf a, a) ≤ toLex (found.distanceOf b, b))
        found.known).nodup_iff.mpr hnodup
    refine (hsorted.and hdistinct).imp_of_mem ?_
    rintro a b ha hb ⟨hle, hne⟩
    rw [List.mem_insertionSort] at ha hb
    rw [← hdistance a ha, ← hdistance b hb]
    refine lt_of_le_of_ne hle fun heq => hne ?_
    exact (Prod.mk.inj (toLex.injective heq)).2
  · rw [List.mem_insertionSort]
    constructor
    · intro hpath
      obtain ⟨d, hd⟩ := Search.mem_known.mp hpath
      obtain ⟨hreachable, hdist, hbound⟩ := (hmem path d).mp hd
      exact ⟨mem_of_reachable hlinks hfocus hreachable, hreachable, hdist ▸ hbound⟩
    · rintro ⟨-, hreachable, hbound⟩
      exact Search.mem_known.mpr ⟨_, (hmem path _).mpr ⟨hreachable, rfl, hbound⟩⟩

theorem selectPaths_returns {paths : List String}
    (hresolve : resolveProjectionPath projection requested = .ok focus)
    (hlinks : ∀ link ∈ projection.links, link.source ∈ paths ∧ link.target ∈ paths) :
    ∃ slice, selectPaths projection paths maxNodes (some requested) maxDepth = .ok slice := by
  unfold selectPaths
  dsimp only
  exact exists_bind_eq_ok.mpr ⟨focus, hresolve, exists_bind_eq_ok.mpr ⟨⟨⟩,
    forM_eq_ok.mpr fun link hlink => checkLink_eq_ok.mpr (hlinks link hlink), _, rfl⟩⟩

omit [PythonText] in
theorem graphEdge_eq_ok {link : SourceLink} {edge : GraphEdge} :
    graphEdge link = .ok edge ↔ isWeight link.weight = true ∧ edge = link.edge := by
  unfold graphEdge
  constructor
  · intro h
    obtain ⟨⟨⟩, hweight, hedge⟩ := bind_eq_ok.mp h
    cases hedge
    exact ⟨by simpa using raiseIf_eq_ok.mp hweight, rfl⟩
  · rintro ⟨hweight, rfl⟩
    exact bind_eq_ok.mpr ⟨⟨⟩, raiseIf_eq_ok.mpr (by simpa using hweight), rfl⟩

omit [PythonText] in
/-- The nodes that show the selected paths. -/
theorem nodes_of_selected {selected : List String} {sources : List SourceRecord}
    {degrees : String → Nat}
    (hselected : ∀ path ∈ selected, path ∈ (sourceMap sources).map Prod.fst) :
    let nodes := selected.filterMap fun path => ((sourceMap sources).lookup path).map fun source =>
      (⟨source.relPath, source.title, source.category, degrees source.relPath, source.tags⟩ :
        GraphNode)
    nodes.map GraphNode.id = selected ∧ nodes.map GraphNode.degree = selected.map degrees := by
  intro nodes
  have hshown : ∀ {β : Type} (field : GraphNode → β) (value : String → β),
      (∀ source : SourceRecord, field ⟨source.relPath, source.title, source.category,
        degrees source.relPath, source.tags⟩ = value source.relPath) →
      nodes.map field = selected.map value := by
    intro β field value hfield
    rw [List.map_filterMap, ← List.filterMap_eq_map]
    apply List.filterMap_congr
    intro path hpath
    obtain ⟨source, hsource, hrel⟩ := lookup_sourceMap (hselected path hpath)
    rw [hsource, Option.map_some, Option.map_some, hfield, hrel]
    rfl
  refine ⟨?_, hshown _ degrees fun _ => rfl⟩
  rw [hshown _ id fun _ => rfl, List.map_id]

/-- The slice around a source is exact, and it is returned when the bounds are in their ranges and
the projection is well formed. -/
theorem getGraphProjection_exact (projection : ProjectionData) (requested : String)
    (maxNodes maxDepth : Int) (hresolve : resolveProjectionPath projection requested = .ok focus) :
    (∀ response, getGraphProjection projection maxNodes (some requested) maxDepth = .ok response →
      ExactSlice projection focus maxDepth.toNat maxNodes.toNat response) ∧
    (WellFormed projection → 1 ≤ maxNodes → maxNodes ≤ 1000 → 1 ≤ maxDepth → maxDepth ≤ 10 →
      ∃ response, getGraphProjection projection maxNodes (some requested) maxDepth =
        .ok response) := by
  constructor
  · intro response h
    unfold getGraphProjection at h
    obtain ⟨⟨⟩, -, h⟩ := bind_eq_ok.mp h
    obtain ⟨⟨⟩, -, h⟩ := bind_eq_ok.mp h
    obtain ⟨⟨selected, truncated⟩, hselect, h⟩ := bind_eq_ok.mp h
    obtain ⟨edges, hedges, h⟩ := bind_eq_ok.mp h
    cases h
    have hfocus := mem_sourceMap.mpr (mem_paths_of_resolve hresolve)
    have hlinks := links_of_selectPaths hselect
    obtain ⟨ball, hsorted, hball, rfl, htruncated⟩ :=
      selectPaths_ok nodup_sourceMap hfocus hresolve hselect
    have hinside : ∀ path ∈ ball.take maxNodes.toNat,
        path ∈ (sourceMap projection.sources).map Prod.fst :=
      fun path hpath => ((hball path).mp (List.mem_of_mem_take hpath)).1
    have hnodes := @nodes_of_selected _ _ (edges.foldl countEdge fun _ => 0) hinside
    rw [mapM_eq_ok (P := fun link => isWeight link.weight = true) (g := SourceLink.edge)
      fun link edge => graphEdge_eq_ok] at hedges
    have hdistinct : (ball.take maxNodes.toNat).Nodup :=
      (hsorted.imp fun hlt heq => by rw [heq] at hlt; exact lt_irrefl _ hlt).sublist
        (List.take_sublist _ _)
    refine ⟨⟨ball, hsorted, fun path => ?_, hnodes.1, htruncated⟩, ?_, ?_, ?_⟩
    · rw [hball, mem_sourceMap]
    · dsimp only
      rw [hnodes.1]
      exact hedges.2
    · dsimp only
      rw [hnodes.2]
      have hends : ∀ edge ∈ edges, edge.source ∈ ball.take maxNodes.toNat ∧
          edge.target ∈ ball.take maxNodes.toNat := by
        intro edge hedge
        rw [hedges.2] at hedge
        obtain ⟨link, hlink, rfl⟩ := List.mem_map.mp hedge
        exact of_decide_eq_true (List.mem_filter.mp hlink).2
      have hsum := @sum_countEdge _ (fun _ => 0) hdistinct edges hends
      simpa using hsum
    · dsimp only
      rw [hnodes.1]
      intro path hpath hne
      obtain ⟨-, hreachable, hbound⟩ := (hball path).mp (List.mem_of_mem_take hpath)
      obtain ⟨walk, hwalk⟩ := hreachable.exists_walk_length_eq_dist
      have hnil : ¬ walk.Nil := fun hnil => hne hnil.eq.symm
      have hlength := SimpleGraph.Walk.length_dropLast walk
      have hpositive : walk.length ≠ 0 := by
        rw [Ne, SimpleGraph.Walk.length_eq_zero_iff]
        exact hnil
      have hnear := SimpleGraph.dist_le walk.dropLast
      have hother : walk.penultimate ∈ ball := by
        rw [hball]
        exact ⟨mem_of_reachable hlinks hfocus ⟨walk.dropLast⟩, ⟨walk.dropLast⟩, by omega⟩
      refine ⟨walk.penultimate, ?_, (walk.adj_penultimate hnil).symm⟩
      apply mem_take_of_lt hsorted hother hpath
      rw [Prod.Lex.toLex_lt_toLex]
      left
      omega
  · intro hwell hlow hhigh hshallow hdeep
    unfold getGraphProjection
    have hpaths : ∀ link ∈ projection.links,
        link.source ∈ (sourceMap projection.sources).map Prod.fst ∧
          link.target ∈ (sourceMap projection.sources).map Prod.fst := by
      intro link hlink
      exact ⟨mem_sourceMap.mpr (hwell link hlink).1, mem_sourceMap.mpr (hwell link hlink).2.1⟩
    obtain ⟨⟨selected, truncated⟩, hselect⟩ :=
      @selectPaths_returns _ _ _ _ maxNodes maxDepth _ hresolve hpaths
    have hweights : ∀ link ∈ projection.links.filter (fun link =>
        link.source ∈ selected ∧ link.target ∈ selected), ∃ edge, graphEdge link = .ok edge :=
      fun link hlink => ⟨link.edge, graphEdge_eq_ok.mpr
        ⟨(hwell link (List.mem_filter.mp hlink).1).2.2, rfl⟩⟩
    obtain ⟨edges, hedges⟩ := exists_mapM hweights
    exact exists_bind_eq_ok.mpr ⟨⟨⟩, raiseIf_eq_ok.mpr (by omega), exists_bind_eq_ok.mpr ⟨⟨⟩,
      raiseIf_eq_ok.mpr (by omega), exists_bind_eq_ok.mpr ⟨_, hselect,
        exists_bind_eq_ok.mpr ⟨edges, hedges, _, rfl⟩⟩⟩⟩

end

/-- Two notes, the first of which links to the second, and a third one. -/
def threeNotes : ProjectionData where
  sources := [⟨"01_Projects/a.md", "A", "01_Projects", ["x"]⟩,
    ⟨"01_Projects/b.md", "B", "01_Projects", []⟩, ⟨"02_Areas/c.md", "C", "02_Areas", []⟩]
  links := [⟨"01_Projects/a.md", "01_Projects/b.md", "wikilink", ⟨false, 1023, 0⟩, false⟩]
  ambiguities := []
  sourceRevision := "r"
  actualCapability := "active_source_projection"
  degradedReason := none

/-- The slice around the note that is linked to. -/
theorem threeNotes_slice : ∃ response,
    @getGraphProjection PythonText.ascii threeNotes 10 (some "B") 2 = .ok response ∧
      ExactSlice threeNotes "01_Projects/b.md" 2 10 response := by
  have hresolve : @resolveProjectionPath PythonText.ascii threeNotes "B" = .ok "01_Projects/b.md" := by
    decide +kernel
  have hexact := @getGraphProjection_exact PythonText.ascii _ threeNotes "B" 10 2 hresolve
  have hwell : WellFormed threeNotes := by
    intro link hlink
    rw [List.mem_singleton.mp hlink]
    decide
  obtain ⟨response, hresponse⟩ := hexact.2 hwell (by decide) (by decide) (by decide) (by decide)
  exact ⟨response, hresponse, hexact.1 response hresponse⟩

end PowerFramework.Source
