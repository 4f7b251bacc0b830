import Flowchart.Layout.Diagram
import Flowchart.Proofs.Graph.Reachable
import Flowchart.Proofs.Layout.LongestPaths

/-!
The ranks of the nodes of a flowchart. An edge between two nodes is an edge between their places
(`adj_iff`), so what a layering promises of places holds of nodes: edges join different ranks, no
rank between the first and the last is empty, and without cycles the rank of a node is the length of the
longest path to it, whatever sort is used (`ranked_of_wellFormed`). Nothing but the ids of the nodes
and the ends of the edges counts for that, and neither does their order (`layout_ranked`).
-/
namespace Flowchart

namespace Graph
open Relation

/-- The place of an id among the nodes. -/
def place (g : Graph) (id : Text) : Nat := g.nodes.findIdx (·.id = id)

/-- An edge leads from one node to another one. -/
def Leads (g : Graph) (a b : Text) : Prop := a ≠ b ∧ ∃ e ∈ g.edges, e.source = a ∧ e.target = b

/-- Without its self loops the graph has no cycle. -/
def Acyclic (g : Graph) : Prop := ∀ id, ¬ TransGen g.Leads id id

/-- The layering of the graph, when `sort` looks for a topological order. -/
def layering (sort : Digraph → Option (List Nat)) (g : Graph) : Layering := Layering.sortedBy sort (.ofGraph g)

def rankOf (sort : Digraph → Option (List Nat)) (g : Graph) (id : Text) : Nat :=
  rankIn (g.layering sort).ranks (g.place id)

/-- What the ranks of a graph promise. Paths run along edges between different nodes. -/
structure Ranked (sort : Digraph → Option (List Nat)) (g : Graph) : Prop where
  sized : (g.layering sort).ranks.length = g.nodes.length
  apart : ∀ e ∈ g.edges, e.source ≠ e.target → g.rankOf sort e.source ≠ g.rankOf sort e.target
  filled : ∀ r, r ∈ (g.layering sort).ranks ↔ g.nodes ≠ [] ∧ r < (g.layering sort).count
  longest : g.Acyclic → ∀ id, g.hasNode id → IsGreatest {n | PathTo g.Leads id n} (g.rankOf sort id)
  downward : g.Acyclic → ∀ e ∈ g.edges, e.source ≠ e.target → g.rankOf sort e.source < g.rankOf sort e.target

/-- The same ids and the same edges between them, in any order. -/
def SameParts (g h : Graph) : Prop :=
  (h.nodes.map (·.id)).Perm (g.nodes.map (·.id)) ∧
    (h.edges.map fun e => (e.source, e.target)).Perm (g.edges.map fun e => (e.source, e.target))

variable {g h : Graph}

/-! ### Places -/

theorem place_lt {id : Text} (there : g.hasNode id) : g.place id < g.nodes.length := by
  obtain ⟨n, member, rfl⟩ := hasNode_iff_exists.1 there
  exact List.findIdx_lt_length_of_exists ⟨n, member, by simp⟩

theorem nodes_place {id : Text} (there : g.hasNode id) : (g.nodes.get ⟨g.place id, place_lt there⟩).id = id := by
  have found : decide ((g.nodes.get ⟨g.place id, place_lt there⟩).id = id) = true :=
    List.findIdx_getElem (w := place_lt there)
  exact of_decide_eq_true found

theorem place_inj {a b : Text} (first : g.hasNode a) (second : g.hasNode b) (same : g.place a = g.place b) : a = b := by
  have node := nodes_place first
  simp only [same] at node
  rw [← node, nodes_place second]

theorem place_id (distinct : (g.nodes.map (·.id)).Nodup) {v : Nat} (inside : v < g.nodes.length) :
    g.place g.nodes[v].id = v := by
  have there : g.hasNode g.nodes[v].id := hasNode_iff_exists.2 ⟨_, List.getElem_mem inside, rfl⟩
  have node := nodes_place there
  rw [List.Nodup, List.pairwise_iff_getElem] at distinct
  by_contra different
  have insideMap : v < (g.nodes.map (·.id)).length := by rwa [List.length_map]
  have placeMap : g.place g.nodes[v].id < (g.nodes.map (·.id)).length := by
    rw [List.length_map]
    exact place_lt there
  rcases Nat.lt_or_gt_of_ne different with less | more
  · exact distinct _ v placeMap insideMap less (by simpa using node)
  · exact distinct v _ insideMap placeMap more (by simpa using node.symm)

theorem findIdx?_eq_place {id : Text} {v : Nat} :
    g.nodes.findIdx? (·.id = id) = some v ↔ g.hasNode id ∧ g.place id = v := by
  rw [List.findIdx?_eq_some_iff_findIdx_eq]
  constructor
  · rintro ⟨inside, same⟩
    refine ⟨?_, same⟩
    have found := List.findIdx_getElem (w := same ▸ inside)
    exact hasNode_iff_exists.2 ⟨_, List.getElem_mem _, by simpa using found⟩
  · rintro ⟨there, rfl⟩
    exact ⟨place_lt there, rfl⟩

/-- The rank constraints are the edges between the places of different nodes. -/
theorem adj_iff {s t : Nat} :
    (Digraph.ofGraph g).Adj s t ↔
      ∃ a b, g.hasNode a ∧ g.hasNode b ∧ g.Leads a b ∧ g.place a = s ∧ g.place b = t := by
  simp only [Digraph.Adj, Digraph.ofGraph, List.mem_filterMap]
  constructor
  · rintro ⟨e, member, found⟩
    split at found
    · next s' t' source target =>
      split at found
      · cases found
      · next different =>
        obtain ⟨rfl, rfl⟩ := Prod.mk.inj (Option.some.inj found)
        obtain ⟨sourceThere, sourcePlace⟩ := findIdx?_eq_place.1 source
        obtain ⟨targetThere, targetPlace⟩ := findIdx?_eq_place.1 target
        refine ⟨e.source, e.target, sourceThere, targetThere, ⟨fun same => different ?_, e, member, rfl, rfl⟩,
          sourcePlace, targetPlace⟩
        rw [← sourcePlace, ← targetPlace, same]
    · cases found
  · rintro ⟨_, _, sourceThere, targetThere, ⟨different, e, member, rfl, rfl⟩, rfl, rfl⟩
    have apart : g.place e.source ≠ g.place e.target := fun same => different (place_inj sourceThere targetThere same)
    refine ⟨e, member, ?_⟩
    rw [findIdx?_eq_place.2 ⟨sourceThere, rfl⟩, findIdx?_eq_place.2 ⟨targetThere, rfl⟩]
    simp only [apart, if_false]

theorem ofGraph_proper (g : Graph) : (Digraph.ofGraph g).Proper := by
  intro s t edge
  obtain ⟨a, b, first, second, -, rfl, rfl⟩ := adj_iff.1 edge
  exact ⟨place_lt first, place_lt second⟩

theorem ofGraph_loopless (g : Graph) (v : Nat) : ¬ (Digraph.ofGraph g).Adj v v := by
  intro loop
  obtain ⟨a, b, first, second, ⟨different, -⟩, rfl, same⟩ := adj_iff.1 loop
  exact different (place_inj first second same.symm)

theorem Leads.present (good : g.WellFormed) {a b : Text} (leads : g.Leads a b) : g.hasNode a ∧ g.hasNode b := by
  obtain ⟨-, e, member, rfl, rfl⟩ := leads
  exact good.ends_present e member

theorem adj_place (good : g.WellFormed) {a b : Text} (leads : g.Leads a b) :
    (Digraph.ofGraph g).Adj (g.place a) (g.place b) := by
  obtain ⟨first, second⟩ := leads.present good
  exact adj_iff.2 ⟨a, b, first, second, leads, rfl, rfl⟩

/-- A cycle of places is a cycle of nodes. -/
theorem ofGraph_acyclic (acyclic : g.Acyclic) : (Digraph.ofGraph g).Acyclic := by
  have lift : ∀ s t, TransGen (Digraph.ofGraph g).Adj s t →
      ∃ a b, g.hasNode a ∧ g.hasNode b ∧ TransGen g.Leads a b ∧ g.place a = s ∧ g.place b = t := by
    intro s t way
    induction way with
    | single edge =>
      obtain ⟨a, b, first, second, leads, here, there⟩ := adj_iff.1 edge
      exact ⟨a, b, first, second, .single leads, here, there⟩
    | tail _ edge ih =>
      obtain ⟨a, b, first, second, way, here, middle⟩ := ih
      obtain ⟨b', c, second', third, leads, middle', there⟩ := adj_iff.1 edge
      obtain rfl := place_inj second second' (middle.trans middle'.symm)
      exact ⟨a, c, first, third, way.tail leads, here, there⟩
  intro v cycle
  obtain ⟨a, b, first, second, way, here, there⟩ := lift v v cycle
  obtain rfl := place_inj first second (here.trans there.symm)
  exact acyclic a way

/-! ### Ranks -/

theorem ranked_of_wellFormed {sort : Digraph → Option (List Nat)} (sorts : Digraph.Sorts sort) (good : g.WellFormed) :
    g.Ranked sort := by
  obtain ⟨order, topological, walked, proper, size, oneWay, same⟩ :=
    Layering.sortedBy_spec sorts (ofGraph_proper g) (ofGraph_loopless g)
  obtain ⟨below, reached⟩ := longestPaths_spec proper topological
  have nodes : (g.layering sort).dag.size = g.nodes.length := size
  have inUse := fun r => mem_longestPaths proper topological (r := r)
  have sized : (g.layering sort).ranks.length = g.nodes.length :=
    (congrArg List.length walked).trans ((longestPaths_length _ _).trans nodes)
  rw [← walked] at below reached inUse
  -- Without cycles the graph that is ranked is the graph itself.
  have down : g.Acyclic → ∀ a b, g.Leads a b → g.rankOf sort a < g.rankOf sort b := by
    intro acyclic a b leads
    have edge := adj_place good leads
    rw [← same (ofGraph_acyclic acyclic)] at edge
    exact below _ _ edge
  refine ⟨sized, ?_, ?_, ?_, fun acyclic e member different => down acyclic _ _ ⟨different, e, member, rfl, rfl⟩⟩
  · intro e member different
    have edge := adj_place good ⟨different, e, member, rfl, rfl⟩
    rcases oneWay _ _ edge with forward | backward
    · exact Nat.ne_of_lt (below _ _ forward)
    · exact (Nat.ne_of_lt (below _ _ backward)).symm
  · intro r
    have filled : g.nodes ≠ [] ↔ (g.layering sort).dag.size ≠ 0 := by
      rw [nodes, Ne, Ne, List.length_eq_zero_iff]
    rw [filled]
    exact inUse r
  · intro acyclic id there
    have stepwise : Reached g.Leads (g.rankOf sort) fun id => g.hasNode id := by
      intro b second
      refine (reached (g.place b)).imp_right fun ⟨u, edge, next⟩ => ?_
      rw [same (ofGraph_acyclic acyclic)] at edge
      obtain ⟨a, b', first, second', leads, rfl, samePlace⟩ := adj_iff.1 edge
      obtain rfl := place_inj second' second samePlace
      exact ⟨a, first, leads, next⟩
    exact isGreatest_path stepwise (down acyclic) there

theorem SameParts.leads (same : g.SameParts h) {a b : Text} : h.Leads a b ↔ g.Leads a b := by
  have ends : ∀ k : Graph, (∃ e ∈ k.edges, e.source = a ∧ e.target = b) ↔
      (a, b) ∈ k.edges.map fun e => (e.source, e.target) := by
    intro k
    simp [List.mem_map]
  rw [Leads, Leads, ends, ends, same.2.mem_iff]

/-! ### Drawings -/

end Graph

section
variable {α : Type} [Scalar α]

theorem normalized_length (margin : α) (width : Nat → α) (centers : List α) :
    (Placement.normalized margin width centers).length = centers.length := by
  unfold Placement.normalized
  split
  · split
    · exact List.length_map _
    · rfl
  · rfl

theorem draw_ranks (c : Config α) (g : Digraph) (sizes : List (Size α)) :
    (draw c g sizes).ranks = (Layering.of g).ranks := by
  obtain ⟨vertices, ranked⟩ := layering_size g
  have sound := augmented_sound (l := Layering.of g) (ranked.trans vertices.symm)
  have count : (Augmented.of (Layering.of g)).realCount = (Layering.of g).ranks.length := by
    rw [sound.realCount, vertices, ranked]
  show (Augmented.of (Layering.of g)).ranks.take (Augmented.of (Layering.of g)).realCount = _
  rw [count]
  exact (List.prefix_iff_eq_take.1 sound.ranks).symm

theorem draw_centers_length (c : Config α) (g : Digraph) (sizes : List (Size α)) :
    (draw c g sizes).centers.length = g.size := by
  obtain ⟨vertices, ranked⟩ := layering_size g
  have sound := augmented_sound (l := Layering.of g) (ranked.trans vertices.symm)
  have enough := sound.ranks.length_le
  rw [← sound.size, ranked] at enough
  simp only [draw, Placement.centers, List.length_take, List.length_zip, normalized_length, List.length_map,
    Digraph.vertices, List.length_range, sound.realCount, vertices]
  omega

/-- The nodes are drawn with the ranks of the layering. -/
theorem layout_ranks (c : Config α) (g : Graph) :
    (layout c g).nodes.map (fun n => (n.node, n.rank)) = g.nodes.zip (Layering.of (.ofGraph g)).ranks := by
  let sizes := g.nodes.map (Node.boxSize c)
  have ranks := draw_ranks c (.ofGraph g) sizes
  have centers : (draw c (.ofGraph g) sizes).centers.length = g.nodes.length := draw_centers_length c _ _
  have ranked : (Layering.of (.ofGraph g)).ranks.length = g.nodes.length := (layering_size _).2
  have drawn : (layout c g).nodes = boxes c g := rfl
  apply List.ext_getElem
  · simp [drawn, boxes, ranks, ranked, centers, sizes]
  · intro v _ _
    simp only [drawn, boxes, boxAround, List.map_map, List.getElem_map, List.getElem_zip, Function.comp_apply]
    exact congrArg _ (List.getElem_of_eq ranks _)

end

namespace Graph
variable {g : Graph}

theorem zip_ranks {sort : Digraph → Option (List Nat)} (good : g.WellFormed)
    (sized : (g.layering sort).ranks.length = g.nodes.length) :
    g.nodes.zip (g.layering sort).ranks = g.nodes.map fun n => (n, g.rankOf sort n.id) := by
  apply List.ext_getElem
  · simp [sized]
  · intro v inside _
    have vertex : v < g.nodes.length := by
      rw [List.length_zip] at inside
      omega
    simp [rankOf, place_id good.nodes_nodup vertex, rankIn, sized, vertex]

/-- Every graph is drawn on the ranks that any sort gives: its edges join different ranks, no rank is
    empty, and without cycles ranks are the lengths of longest paths, in whatever order the nodes and edges
    come. -/
theorem layout_ranked {g : Graph} (reachable : g.Reachable) :
    (∀ {α : Type} [Scalar α] (c : Config α), (layout c g).nodes.map (fun n => (n.node, n.rank)) =
        g.nodes.map fun n => (n, g.rankOf Digraph.topologicalOrder? n.id)) ∧
      Digraph.Sorts Digraph.topologicalOrder? ∧
      ∀ sort, Digraph.Sorts sort → g.Ranked sort ∧
        (g.Acyclic → ∀ sort' h, Digraph.Sorts sort' → h.Reachable → g.SameParts h →
          ∀ id, g.hasNode id → h.rankOf sort' id = g.rankOf sort id) := by
  have good := reachable.wellFormed
  have drawn := ranked_of_wellFormed Digraph.topologicalOrder?_sorts good
  refine ⟨fun c => (layout_ranks c g).trans (zip_ranks good drawn.sized), Digraph.topologicalOrder?_sorts, ?_⟩
  intro sort sorts
  have ranked := ranked_of_wellFormed sorts good
  refine ⟨ranked, fun acyclic sort' h sorts' reachable' same id there => ?_⟩
  have leads : h.Leads = g.Leads := funext fun a => funext fun b => propext same.leads
  have acyclic' : h.Acyclic := by
    rw [Acyclic, leads]
    exact acyclic
  have there' : h.hasNode id := hasNode_iff.2 (same.1.mem_iff.2 (hasNode_iff.1 there))
  have longest := (ranked_of_wellFormed sorts' reachable'.wellFormed).longest acyclic' id there'
  rw [leads] at longest
  exact longest.unique (ranked.longest acyclic id there)

/-- Two ways from one node to another, the short one doubled, a self loop at their end, and a node apart. -/
def detour : Graph :=
  ⟨[.bare ['A'], .bare ['B'], .bare ['C'], .bare ['D']],
    [⟨['1'], ['A'], ['C'], none, false⟩, ⟨['2'], ['C'], ['C'], none, false⟩, ⟨['3'], ['A'], ['C'], none, true⟩,
     ⟨['4'], ['B'], ['C'], none, false⟩, ⟨['5'], ['A'], ['B'], some ['x'], false⟩]⟩

theorem detour_ranked :
    detour.Reachable ∧ detour.Acyclic ∧ detour.Ranked Digraph.topologicalOrder? ∧
      (layout (Config.standard : Config Float) detour).nodes.map (fun n => (n.node, n.rank)) =
        [(.bare ['A'], 0), (.bare ['B'], 1), (.bare ['C'], 2), (.bare ['D'], 0)] := by
  have made : ofParts detour.nodes detour.edges = .ok detour := by decide +kernel
  have reachable : Reachable detour := .built (.parts made)
  have forward : ∀ e ∈ detour.edges, e.source ≠ e.target → detour.place e.source < detour.place e.target := by decide
  have rises : ∀ a b, Relation.TransGen detour.Leads a b → detour.place a < detour.place b := by
    intro a b way
    induction way with
    | single leads =>
      obtain ⟨different, e, member, rfl, rfl⟩ := leads
      exact forward e member different
    | tail _ leads ih =>
      obtain ⟨different, e, member, rfl, rfl⟩ := leads
      exact ih.trans (forward e member different)
  obtain ⟨drawn, sorts, all⟩ := layout_ranked reachable
  refine ⟨reachable, fun a cycle => Nat.lt_irrefl _ (rises a a cycle), (all _ sorts).1, ?_⟩
  rw [drawn Config.standard]
  decide

end Graph
end Flowchart
