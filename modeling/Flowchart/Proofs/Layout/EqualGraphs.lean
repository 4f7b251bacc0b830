import Flowchart.Proofs.Layout.Seats

/-!
Drawings of equal graphs. A node has the box around the center of its vertex, in whatever order the nodes are
(`position?_seat`), and two drawings with the same ids in the same order on each rank have the same ranks, with the
seats in the same order (`sameRanks_of_idsOn`, `seat_ascending`). It is through these lists alone that the order of
the nodes counts in a drawing (`layout_sameAs`).
-/
namespace Flowchart
open Placement

namespace Graph
variable {α : Type} [Field α] [LinearOrder α] [IsStrictOrderedRing α] {g h : Graph}
variable (good : g.WellFormed) (good' : h.WellFormed) (same : g.sameAs h)

/-! ### Positions -/

theorem position?_eq (c : Config α) (g : Graph) (id : Text) : (layout c g).position? id = (boxes c g)[g.place id]? := by
  show (boxes c g).find? (·.node.id = id) = _
  rw [List.find?_eq_getElem?_findIdx, place]
  conv => rhs; rw [← boxes_nodes c g, List.findIdx_map]
  rfl

theorem position?_eq_none (c : Config α) {id : Text} (missing : ¬ g.hasNode id) : (layout c g).position? id = none := by
  rw [Diagram.position?, List.find?_eq_none]
  intro box member found
  have node : box.node ∈ g.nodes := boxes_nodes c g ▸ List.mem_map_of_mem member
  exact missing (hasNode_iff_exists.2 ⟨_, node, by simpa using found⟩)

include good same

theorem hasNode_sameAs (id : Text) : h.hasNode id ↔ g.hasNode id := by
  refine ⟨fun there => ?_, sameAs_hasNode same id⟩
  have inside : g.nodes.map (·.id) ⊆ h.nodes.map (·.id) := fun id member =>
    hasNode_iff.1 (sameAs_hasNode same id (hasNode_iff.2 member))
  have perm := (List.subperm_of_subset good.nodes_nodup inside).perm_of_length_le (by simp [(sameAs_iff.1 same).1])
  exact hasNode_iff.2 (perm.mem_iff.2 (hasNode_iff.1 there))

/-- A node has boxes of the same size in both drawings, each around the center and on the rank of its vertex. -/
theorem position?_seat {c : Config α} {offset offset' : α} (drawn : DrawnAt c g offset) (drawn' : DrawnAt c h offset')
    {v : Nat} (inside : v < g.nodes.length) :
    (layout c g).position? g.nodes[v].id = some (boxAround g.nodes[v] (g.nodes[v].boxSize c)
        (g.centerAcross c v + offset, g.centerDown c v) (rankIn g.augmented.ranks v)) ∧
      (layout c h).position? g.nodes[v].id = some (boxAround g.nodes[v] (g.nodes[v].boxSize c)
        (h.centerAcross c (g.seat h v) + offset', h.centerDown c (g.seat h v))
        (rankIn h.augmented.ranks (g.seat h v))) := by
  constructor
  · rw [position?_eq, place_id good.nodes_nodup inside, (drawn v inside).1, vertexBox, boxSize_eq]
  · have there : g.hasNode g.nodes[v].id := hasNode_iff_exists.2 ⟨_, List.getElem_mem inside, rfl⟩
    have seated : g.seat h v < h.nodes.length := (sameAs_iff.1 same).1 ▸ seat_lt same inside
    have node : h.nodes[g.seat h v] = g.nodes[v] := by
      rw [← Option.some.injEq, ← List.getElem?_eq_getElem seated, getElem_seat same inside]
    have seat : h.place g.nodes[v].id = g.seat h v := by
      rw [← seat_place there, place_id good.nodes_nodup inside]
    rw [position?_eq, seat, (drawn' _ seated).1, vertexBox, ← boxSize_eq c h seated, node]

/-- What holds of the positions of all nodes holds of those of all ids: an id without a node has no position. -/
theorem forall_position? {c : Config α} {β : Type} (look : Option (PositionedNode α) → β)
    (each : ∀ v (inside : v < g.nodes.length), look ((layout c h).position? g.nodes[v].id) =
      look ((layout c g).position? g.nodes[v].id)) (id : Text) :
    look ((layout c h).position? id) = look ((layout c g).position? id) := by
  by_cases there : g.hasNode id
  · have node := nodes_place there
    have here := each (g.place id) (place_lt there)
    rw [List.get_eq_getElem] at node
    rwa [node] at here
  · rw [position?_eq_none c there, position?_eq_none c fun there' => there ((hasNode_sameAs good same id).1 there')]

end Graph

/-- All ids have the same ranks in both drawings. -/
def Diagram.SameRanks {α : Type} (d e : Diagram α) : Prop :=
  ∀ id, (e.position? id).map (·.rank) = (d.position? id).map (·.rank)

/-- The ids on a rank, in graph order. -/
def Diagram.idsOn {α : Type} (d : Diagram α) (rank : Nat) : List Text :=
  (d.nodes.filter (·.rank = rank)).map (·.node.id)

namespace Graph
variable {α : Type} [Field α] [LinearOrder α] [IsStrictOrderedRing α] {g h : Graph} {c : Config α}
variable (good : g.WellFormed) (good' : h.WellFormed) (same : g.sameAs h)

section
include good same

theorem sameRanks_iff : (layout c g).SameRanks (layout c h) ↔ g.RankedAs h := by
  obtain ⟨_, drawn⟩ := exists_drawnAt c g
  obtain ⟨_, drawn'⟩ := exists_drawnAt c h
  constructor
  · intro ranks v inside
    obtain ⟨here, there⟩ := position?_seat good same drawn drawn' inside
    have rank := ranks g.nodes[v].id
    rw [here, there] at rank
    exact Option.some.inj rank
  · intro ranks
    refine forall_position? good same (Option.map (·.rank)) fun v inside => ?_
    obtain ⟨here, there⟩ := position?_seat good same drawn drawn' inside
    rw [here, there]
    exact congrArg some (ranks v inside)

end

/-! ### Ids on a rank -/

include good in
theorem mem_idsOn {r : Nat} {id : Text} :
    id ∈ (layout c g).idsOn r ↔ ((layout c g).position? id).map (·.rank) = some r := by
  rw [Option.map_eq_some_iff, Diagram.idsOn, List.mem_map]
  simp only [List.mem_filter, decide_eq_true_eq]
  constructor
  · rintro ⟨box, ⟨member, rank⟩, rfl⟩
    obtain ⟨v, inside', rfl⟩ := List.getElem_of_mem (show box ∈ boxes c g from member)
    have inside : v < g.nodes.length := boxes_length c g ▸ inside'
    have node : (boxes c g)[v].node = g.nodes[v] := by
      simp only [← boxes_nodes c g, List.getElem_map]
    refine ⟨_, ?_, rank⟩
    rw [position?_eq, node, place_id good.nodes_nodup inside, List.getElem?_eq_getElem inside']
  · rintro ⟨box, found, rank⟩
    exact ⟨box, ⟨List.mem_of_find?_eq_some found, rank⟩, by simpa using List.find?_some found⟩

include good good' in
/-- Drawings with the same ids on each rank have the same ranks. -/
theorem sameRanks_of_idsOn (ids : ∀ r, (layout c h).idsOn r = (layout c g).idsOn r) :
    (layout c g).SameRanks (layout c h) := by
  intro id
  ext r
  rw [← mem_idsOn good', ids r, mem_idsOn good]

include good in
/-- The ids on a rank are in graph order. -/
theorem idsOn_pairwise (r : Nat) : ((layout c g).idsOn r).Pairwise fun a b => g.place a < g.place b := by
  have nodes : (layout c g).nodes.map (·.node.id) = g.nodes.map (·.id) := by
    rw [← boxes_nodes c g, List.map_map]
    rfl
  have part : ((layout c g).idsOn r).Sublist (g.nodes.map (·.id)) := nodes ▸ List.filter_sublist.map _
  refine List.Pairwise.sublist part (List.pairwise_iff_getElem.2 fun v w inside inside' less => ?_)
  rw [List.length_map] at inside inside'
  rwa [List.getElem_map, List.getElem_map, place_id good.nodes_nodup inside, place_id good.nodes_nodup inside']

include good good' same in
/-- With the same ids on each rank in the same order, seats keep the order of the nodes on a rank. -/
theorem seat_ascending (ids : ∀ r, (layout c h).idsOn r = (layout c g).idsOn r) : Ascending (g.seat h) g.augmented := by
  intro v w less _ rank
  have permutes := seat_permutes good same
  rcases Nat.lt_or_ge w g.nodes.length with inside' | behind
  · have inside := less.trans inside'
    obtain ⟨_, drawn⟩ := exists_drawnAt c g
    obtain ⟨_, drawn'⟩ := exists_drawnAt c h
    have on : ∀ {u}, (there : u < g.nodes.length) →
        g.nodes[u].id ∈ (layout c g).idsOn (rankIn g.augmented.ranks u) := by
      intro u there
      rw [mem_idsOn good, (position?_seat good same drawn drawn' there).1]
      rfl
    have first := on inside
    have second := on inside'
    rw [← rank] at second
    have order := idsOn_pairwise good (c := c) (rankIn g.augmented.ranks v)
    have order' := idsOn_pairwise good' (c := c) (rankIn g.augmented.ranks v)
    rw [ids] at order'
    have different : g.nodes[v].id ≠ g.nodes[w].id := by
      intro equal
      have places := congrArg g.place equal
      rw [place_id good.nodes_nodup inside, place_id good.nodes_nodup inside'] at places
      omega
    rw [seat, seat, dif_pos inside, dif_pos inside']
    rcases pairwise_or (order.and order') first second different with before | after
    · exact before.2
    · have places := after.1
      rw [place_id good.nodes_nodup inside, place_id good.nodes_nodup inside'] at places
      omega
  · rw [permutes.fixed w behind]
    rcases Nat.lt_or_ge v g.nodes.length with inside | behind'
    · exact (permutes.lt v inside).trans_le behind
    · rwa [permutes.fixed v behind']

/-! ### Equal graphs -/

include good good' same in
/-- Without cycles a rank is the length of a longest path, which is the same in both graphs. -/
theorem rankedAs_of_acyclic (acyclic : g.Acyclic) : g.RankedAs h := by
  intro v inside
  have edges := (sameAs_iff.1 same).2.2
  have leads : h.Leads = g.Leads := by
    unfold Leads
    rw [edges]
  have there : g.hasNode g.nodes[v].id := hasNode_iff_exists.2 ⟨_, List.getElem_mem inside, rfl⟩
  have longest := (ranked_of_wellFormed Digraph.topologicalOrder?_sorts good).longest acyclic _ there
  have longest' := (ranked_of_wellFormed Digraph.topologicalOrder?_sorts good').longest
    (by rwa [Acyclic, leads]) _ (sameAs_hasNode same _ there)
  rw [leads] at longest'
  have ranks := longest'.unique longest
  rw [rankOf, rankOf, ← seat_place there, place_id good.nodes_nodup inside] at ranks
  rw [rankIn_augmented (seat_lt same inside |>.trans_eq (sameAs_iff.1 same).1), rankIn_augmented inside]
  exact ranks

/-- Graphs with the same nodes and edges, but their nodes in different orders, have boxes of the same size for every
    id. Without cycles they have the same ranks; drawings with the same ranks have their boxes at the same height;
    and drawings with the same ids in the same order on each rank have all boxes at the same place. -/
theorem layout_sameAs {g h : Graph} (reachable : g.Reachable) (reachable' : h.Reachable) (same : g.sameAs h)
    (c : Config α) :
    (∀ id, ((layout c h).position? id).map (fun n => (n.node, n.width, n.height)) =
        ((layout c g).position? id).map fun n => (n.node, n.width, n.height)) ∧
      (g.Acyclic → (layout c g).SameRanks (layout c h)) ∧
      ((layout c g).SameRanks (layout c h) → ∀ id,
        ((layout c h).position? id).map (·.y) = ((layout c g).position? id).map (·.y)) ∧
      ((∀ r, (layout c h).idsOn r = (layout c g).idsOn r) → ∀ id,
        (layout c h).position? id = (layout c g).position? id) := by
  have good := reachable.wellFormed
  have good' := reachable'.wellFormed
  obtain ⟨_, drawn⟩ := exists_drawnAt c g
  obtain ⟨_, drawn'⟩ := exists_drawnAt c h
  have positions := fun {v} inside => position?_seat good same drawn drawn' (v := v) inside
  have vertex : ∀ {v}, v < g.nodes.length → v < g.augmented.graph.size := fun inside => inside.trans_le g.augmented_size
  refine ⟨?_, fun acyclic => (sameRanks_iff good same).2 (rankedAs_of_acyclic good good' same acyclic), ?_, ?_⟩
  · refine forall_position? good same (Option.map fun n => (n.node, n.width, n.height)) fun v inside => ?_
    rw [(positions inside).1, (positions inside).2]
    simp only [Option.map_some, boxAround]
  · intro ranks
    have renamed := augmented_seat good same ((sameRanks_iff good same).1 ranks)
    refine forall_position? good same (Option.map (·.y)) fun v inside => ?_
    rw [(positions inside).1, (positions inside).2, centerDown_seat good same renamed c (vertex inside)]
    simp only [Option.map_some, boxAround]
  · intro ids
    have ranks := (sameRanks_iff good same).1 (sameRanks_of_idsOn good good' ids)
    have renamed := augmented_seat good same ranks
    have across := centerAcross_seat good same renamed c (seat_ascending good good' same ids)
    obtain ⟨offset, drawn, drawn'⟩ := exists_drawnAt_seat good same renamed c across
    refine forall_position? good same id fun v inside => ?_
    obtain ⟨here, there⟩ := position?_seat good same drawn drawn' inside
    rw [here, there, across, centerDown_seat good same renamed c (vertex inside), ranks v inside]

/-- Two nodes above a third one, in any order. -/
def funnel (ids : List Char) : Graph :=
  ⟨ids.map fun id => .bare [id], [⟨['1'], ['A'], ['C'], none, false⟩, ⟨['2'], ['B'], ['C'], none, false⟩]⟩

theorem funnel_sameAs :
    (funnel ['A', 'B', 'C']).Reachable ∧ (funnel ['A', 'C', 'B']).Reachable ∧
      (funnel ['A', 'B', 'C']).sameAs (funnel ['A', 'C', 'B']) ∧
      (∀ r, (layout (Config.standard : Config ℚ) (funnel ['A', 'C', 'B'])).idsOn r =
        (layout (Config.standard : Config ℚ) (funnel ['A', 'B', 'C'])).idsOn r) ∧
      ∀ id, (layout (Config.standard : Config ℚ) (funnel ['A', 'C', 'B'])).position? id =
        (layout (Config.standard : Config ℚ) (funnel ['A', 'B', 'C'])).position? id := by
  have made : ∀ ids ∈ [['A', 'B', 'C'], ['A', 'C', 'B']],
      ofParts (funnel ids).nodes (funnel ids).edges = .ok (funnel ids) := by decide +kernel
  have reachable : Reachable (funnel ['A', 'B', 'C']) := .built (.parts (made _ (by decide)))
  have reachable' : Reachable (funnel ['A', 'C', 'B']) := .built (.parts (made _ (by decide)))
  have same : (funnel ['A', 'B', 'C']).sameAs (funnel ['A', 'C', 'B']) := by decide
  have ranks : ∀ ids ∈ [['A', 'B', 'C'], ['A', 'C', 'B']],
      (layout (Config.standard : Config ℚ) (funnel ids)).nodes.map (fun n => (n.node.id, n.rank)) =
        ids.map fun id => ([id], if id = 'C' then 1 else 0) := by decide +kernel
  have listed : ∀ (d : Diagram ℚ) (r : Nat),
      d.idsOn r = ((d.nodes.map fun n => (n.node.id, n.rank)).filter (·.2 = r)).map (·.1) := by
    intro d r
    rw [Diagram.idsOn, List.filter_map, List.map_map]
    rfl
  have ids : ∀ r, (layout (Config.standard : Config ℚ) (funnel ['A', 'C', 'B'])).idsOn r =
      (layout (Config.standard : Config ℚ) (funnel ['A', 'B', 'C'])).idsOn r := by
    intro r
    rw [listed, listed, ranks _ (by decide), ranks _ (by decide)]
    match r with
    | 0 => rfl
    | 1 => rfl
    | r + 2 => rfl
  obtain ⟨-, -, -, alike⟩ := layout_sameAs reachable reachable' same (Config.standard : Config ℚ)
  exact ⟨reachable, reachable', same, ids, alike ids⟩

/-- Two nodes that lead to one another, in any order. -/
def swing (ids : List Char) : Graph :=
  ⟨ids.map fun id => .bare [id], [⟨['1'], ['A'], ['B'], none, false⟩, ⟨['2'], ['B'], ['A'], none, false⟩]⟩

/-- A cycle is broken where its first node is, and a rank starts with its first node: in another order of the nodes,
    a node of a cycle is on another rank, and one without a cycle elsewhere on its rank. -/
theorem swing_not_alike :
    (swing ['B', 'A']).Reachable ∧ (swing ['A', 'B']).Reachable ∧ (swing ['B', 'A']).sameAs (swing ['A', 'B']) ∧
      ((layout (Config.standard : Config Float) (swing ['B', 'A'])).position? ['A']).map (fun n => (n.x, n.y, n.rank)) =
        some (40, 190, 1) ∧
      ((layout (Config.standard : Config Float) (swing ['A', 'B'])).position? ['A']).map (fun n => (n.x, n.y, n.rank)) =
        some (40, 40, 0) ∧
      (funnel ['B', 'A', 'C']).sameAs (funnel ['A', 'C', 'B']) ∧
      ((layout (Config.standard : Config Float) (funnel ['B', 'A', 'C'])).position? ['A']).map
          (fun n => (n.x, n.y, n.rank)) =
        some (270, 40, 0) ∧
      ((layout (Config.standard : Config Float) (funnel ['A', 'C', 'B'])).position? ['A']).map
          (fun n => (n.x, n.y, n.rank)) =
        some (40, 40, 0) ∧
      ¬ ∀ (c : Config Float) (g h : Graph), g.Reachable → h.Reachable → g.sameAs h → ∀ id,
        ((layout c h).position? id).map (fun n => (n.x, n.y, n.rank)) =
          ((layout c g).position? id).map fun n => (n.x, n.y, n.rank) := by
  have made : ∀ ids ∈ [['A', 'B'], ['B', 'A']], ofParts (swing ids).nodes (swing ids).edges = .ok (swing ids) := by
    decide +kernel
  have reachable : Reachable (swing ['B', 'A']) := .built (.parts (made _ (by decide)))
  have reachable' : Reachable (swing ['A', 'B']) := .built (.parts (made _ (by decide)))
  have same : (swing ['B', 'A']).sameAs (swing ['A', 'B']) := by decide
  have low : ((layout (Config.standard : Config Float) (swing ['B', 'A'])).position? ['A']).map
      (fun n => (n.x, n.y, n.rank)) = some (40, 190, 1) := by decide +kernel
  have high : ((layout (Config.standard : Config Float) (swing ['A', 'B'])).position? ['A']).map
      (fun n => (n.x, n.y, n.rank)) = some (40, 40, 0) := by decide +kernel
  refine ⟨reachable, reachable', same, low, high, by decide, by decide +kernel, by decide +kernel, fun claimed => ?_⟩
  have equal := claimed Config.standard _ _ reachable reachable' same ['A']
  rw [low, high] at equal
  have ranks : (0 : Nat) = 1 := congrArg (fun p => p.2.2) (Option.some.inj equal)
  cases ranks

end Graph
end Flowchart
