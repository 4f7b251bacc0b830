import Flowchart.Proofs.Layout.Boxes
import Flowchart.Proofs.Layout.NodeRanks
import Flowchart.Proofs.Layout.Renaming

/-!
Equal graphs with their nodes in different orders. The vertices of the one are those of the other under new names,
by the seats that the nodes have (`ofGraph_seat`). The edges of a layering lead to higher ranks (`of_edges`), so
when the ranks agree, the layered graphs are the same but for the names (`augmented_seat`), and each rank has the
same height and the same center line (`centerDown_seat`). When the nodes of each rank also come in the same order,
the boxes are the same from left to right (`centerAcross_seat`), and both drawings are moved to the margin by the
same length (`exists_drawnAt_seat`).
-/
namespace Flowchart
open Placement

/-! ### Layerings -/

/-- The edge or its reverse, whichever leads to a higher rank. -/
def turned (ranks : List Nat) (e : Nat × Nat) : Nat × Nat := if rankIn ranks e.1 < rankIn ranks e.2 then e else e.swap

namespace Layering
open Flowchart.Digraph

theorem of_edges {g : Digraph} (proper : g.Proper) (loopless : ∀ v, ¬ g.Adj v v) :
    (Layering.of g).dag.edges = g.edges.map (turned (Layering.of g).ranks) := by
  obtain ⟨order, topological, walked, properDag, -⟩ := sortedBy_spec topologicalOrder?_sorts proper loopless
  rw [← of_eq_sortedBy] at topological walked properDag
  have rises := (longestPaths_spec properDag topological).1
  rw [← walked] at rises
  obtain ⟨turn, either, edges⟩ : ∃ turn : Nat × Nat → Nat × Nat, (∀ e, turn e = e ∨ turn e = e.swap) ∧
      (Layering.of g).dag.edges = g.edges.map turn := by
    unfold Layering.of
    split
    · exact ⟨id, fun e => .inl rfl, (List.map_id _).symm⟩
    · exact ⟨forward g.arrangement, forward_cases g.arrangement, rfl⟩
  rw [edges]
  refine List.map_congr_left fun e member => ?_
  have up : rankIn (Layering.of g).ranks (turn e).1 < rankIn (Layering.of g).ranks (turn e).2 :=
    rises _ _ (by rw [Adj, edges]; exact List.mem_map_of_mem member)
  unfold turned
  rcases either e with kept | swapped
  · rw [kept] at up ⊢
    rw [if_pos up]
  · rw [swapped] at up ⊢
    exact (if_neg (Nat.lt_asymm up)).symm

/-- Graphs that are the same but for the names are layered by the same edges, if the ranks agree. -/
theorem of_rename {f : Nat → Nat} {g : Digraph} (proper : g.Proper) (loopless : ∀ v, ¬ g.Adj v v)
    (proper' : (g.rename f).Proper) (loopless' : ∀ v, ¬ (g.rename f).Adj v v)
    (same : ∀ v, rankIn (Layering.of (g.rename f)).ranks (f v) = rankIn (Layering.of g).ranks v) :
    (Layering.of (g.rename f)).dag = (Layering.of g).dag.rename f := by
  have edges := of_edges proper loopless
  have edges' := of_edges proper' loopless'
  have size := (layering_size g).1
  have size' := (layering_size (g.rename f)).1
  have turns : ∀ e, turned (Layering.of (g.rename f)).ranks (Prod.map f f e) =
      Prod.map f f (turned (Layering.of g).ranks e) := by
    intro e
    simp only [turned, Prod.map_fst, Prod.map_snd, same]
    split <;> rfl
  refine congrArg₂ Digraph.mk (size'.trans size.symm) ?_
  rw [edges, edges', rename, List.map_map, List.map_map]
  exact List.map_congr_left fun e _ => turns e

end Layering

/-! ### Center lines -/

namespace Placement
variable {α : Type} [Field α] [LinearOrder α] {gap : α} {height : Nat → α}

/-- The center lines of ranks of some heights, from a top edge on. -/
def centerLines (gap top : α) : List α → List α
  | [] => []
  | tallest :: rest => (top + half tallest) :: centerLines gap (top + (tallest + gap)) rest

/-- All boxes of a rank are centered on its line. -/
theorem stack_centerLines (top : α) (o : Ordering) {r : Nat} (inside : r < (stack gap height top o).length) :
    ∀ p ∈ (stack gap height top o)[r], (centerLines gap top (o.map (rankHeight height)))[r]? = some p.2 := by
  induction o generalizing top r with
  | nil => exact absurd inside (Nat.not_lt_zero r)
  | cons rank rest ih =>
    intro p entry
    cases r with
    | zero =>
      obtain ⟨v, -, rfl⟩ := List.mem_map.1 entry
      rfl
    | succ r => exact ih _ (Nat.lt_of_succ_lt_succ inside) p entry

/-- A rank is as high whatever the order of its boxes. -/
theorem rankHeight_rename {f : Nat → Nat} {height' : Nat → α} (high : ∀ v, height' (f v) = height v)
    {rank rank' : List Nat} (same : (rank.map f).Perm rank') :
    rankHeight height' rank' = rankHeight height rank := by
  have heights := (same.map height').symm
  rw [map_rename high] at heights
  rw [rankHeight, rankHeight, largest_eq, largest_eq, heights.foldl_op_eq]

end Placement

namespace Graph
variable {g h : Graph}

/-! ### Seats -/

theorem sameAs_iff : g.sameAs h ↔
    g.nodes.length = h.nodes.length ∧ (∀ n ∈ g.nodes, h.node? n.id = some n) ∧ g.edges = h.edges := by
  simp [sameAs, and_assoc]

/-- Where the second graph has the node that the first one has at a place. -/
def seat (g h : Graph) (v : Nat) : Nat := if inside : v < g.nodes.length then h.place g.nodes[v].id else v

theorem node?_eq_getElem? (id : Text) : g.node? id = g.nodes[g.place id]? := List.find?_eq_getElem?_findIdx

theorem seat_place {id : Text} (there : g.hasNode id) : g.seat h (g.place id) = h.place id := by
  rw [seat, dif_pos (place_lt there)]
  exact congrArg h.place (nodes_place there)

variable (good : g.WellFormed) (good' : h.WellFormed) (same : g.sameAs h)

section
include same

theorem getElem_seat {v : Nat} (inside : v < g.nodes.length) : h.nodes[g.seat h v]? = some g.nodes[v] := by
  rw [seat, dif_pos inside, ← node?_eq_getElem?]
  exact (sameAs_iff.1 same).2.1 _ (List.getElem_mem inside)

theorem seat_lt {v : Nat} (inside : v < g.nodes.length) : g.seat h v < g.nodes.length := by
  rw [(sameAs_iff.1 same).1]
  exact (List.getElem?_eq_some_iff.1 (getElem_seat same inside)).1

include good in
theorem seat_permutes : Permutes (g.seat h) g.nodes.length := by
  have behind : ∀ v, g.nodes.length ≤ v → g.seat h v = v := fun v later => dif_neg (Nat.not_lt.2 later)
  refine ⟨fun v w together => ?_, fun v inside => seat_lt same inside, behind⟩
  rcases Nat.lt_or_ge v g.nodes.length with first | first <;> rcases Nat.lt_or_ge w g.nodes.length with second | second
  · have node := getElem_seat same first
    rw [together, getElem_seat same second, Option.some.injEq] at node
    rw [← place_id good.nodes_nodup first, ← node, place_id good.nodes_nodup second]
  · have := seat_lt same first
    rw [together, behind w second] at this
    omega
  · have := seat_lt same second
    rw [← together, behind v first] at this
    omega
  · rwa [behind v first, behind w second] at together

theorem sameAs_hasNode (id : Text) : g.hasNode id → h.hasNode id := by
  intro there
  obtain ⟨n, member, rfl⟩ := hasNode_iff_exists.1 there
  exact node?_isSome.1 (by rw [(sameAs_iff.1 same).2.1 n member]; rfl)

include good in
/-- The vertices of the second graph are those of the first one, each by its seat. -/
theorem ofGraph_seat : Digraph.ofGraph h = (Digraph.ofGraph g).rename (g.seat h) := by
  obtain ⟨size, -, edges⟩ := sameAs_iff.1 same
  refine congrArg₂ Digraph.mk size.symm ?_
  rw [Digraph.ofGraph, ← edges, List.map_filterMap]
  refine List.filterMap_congr fun e member => ?_
  obtain ⟨source, target⟩ := good.ends_present e member
  rw [findIdx?_eq_place.2 ⟨source, rfl⟩, findIdx?_eq_place.2 ⟨target, rfl⟩,
    findIdx?_eq_place.2 ⟨sameAs_hasNode same _ source, rfl⟩, findIdx?_eq_place.2 ⟨sameAs_hasNode same _ target, rfl⟩]
  rw [← seat_place (h := h) source, ← seat_place (h := h) target]
  simp only [(seat_permutes good same).injective.eq_iff]
  split <;> rfl

/-! ### Layered graphs -/

/-- Each node is on the same rank in both graphs. -/
def RankedAs (g h : Graph) : Prop :=
  ∀ v < g.nodes.length, rankIn h.augmented.ranks (g.seat h v) = rankIn g.augmented.ranks v

omit same in
theorem rankIn_augmented {v : Nat} (inside : v < g.nodes.length) :
    rankIn g.augmented.ranks v = rankIn (Layering.of (Digraph.ofGraph g)).ranks v := by
  obtain ⟨more, split⟩ := g.augmented_sound.ranks
  have ranked : (Layering.of (Digraph.ofGraph g)).ranks.length = g.nodes.length := (layering_size _).2
  rw [rankIn, ← split, List.getD_append _ _ _ _ (ranked.symm ▸ inside), rankIn]

include good in
/-- When the ranks agree, the layered graphs are the same but for the names. -/
theorem augmented_seat (ranks : g.RankedAs h) : g.augmented.Renamed (g.seat h) h.augmented := by
  have permutes := seat_permutes good same
  have graph := ofGraph_seat good same
  obtain ⟨vertices, sized⟩ := layering_size (Digraph.ofGraph g)
  obtain ⟨-, sized'⟩ := layering_size (Digraph.ofGraph h)
  have length := (sameAs_iff.1 same).1
  have agree : ∀ v, rankIn (Layering.of (Digraph.ofGraph h)).ranks (g.seat h v) =
      rankIn (Layering.of (Digraph.ofGraph g)).ranks v := by
    intro v
    rcases Nat.lt_or_ge v g.nodes.length with inside | behind
    · rw [← rankIn_augmented (seat_lt same inside |>.trans_eq length), ranks v inside, rankIn_augmented inside]
    · rw [permutes.fixed v behind, rankIn, rankIn, List.getD_eq_default _ _ (sized.trans_le behind),
        List.getD_eq_default _ _ ((sized'.trans length.symm).trans_le behind)]
  refine of_renamed permutes vertices ?_ ⟨sized, sized'.trans length.symm⟩ agree
  have proper := ofGraph_proper h
  have loopless := ofGraph_loopless h
  rw [graph] at agree proper loopless ⊢
  exact Layering.of_rename (ofGraph_proper g) (ofGraph_loopless g) proper loopless agree

end

/-! ### Centers -/

variable {α : Type} [Field α] [LinearOrder α]

section
include good same

theorem sizeOf_seat (c : Config α) (v : Nat) :
    Placement.sizeOf c h.augmented (h.nodes.map (Node.boxSize c)) (g.seat h v) =
      Placement.sizeOf c g.augmented (g.nodes.map (Node.boxSize c)) v := by
  have length := (sameAs_iff.1 same).1
  unfold Placement.sizeOf Augmented.isDummy
  rw [h.augmented_realCount, g.augmented_realCount, ← length]
  rcases Nat.lt_or_ge v g.nodes.length with inside | behind
  · have node := getElem_seat same inside
    simp [Nat.not_le.2 (seat_lt same inside), Nat.not_le.2 inside, inside, node]
  · simp [(seat_permutes good same).fixed v behind, behind]

theorem widthOf_seat (c : Config α) (v : Nat) : h.widthOf c (g.seat h v) = g.widthOf c v :=
  congrArg Size.width (sizeOf_seat good same c v)

theorem heightOf_seat (c : Config α) (v : Nat) : h.heightOf c (g.seat h v) = g.heightOf c v :=
  congrArg Size.height (sizeOf_seat good same c v)

variable (renamed : g.augmented.Renamed (g.seat h) h.augmented)
include renamed

/-- When the nodes of each rank are in the same order, the boxes are the same from left to right. -/
theorem centerAcross_seat (c : Config α) (ascending : Ascending (g.seat h) g.augmented) (v : Nat) :
    h.centerAcross c (g.seat h v) = g.centerAcross c v := by
  have permutes := seat_permutes good same
  have ordered : h.ordered c = (g.ordered c).map (List.map (g.seat h)) :=
    Ordering.minimal_rename permutes g.augmented_size renamed ascending c.maxCrossingPasses
  rw [centerAcross, across, ordered, renamed.graph]
  exact across_rename permutes.injective (widthOf_seat good same c) _ _ _ _

/-- The ranks are as high in both graphs, so that their center lines are the same. -/
theorem centerDown_seat (c : Config α) {v : Nat} (vertex : v < g.augmented.graph.size) :
    h.centerDown c (g.seat h v) = g.centerDown c v := by
  have permutes := seat_permutes good same
  have heights : (h.ordered c).map (rankHeight (h.heightOf c)) = (g.ordered c).map (rankHeight (g.heightOf c)) := by
    have ranks := Ordering.minimal_rename_perm permutes g.augmented_size renamed c.maxCrossingPasses
    refine List.forall₂_eq_eq_eq ▸ List.forall₂_map_left_iff.2 (List.forall₂_map_right_iff.2 ?_)
    exact ranks.flip.imp fun _ _ => rankHeight_rename (heightOf_seat good same c)
  have line : ∀ {k : Graph} {w : Nat}, w < k.augmented.graph.size →
      (centerLines c.verticalGap c.margin
          ((k.ordered c).map (rankHeight (k.heightOf c))))[rankIn k.augmented.ranks w]? =
        some (k.centerDown c w) := by
    intro k w there
    obtain ⟨inside, entry⟩ := entry_of_rank (k.down_keys c) there
    exact stack_centerLines c.margin (k.ordered c) inside _ entry
  have first := line vertex
  have second := line (renamed.size ▸ (permutes.lt_iff g.augmented_size).2 vertex)
  rw [heights, renamed.ranks, first] at second
  exact (Option.some.inj second).symm

/-- Both drawings are moved to the margin by the same length. -/
theorem exists_drawnAt_seat [IsStrictOrderedRing α] (c : Config α)
    (across : ∀ v, h.centerAcross c (g.seat h v) = g.centerAcross c v) :
    ∃ offset, DrawnAt c g offset ∧ DrawnAt c h offset := by
  have permutes := seat_permutes good same
  have size := renamed.size
  obtain ⟨offset, drawn, bounded, touching⟩ := exists_touching c g
  obtain ⟨offset', drawn', bounded', touching'⟩ := exists_touching c h
  by_cases empty : h.augmented.graph.size = 0
  · exact ⟨offset, drawn, fun v inside => absurd (inside.trans_le h.augmented_size) (by omega)⟩
  -- The box that touches the margin in one drawing bounds the other one.
  obtain ⟨v, vertex, touches⟩ := touching (size ▸ empty)
  obtain ⟨w', vertex', touches'⟩ := touching' empty
  obtain ⟨w, inside, rfl⟩ : ∃ w < g.augmented.graph.size, g.seat h w = w' := by
    have member : w' ∈ (List.range g.augmented.graph.size).map (g.seat h) :=
      (permutes.range_perm g.augmented_size).mem_iff.2 (List.mem_range.2 (size ▸ vertex'))
    obtain ⟨w, inside, seated⟩ := List.mem_map.1 member
    exact ⟨w, List.mem_range.1 inside, seated⟩
  have left := bounded' _ (size ▸ (permutes.lt_iff g.augmented_size).2 vertex)
  have right := bounded w inside
  rw [across, widthOf_seat good same] at left touches'
  obtain rfl : offset = offset' := by linarith
  exact ⟨offset, drawn, drawn'⟩

end

end Graph
end Flowchart
