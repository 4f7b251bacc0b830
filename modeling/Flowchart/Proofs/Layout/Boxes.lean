import Flowchart.Proofs.Layout.Spacing

/-!
The boxes of a drawing. When no length of the configuration is negative, every node of a graph gets
a box of its own: no two of them overlap, a box of a lower rank starts a vertical gap below every
box of a higher one, and all of them lie within the margins (`layout_wellPlaced`). The arithmetic is that
of any ordered field.
-/
namespace Flowchart
open Placement
variable {α : Type}

/-! ### Vertices -/

namespace Graph

/-- The layered graph that is drawn for a flowchart. -/
def augmented (g : Graph) : Augmented := Augmented.of (Layering.of (Digraph.ofGraph g))

def ordered (c : Config α) (g : Graph) : Ordering := Ordering.minimal g.augmented c.maxCrossingPasses

theorem augmented_sound (g : Graph) : g.augmented.Sound (Layering.of (Digraph.ofGraph g)) := by
  obtain ⟨vertices, ranked⟩ := layering_size (Digraph.ofGraph g)
  exact Flowchart.augmented_sound (ranked.trans vertices.symm)

theorem augmented_realCount (g : Graph) : g.augmented.realCount = g.nodes.length := by
  rw [g.augmented_sound.realCount, (layering_size _).1]
  rfl

theorem augmented_size (g : Graph) : g.nodes.length ≤ g.augmented.graph.size := by
  have ranked : (Layering.of (Digraph.ofGraph g)).ranks.length = g.nodes.length := (layering_size _).2
  rw [g.augmented_sound.size, ← ranked]
  exact g.augmented_sound.ranks.length_le

theorem mem_ordered (c : Config α) (g : Graph) {v : Nat} (vertex : v < g.augmented.graph.size) :
    ∃ inside : rankIn g.augmented.ranks v < (g.ordered c).length, v ∈ (g.ordered c)[rankIn g.augmented.ranks v] := by
  have ranked : rankIn g.augmented.ranks v ∈ g.augmented.ranks := by
    have inside : v < g.augmented.ranks.length := g.augmented_sound.size ▸ vertex
    simp [rankIn, inside]
  have inside : rankIn g.augmented.ranks v < (g.ordered c).length := by
    rw [ordered, Ordering.minimal_length]
    exact g.augmented_sound.bounded _ ranked
  exact ⟨inside, (Ordering.mem_minimal inside).2 ⟨vertex, rfl⟩⟩

end Graph

variable [Field α] [LinearOrder α]

/-- No length is negative. -/
structure Config.NonNegative (c : Config α) : Prop where
  minNodeWidth : 0 ≤ c.minNodeWidth
  maxNodeWidth : 0 ≤ c.maxNodeWidth
  charWidth : 0 ≤ c.charWidth
  labelPadding : 0 ≤ c.labelPadding
  nodeHeight : 0 ≤ c.nodeHeight
  diamondHeight : 0 ≤ c.diamondHeight
  horizontalGap : 0 ≤ c.horizontalGap
  verticalGap : 0 ≤ c.verticalGap
  margin : 0 ≤ c.margin
  dummyWidth : 0 ≤ c.dummyWidth

theorem standard_nonNegative [IsStrictOrderedRing α] : (Config.standard : Config α).NonNegative := by
  constructor
  all_goals exact Nat.cast_nonneg _

/-! ### Centers -/

namespace Graph

/-- The width of a vertex, a dummy or not. -/
def widthOf (c : Config α) (g : Graph) (v : Nat) : α :=
  (Placement.sizeOf c g.augmented (g.nodes.map (Node.boxSize c)) v).width

def heightOf (c : Config α) (g : Graph) (v : Nat) : α :=
  (Placement.sizeOf c g.augmented (g.nodes.map (Node.boxSize c)) v).height

/-- The ranks with their centers from left to right, before the last move. -/
def across (c : Config α) (g : Graph) : List (List (Nat × α)) :=
  aligned g.augmented.graph (packed c.horizontalGap (g.widthOf c) (g.ordered c))

/-- The ranks with their centers from top to bottom. -/
def down (c : Config α) (g : Graph) : List (List (Nat × α)) :=
  stack c.verticalGap (g.heightOf c) c.margin (g.ordered c)

/-- The center of a vertex from left to right, before the last move. -/
def centerAcross (c : Config α) (g : Graph) (v : Nat) : α := centerIn (g.across c).flatten v

/-- The center of a vertex from top to bottom. -/
def centerDown (c : Config α) (g : Graph) (v : Nat) : α := centerIn (g.down c).flatten v

theorem across_keys (c : Config α) (g : Graph) : (g.across c).map keys = g.ordered c := by
  rw [across, aligned_keys, packed_keys]

theorem down_keys (c : Config α) (g : Graph) : (g.down c).map keys = g.ordered c := stack_keys _ _

/-- A vertex has an entry with its center on its rank. -/
theorem entry_of_rank {c : Config α} {g : Graph} {ranks : List (List (Nat × α))} (same : ranks.map keys = g.ordered c)
    {v : Nat} (vertex : v < g.augmented.graph.size) :
    ∃ inside : rankIn g.augmented.ranks v < ranks.length,
      (v, centerIn ranks.flatten v) ∈ ranks[rankIn g.augmented.ranks v] := by
  obtain ⟨inside, member⟩ := g.mem_ordered c vertex
  obtain ⟨inside', x, entry⟩ := exists_entry same inside member
  have distinct : (keys ranks.flatten).Nodup := by
    rw [keys_flatten, same]
    exact Ordering.minimal_nodup _ _
  rw [centerIn_eq distinct (List.mem_flatten.2 ⟨_, List.getElem_mem inside', entry⟩)]
  exact ⟨inside', entry⟩

end Graph

/-! ### Sizes -/

section
variable {c : Config α} (nonneg : c.NonNegative) (g : Graph)
include nonneg

theorem boxSize_nonneg (n : Node) : 0 ≤ (n.boxSize c).width ∧ 0 ≤ (n.boxSize c).height := by
  constructor
  · exact le_min (nonneg.minNodeWidth.trans (le_max_right _ _)) nonneg.maxNodeWidth
  · unfold Node.boxSize
    simp only
    split
    · exact nonneg.diamondHeight
    · exact nonneg.nodeHeight

theorem sizeOf_nonneg (v : Nat) : 0 ≤ g.widthOf c v ∧ 0 ≤ g.heightOf c v := by
  unfold Graph.widthOf Graph.heightOf Placement.sizeOf
  split
  · exact ⟨nonneg.dummyWidth, zero_eq.ge⟩
  · rw [List.getD_eq_getElem?_getD]
    by_cases inside : v < g.nodes.length
    · simpa [inside] using boxSize_nonneg nonneg g.nodes[v]
    · simp [inside, zero_eq]

/-- Of two vertices of one rank, one is a gap to the right of the other. -/
theorem same_rank_apart [IsStrictOrderedRing α] {v w : Nat} (hv : v < g.augmented.graph.size)
    (hw : w < g.augmented.graph.size) (different : v ≠ w)
    (same : rankIn g.augmented.ranks v = rankIn g.augmented.ranks w) :
    g.centerAcross c v + half (g.widthOf c v) + c.horizontalGap ≤ g.centerAcross c w - half (g.widthOf c w) ∨
      g.centerAcross c w + half (g.widthOf c w) + c.horizontalGap ≤ g.centerAcross c v - half (g.widthOf c v) := by
  obtain ⟨inside, entry⟩ := Graph.entry_of_rank (g.across_keys c) hv
  obtain ⟨inside', entry'⟩ := Graph.entry_of_rank (g.across_keys c) hw
  simp only [← same] at entry'
  have packed := packed_spaced nonneg.horizontalGap (fun v => (sizeOf_nonneg nonneg g v).1) (g.ordered c)
  have spaced : Spaced c.horizontalGap (g.widthOf c) (g.across c)[rankIn g.augmented.ranks v] :=
    aligned_spaced _ packed _ (List.getElem_mem inside)
  exact pairwise_or spaced entry entry' fun equal => different (Prod.mk.inj equal).1

/-- A vertex of a lower rank starts a gap below one of a higher rank. -/
theorem lower_rank_apart [IsStrictOrderedRing α] {v w : Nat} (hv : v < g.augmented.graph.size)
    (hw : w < g.augmented.graph.size) (lower : rankIn g.augmented.ranks v < rankIn g.augmented.ranks w) :
    g.centerDown c v + half (g.heightOf c v) + c.verticalGap ≤ g.centerDown c w - half (g.heightOf c w) := by
  obtain ⟨inside, entry⟩ := Graph.entry_of_rank (g.down_keys c) hv
  obtain ⟨inside', entry'⟩ := Graph.entry_of_rank (g.down_keys c) hw
  have apart : (g.down c).Pairwise fun upper lower => ∀ p ∈ upper, ∀ q ∈ lower,
      p.2 + half (g.heightOf c p.1) + c.verticalGap ≤ q.2 - half (g.heightOf c q.1) :=
    stack_apart nonneg.verticalGap c.margin (g.ordered c)
  exact List.pairwise_iff_getElem.1 apart _ _ inside inside' lower _ entry _ entry'

theorem margin_le_top [IsStrictOrderedRing α] {v : Nat} (hv : v < g.augmented.graph.size) :
    c.margin ≤ g.centerDown c v - half (g.heightOf c v) := by
  obtain ⟨inside, entry⟩ := Graph.entry_of_rank (g.down_keys c) hv
  exact stack_top nonneg.verticalGap c.margin (g.ordered c) _ (List.getElem_mem inside) _ entry

end

/-! ### The boxes of the nodes -/

/-- The last move gives every vertex its center, with its box to the right of the margin and one box touching it. -/
theorem centers_spec [IsStrictOrderedRing α] (c : Config α) (g : Graph) :
    ∃ offset, (∀ v < g.augmented.graph.size,
      (centers c g.augmented (g.nodes.map (Node.boxSize c)) (g.ordered c))[v]? =
          some (g.centerAcross c v + offset, g.centerDown c v) ∧
        c.margin ≤ g.centerAcross c v + offset - half (g.widthOf c v)) ∧
      (g.augmented.graph.size ≠ 0 → ∃ v < g.augmented.graph.size,
        g.centerAcross c v + offset - half (g.widthOf c v) = c.margin) := by
  obtain ⟨offset, moved, margin, touching⟩ :=
    normalized_spec c.margin (g.widthOf c) (g.augmented.graph.vertices.map (g.centerAcross c))
  have shape : centers c g.augmented (g.nodes.map (Node.boxSize c)) (g.ordered c) =
      (normalized c.margin (g.widthOf c) (g.augmented.graph.vertices.map (g.centerAcross c))).zip
        (g.augmented.graph.vertices.map (g.centerDown c)) := rfl
  refine ⟨offset, fun v vertex => ⟨?_, ?_⟩, fun filled => ?_⟩
  · rw [shape, moved]
    simp [Digraph.vertices, vertex]
  · have := margin v (by simpa [Digraph.vertices] using vertex)
    simpa [Digraph.vertices] using this
  · obtain ⟨v, inside, touches⟩ := touching (by simpa [Digraph.vertices] using filled)
    exact ⟨v, by simpa [Digraph.vertices] using inside, by simpa [Digraph.vertices] using touches⟩

theorem boxSize_eq (c : Config α) (g : Graph) {v : Nat} (inside : v < g.nodes.length) :
    g.nodes[v].boxSize c = ⟨g.widthOf c v, g.heightOf c v⟩ := by
  have real : g.augmented.isDummy v = false := by
    simp [Augmented.isDummy, g.augmented_realCount, inside]
  simp [Graph.widthOf, Graph.heightOf, Placement.sizeOf, real, inside]

theorem boxes_getElem? (c : Config α) (g : Graph) {v : Nat} (inside : v < g.nodes.length) {center : α × α}
    (placed : (centers c g.augmented (g.nodes.map (Node.boxSize c)) (g.ordered c))[v]? = some center) :
    (boxes c g)[v]? =
      some (boxAround g.nodes[v] ⟨g.widthOf c v, g.heightOf c v⟩ center (rankIn g.augmented.ranks v)) := by
  have node : (g.nodes.zip (g.nodes.map (Node.boxSize c)))[v]? = some (g.nodes[v], g.nodes[v].boxSize c) := by
    simp [inside]
  have real : v < g.augmented.realCount := by rwa [g.augmented_realCount]
  have ranked : v < g.augmented.ranks.length := by
    rw [← g.augmented_sound.size]
    exact Nat.lt_of_lt_of_le inside g.augmented_size
  have rank : g.augmented.ranks[v]? = some (rankIn g.augmented.ranks v) := by simp [rankIn, ranked]
  let drawing := draw c (Digraph.ofGraph g) (g.nodes.map (Node.boxSize c))
  have vertex : (drawing.centers.zip drawing.ranks)[v]? = some (center, rankIn g.augmented.ranks v) := by
    refine List.getElem?_zip_eq_some.2 ⟨(List.getElem?_take_of_lt real).trans placed, ?_⟩
    exact (List.getElem?_take_of_lt real).trans rank
  have both := List.getElem?_zip_eq_some (z := ((g.nodes[v], g.nodes[v].boxSize c), (center, _))).2 ⟨node, vertex⟩
  rw [← boxSize_eq c g inside]
  unfold boxes
  rw [List.getElem?_map, both]
  rfl

theorem boxes_length [IsStrictOrderedRing α] (c : Config α) (g : Graph) : (boxes c g).length = g.nodes.length := by
  obtain ⟨offset, placed, -⟩ := centers_spec c g
  have atMost : (boxes c g).length ≤ g.nodes.length := by
    simp only [boxes, List.length_map, List.length_zip]
    omega
  by_contra different
  have short : (boxes c g).length < g.nodes.length := by omega
  have vertex := Nat.lt_of_lt_of_le short g.augmented_size
  have beyond := boxes_getElem? c g short (placed _ vertex).1
  rw [List.getElem?_eq_none (le_refl _)] at beyond
  cases beyond

theorem boxAround_right [IsStrictOrderedRing α] (n : Node) (size : Size α) (center : α × α) (rank : Nat) :
    (boxAround n size center rank).right = center.1 + half size.width := by
  simp only [boxAround, PositionedNode.right, half_eq]
  ring

theorem boxAround_bottom [IsStrictOrderedRing α] (n : Node) (size : Size α) (center : α × α) (rank : Nat) :
    (boxAround n size center rank).bottom = center.2 + half size.height := by
  simp only [boxAround, PositionedNode.bottom, half_eq]
  ring

theorem not_overlaps_of_right {m n : PositionedNode α} (beside : m.right ≤ n.x ∨ n.right ≤ m.x) :
    m.overlaps n = false := by
  simp only [PositionedNode.overlaps, Bool.and_eq_false_iff, Scalar.below, decide_eq_false_iff_not, not_lt]
  rcases beside with right | left
  · exact .inl (.inl (.inr right))
  · exact .inl (.inl (.inl left))

theorem not_overlaps_of_bottom {m n : PositionedNode α} (below : m.bottom ≤ n.y ∨ n.bottom ≤ m.y) :
    m.overlaps n = false := by
  simp only [PositionedNode.overlaps, Bool.and_eq_false_iff, Scalar.below, decide_eq_false_iff_not, not_lt]
  rcases below with lower | higher
  · exact .inr lower
  · exact .inl (.inr higher)

/-- The box of the node that is drawn as a vertex, with everything moved by the offset. -/
def vertexBox (c : Config α) (g : Graph) (offset : α) (v : Nat) (inside : v < g.nodes.length) : PositionedNode α :=
  boxAround g.nodes[v] ⟨g.widthOf c v, g.heightOf c v⟩ (g.centerAcross c v + offset, g.centerDown c v)
    (rankIn g.augmented.ranks v)

/-- The boxes are those of the vertices, none of them reaching into the left margin. -/
def DrawnAt (c : Config α) (g : Graph) (offset : α) : Prop :=
  ∀ v (inside : v < g.nodes.length), (boxes c g)[v]? = some (vertexBox c g offset v inside) ∧
    c.margin ≤ (vertexBox c g offset v inside).x

/-- The boxes are drawn with no vertex reaching into the left margin, and one of them touching it. -/
theorem exists_touching [IsStrictOrderedRing α] (c : Config α) (g : Graph) :
    ∃ offset, DrawnAt c g offset ∧
      (∀ v < g.augmented.graph.size, c.margin ≤ g.centerAcross c v + offset - half (g.widthOf c v)) ∧
      (g.augmented.graph.size ≠ 0 → ∃ v < g.augmented.graph.size,
        g.centerAcross c v + offset - half (g.widthOf c v) = c.margin) := by
  obtain ⟨offset, placed, touching⟩ := centers_spec c g
  refine ⟨offset, fun v inside => ?_, fun v vertex => (placed v vertex).2, touching⟩
  obtain ⟨center, margin⟩ := placed v (Nat.lt_of_lt_of_le inside g.augmented_size)
  exact ⟨boxes_getElem? c g inside center, margin⟩

theorem exists_drawnAt [IsStrictOrderedRing α] (c : Config α) (g : Graph) : ∃ offset, DrawnAt c g offset :=
  (exists_touching c g).imp fun _ touching => touching.1

theorem DrawnAt.mem_boxes [IsStrictOrderedRing α] {c : Config α} {g : Graph} {offset : α} (drawn : DrawnAt c g offset)
    {n : PositionedNode α} (member : n ∈ boxes c g) : ∃ v inside, n = vertexBox c g offset v inside := by
  obtain ⟨v, inside', rfl⟩ := List.getElem_of_mem member
  have inside : v < g.nodes.length := boxes_length c g ▸ inside'
  have box := (drawn v inside).1
  rw [List.getElem?_eq_getElem inside', Option.some.injEq] at box
  exact ⟨v, inside, box⟩

section
variable [IsStrictOrderedRing α] {c : Config α} (nonneg : c.NonNegative) (g : Graph)
include nonneg

theorem vertexBox_lower (offset : α) {v w : Nat} (hv : v < g.nodes.length) (hw : w < g.nodes.length)
    (lower : rankIn g.augmented.ranks v < rankIn g.augmented.ranks w) :
    (vertexBox c g offset v hv).bottom + c.verticalGap ≤ (vertexBox c g offset w hw).y := by
  have vertexV := Nat.lt_of_lt_of_le hv g.augmented_size
  have vertexW := Nat.lt_of_lt_of_le hw g.augmented_size
  rw [vertexBox, boxAround_bottom]
  exact lower_rank_apart nonneg g vertexV vertexW lower

/-- Two vertices are apart from left to right on one rank, and from top to bottom on two. -/
theorem vertexBox_apart (offset : α) {v w : Nat} (hv : v < g.nodes.length) (hw : w < g.nodes.length)
    (different : v ≠ w) : (vertexBox c g offset v hv).overlaps (vertexBox c g offset w hw) = false := by
  have verticalGap := nonneg.verticalGap
  have horizontalGap := nonneg.horizontalGap
  rcases Nat.lt_trichotomy (rankIn g.augmented.ranks v) (rankIn g.augmented.ranks w) with less | same | more
  · have below := vertexBox_lower nonneg g offset hv hw less
    exact not_overlaps_of_bottom (.inl (by linarith))
  · have vertexV := Nat.lt_of_lt_of_le hv g.augmented_size
    have vertexW := Nat.lt_of_lt_of_le hw g.augmented_size
    apply not_overlaps_of_right
    rw [vertexBox, vertexBox, boxAround_right, boxAround_right]
    simp only [boxAround]
    rcases same_rank_apart nonneg g vertexV vertexW different same with right | left
    · exact .inl (by linarith)
    · exact .inr (by linarith)
  · have below := vertexBox_lower nonneg g offset hw hv more
    exact not_overlaps_of_bottom (.inr (by linarith))

end

/-! ### Drawings -/

/-- A drawing of a graph in which the boxes keep their distance: one box for each node in graph
    order, no two of them overlapping, lower ranks a vertical gap below higher ones, and all within
    the margins. -/
structure Diagram.WellPlaced (c : Config α) (g : Graph) (d : Diagram α) : Prop where
  nodes : d.nodes.map (·.node) = g.nodes
  apart : ∀ i j (hi : i < d.nodes.length) (hj : j < d.nodes.length), i ≠ j → d.nodes[i].overlaps d.nodes[j] = false
  stacked : ∀ a ∈ d.nodes, ∀ b ∈ d.nodes, a.rank < b.rank → a.bottom + c.verticalGap ≤ b.y
  inside : ∀ n ∈ d.nodes, c.margin ≤ n.x ∧ n.right ≤ d.width - c.margin ∧
    c.margin ≤ n.y ∧ n.bottom ≤ d.height - c.margin

/-- A drawing reaches a margin beyond all its boxes. -/
theorem layout_reaches [IsStrictOrderedRing α] (c : Config α) (g : Graph) {n : PositionedNode α}
    (member : n ∈ boxes c g) :
    n.right ≤ (layout c g).width - c.margin ∧ n.bottom ≤ (layout c g).height - c.margin := by
  have width : (layout c g).width = ((boxes c g).map PositionedNode.right).foldl max c.margin + c.margin := rfl
  have height : (layout c g).height = ((boxes c g).map PositionedNode.bottom).foldl max c.margin + c.margin := rfl
  rw [width, height, add_sub_cancel_right, add_sub_cancel_right]
  constructor
  · exact le_foldl_max (List.mem_map_of_mem member) c.margin
  · exact le_foldl_max (List.mem_map_of_mem member) c.margin

theorem boxes_nodes [IsStrictOrderedRing α] (c : Config α) (g : Graph) : (boxes c g).map (·.node) = g.nodes := by
  obtain ⟨offset, drawn⟩ := exists_drawnAt c g
  apply List.ext_getElem?
  intro v
  by_cases inside : v < g.nodes.length
  · rw [List.getElem?_map, (drawn v inside).1, List.getElem?_eq_getElem inside]
    rfl
  · rw [List.getElem?_eq_none (by rw [List.length_map, boxes_length]; omega), List.getElem?_eq_none (by omega)]

/-- Every graph is drawn with its boxes apart. -/
theorem layout_wellPlaced [IsStrictOrderedRing α] (c : Config α) (nonneg : c.NonNegative) (g : Graph) :
    (layout c g).WellPlaced c g := by
  obtain ⟨offset, drawn⟩ := exists_drawnAt c g
  have same : (layout c g).nodes = boxes c g := rfl
  refine ⟨boxes_nodes c g, ?_, ?_, ?_⟩
  · intro v w hv hw different
    have hv' : v < g.nodes.length := boxes_length c g ▸ hv
    have hw' : w < g.nodes.length := boxes_length c g ▸ hw
    have boxV := (drawn v hv').1
    have boxW := (drawn w hw').1
    rw [← same, List.getElem?_eq_getElem hv, Option.some.injEq] at boxV
    rw [← same, List.getElem?_eq_getElem hw, Option.some.injEq] at boxW
    rw [boxV, boxW]
    exact vertexBox_apart nonneg g offset hv' hw' different
  · intro a memberA b memberB lower
    obtain ⟨v, hv, rfl⟩ := drawn.mem_boxes memberA
    obtain ⟨w, hw, rfl⟩ := drawn.mem_boxes memberB
    exact vertexBox_lower nonneg g offset hv hw lower
  · intro n member
    obtain ⟨right, bottom⟩ := layout_reaches c g member
    obtain ⟨v, hv, rfl⟩ := drawn.mem_boxes member
    have top := margin_le_top nonneg g (Nat.lt_of_lt_of_le hv g.augmented_size)
    exact ⟨(drawn v hv).2, right, top, bottom⟩

/-- A cycle with a doubled edge and a self loop, and a node apart. -/
def knot : Graph :=
  ⟨[.bare ['A'], ⟨['B'], ['?'], .diamond⟩, .bare ['C'], .bare ['D']],
    [⟨['1'], ['A'], ['B'], none, false⟩, ⟨['2'], ['B'], ['C'], none, false⟩, ⟨['3'], ['C'], ['A'], none, true⟩,
     ⟨['4'], ['A'], ['B'], some ['x'], false⟩, ⟨['5'], ['B'], ['B'], none, false⟩]⟩

theorem knot_wellPlaced :
    (Config.standard : Config ℚ).NonNegative ∧
      (layout Config.standard knot : Diagram ℚ).WellPlaced Config.standard knot :=
  ⟨standard_nonNegative, layout_wellPlaced Config.standard standard_nonNegative knot⟩

end Flowchart
