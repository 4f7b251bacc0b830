import Flowchart.Layout.Placement

/-!
Diagrams: a graph with a box for every node. `layout` draws any graph, from breaking its cycles to
placing its boxes.
-/
namespace Flowchart

/-- A node with its box; `x` and `y` are the top left corner. -/
structure PositionedNode (α : Type) where
  node : Node
  x : α
  y : α
  width : α
  height : α
  /-- The rank, from the top. -/
  rank : Nat

namespace PositionedNode
variable {α : Type} [Scalar α]

/-- The right edge. -/
def right (n : PositionedNode α) : α := n.x + n.width

/-- The bottom edge. -/
def bottom (n : PositionedNode α) : α := n.y + n.height

/-- The middle of the box. -/
def center (n : PositionedNode α) : α × α := (n.x + Placement.half n.width, n.y + Placement.half n.height)

/-- The boxes share more than an edge. -/
def overlaps (n m : PositionedNode α) : Bool :=
  Scalar.below n.x m.right && Scalar.below m.x n.right && Scalar.below n.y m.bottom && Scalar.below m.y n.bottom

end PositionedNode

/-- A graph with the boxes of all its nodes, in graph order, and the size of the whole drawing. -/
structure Diagram (α : Type) where
  graph : Graph
  nodes : List (PositionedNode α)
  width : α
  height : α

/-- The box of a node. -/
def Diagram.position? (d : Diagram α) (id : Text) : Option (PositionedNode α) :=
  d.nodes.find? (·.node.id = id)

variable {α : Type} [Scalar α]

/-- The size of a box: as wide as its label within the bounds, and taller for a diamond. -/
def Node.boxSize (c : Config α) (n : Node) : Size α where
  width := Scalar.smaller
    (Scalar.larger (Scalar.ofNat n.label.length * c.charWidth + c.labelPadding) c.minNodeWidth) c.maxNodeWidth
  height := if n.shape = .diamond then c.diamondHeight else c.nodeHeight

/-- The centers and ranks of the nodes of a graph. -/
structure Drawing (α : Type) where
  centers : List (α × α)
  ranks : List Nat

/-- Draws the vertices of a graph, given their sizes. -/
def draw (c : Config α) (g : Digraph) (sizes : List (Size α)) : Drawing α :=
  let a := Augmented.of (Layering.of g)
  let o := Ordering.minimal a c.maxCrossingPasses
  ⟨(Placement.centers c a sizes o).take a.realCount, a.ranks.take a.realCount⟩

/-- The box around a center. -/
def boxAround (n : Node) (size : Size α) (center : α × α) (rank : Nat) : PositionedNode α :=
  ⟨n, center.1 - Placement.half size.width, center.2 - Placement.half size.height, size.width, size.height, rank⟩

/-- The boxes of all nodes. -/
def boxes (c : Config α) (g : Graph) : List (PositionedNode α) :=
  let sizes := g.nodes.map (Node.boxSize c)
  let drawing := draw c (Digraph.ofGraph g) sizes
  ((g.nodes.zip sizes).zip (drawing.centers.zip drawing.ranks)).map fun ((n, size), (center, rank)) =>
    boxAround n size center rank

/-- Draws a graph. The drawing reaches a margin beyond its boxes. -/
def layout (c : Config α) (g : Graph) : Diagram α :=
  let nodes := boxes c g
  { graph := g
    nodes := nodes
    width := (nodes.map PositionedNode.right).foldl Scalar.larger c.margin + c.margin
    height := (nodes.map PositionedNode.bottom).foldl Scalar.larger c.margin + c.margin }

end Flowchart
