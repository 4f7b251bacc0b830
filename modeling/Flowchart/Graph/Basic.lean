import Flowchart.Text.Basic

/-!
Flowchart graphs: nodes in the order in which they came, edges in their order. A graph is
well formed when its ids are what the text form can name and every edge joins two of its nodes
(`Graph.WellFormed`). The graph grows by `insertNode`, `mention` and `join`; a new edge
gets the first generated id that no edge has yet (`freshEdgeId`).
-/
namespace Flowchart

/-- The outline a node is drawn with. -/
inductive Shape where
  | rectangle | diamond | rounded | hexagon | parallelogram | cylinder | circle
  deriving DecidableEq, Repr

/-- Every shape, in the order in which messages list them. -/
def Shape.all : List Shape :=
  [.rectangle, .diamond, .rounded, .hexagon, .parallelogram, .cylinder, .circle]

/-- The written name of a shape. -/
def Shape.name : Shape → Text
  | .rectangle => "rectangle".toList
  | .diamond => "diamond".toList
  | .rounded => "rounded".toList
  | .hexagon => "hexagon".toList
  | .parallelogram => "parallelogram".toList
  | .cylinder => "cylinder".toList
  | .circle => "circle".toList

/-- The shape of a written name. -/
def Shape.ofName? (name : Text) : Option Shape := Shape.all.find? (·.name = name)

/-- A box of a flowchart. -/
structure Node where
  id : Text
  /-- What the box shows; may be empty. -/
  label : Text
  shape : Shape
  deriving DecidableEq, Repr

/-- The node of an id that is only mentioned: a rectangle labelled with its own id. -/
def Node.bare (id : Text) : Node := ⟨id, id, .rectangle⟩

/-- A node id is a run of id characters that is not empty. -/
def isId (t : Text) : Bool := !t.isEmpty && t.all isIdChar

/-- A connection between two nodes, by their ids. -/
structure Edge where
  id : Text
  source : Text
  target : Text
  label : Option Text
  /-- Drawn dotted. -/
  animated : Bool
  deriving DecidableEq, Repr

/-- An edge touches its two ends. -/
def Edge.touches (e : Edge) (id : Text) : Bool := e.source = id || e.target = id

/-- A flowchart. -/
structure Graph where
  nodes : List Node
  edges : List Edge
  deriving DecidableEq, Repr

/-- The generated id of an edge. -/
def edgeId (number : Nat) (source target : Text) : Text :=
  'e' :: Text.ofNat number ++ '-' :: source ++ '-' :: target

namespace Graph

/-- No nodes and no edges. -/
def empty : Graph := ⟨[], []⟩

/-! ### Queries -/

/-- The node of an id. -/
def node? (g : Graph) (id : Text) : Option Node := g.nodes.find? (·.id = id)

/-- Some node has the id. -/
def hasNode (g : Graph) (id : Text) : Bool := g.nodes.any (·.id = id)

/-- The edge of an id. -/
def edge? (g : Graph) (id : Text) : Option Edge := g.edges.find? (·.id = id)

/-- Some edge has the id. -/
def hasEdge (g : Graph) (id : Text) : Bool := g.edges.any (·.id = id)

/-- No edge touches the node. -/
def isOrphan (g : Graph) (id : Text) : Bool := !g.edges.any (·.touches id)

/-- The same nodes in any order, and the same list of edges. -/
def sameAs (g h : Graph) : Bool :=
  g.nodes.length = h.nodes.length && g.nodes.all (fun n => h.node? n.id = some n) && g.edges = h.edges

/-! ### Growing -/

/-- The first node of an id stays: a later one is dropped. -/
def insertNode (g : Graph) (n : Node) : Graph :=
  if g.hasNode n.id then g else { g with nodes := g.nodes ++ [n] }

/-- Makes sure an id has a node. -/
def mention (g : Graph) (id : Text) : Graph := g.insertNode (.bare id)

/-- The generated id with the least number, from the count of edges on, that no edge has.
    Of one more number than there are edges, one is free. -/
def freshEdgeId (edges : List Edge) (source target : Text) : Text :=
  let free := (List.range' edges.length (edges.length + 1)).find? fun number =>
    !edges.any (·.id = edgeId number source target)
  edgeId (free.getD edges.length) source target

/-- A new last edge, under a fresh id. -/
def freshEdge (g : Graph) (source target : Text) (label : Option Text) (animated : Bool) : Edge :=
  ⟨freshEdgeId g.edges source target, source, target, label, animated⟩

/-- Puts an edge behind the others. -/
def append (g : Graph) (e : Edge) : Graph := { g with edges := g.edges ++ [e] }

/-- Joins two ids by a fresh edge. -/
def join (g : Graph) (source target : Text) (label : Option Text) (animated : Bool) : Graph :=
  g.append (g.freshEdge source target label animated)

/-! ### The invariant -/

/-- What every graph keeps that is built from text, from parts or by edits. -/
structure WellFormed (g : Graph) : Prop where
  nodes_nodup : (g.nodes.map (·.id)).Nodup
  node_ids : ∀ n ∈ g.nodes, isId n.id
  ends_present : ∀ e ∈ g.edges, g.hasNode e.source ∧ g.hasNode e.target
  edges_nodup : (g.edges.map (·.id)).Nodup
  edge_ids : ∀ e ∈ g.edges, e.id ≠ []

end Graph
end Flowchart
