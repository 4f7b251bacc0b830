import Flowchart.Graph.Edit

/-!
A graph from loose lists of nodes and edges. The first node of an id stays, missing ends become
bare nodes, and an edge id that is empty or taken is generated anew. It fails at the first id
that is no node id: all nodes are looked at first, then each edge, its source before its target.
-/
namespace Flowchart.Graph

/-- The edge with the id that it gets behind the edges that are already there. -/
def settleEdgeId (edges : List Edge) (e : Edge) : Edge :=
  if e.id.isEmpty || edges.any (·.id = e.id) then
    { e with id := freshEdgeId edges e.source e.target }
  else e

/-- Adds a node of the list; the first of an id stays. -/
def addLooseNode (g : Graph) (n : Node) : Except EditError Graph :=
  if isId n.id then .ok (g.insertNode n) else .error (.notAnId n.id)

/-- Adds an edge of the list, and the ends that are missing. -/
def addLooseEdge (g : Graph) (e : Edge) : Except EditError Graph :=
  if !isId e.source then .error (.notAnId e.source)
  else if !isId e.target then .error (.notAnId e.target)
  else
    let g := (g.mention e.source).mention e.target
    .ok (g.append (settleEdgeId g.edges e))

/-- The graph of a list of nodes and a list of edges. -/
def ofParts (nodes : List Node) (edges : List Edge) : Except EditError Graph := do
  let g ← nodes.foldlM addLooseNode empty
  edges.foldlM addLooseEdge g

end Flowchart.Graph
