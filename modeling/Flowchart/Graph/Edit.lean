import Flowchart.Graph.Basic

/-!
Edits of a graph. Each edit either refuses, naming the id that is in the way, or gives the
edited graph. Removing a node takes the edges that touch it along; no edit leaves an edge
without its ends.
-/
namespace Flowchart

/-- Why an edit is refused, with the id that is in the way. -/
inductive EditError where
  | notAnId (id : Text)
  | nodeExists (id : Text)
  | noSuchNode (id : Text)
  | noSuchEdge (id : Text)
  deriving DecidableEq, Repr

/-- Why the edit is refused, in words. -/
def EditError.message : EditError → Text
  | .nodeExists id => "node '".toList ++ id ++ "' already exists".toList
  | .noSuchNode id => "unknown node '".toList ++ id ++ "'".toList
  | .noSuchEdge id => "unknown edge '".toList ++ id ++ "'".toList
  | .notAnId id => "invalid node id '".toList ++ id ++ "'".toList

namespace Graph

/-- The node of an id; without one, the edit is refused. -/
def findNode (g : Graph) (id : Text) : Except EditError Node :=
  match g.node? id with
  | some n => .ok n
  | none => .error (.noSuchNode id)

/-- The edge of an id; without one, the edit is refused. -/
def findEdge (g : Graph) (id : Text) : Except EditError Edge :=
  match g.edge? id with
  | some e => .ok e
  | none => .error (.noSuchEdge id)

/-- Applies a change to the node of an id. -/
def changeNode (g : Graph) (id : Text) (change : Node → Node) : Graph :=
  { g with nodes := g.nodes.map fun n => if n.id = id then change n else n }

/-- Applies a change to the edge of an id. -/
def changeEdge (g : Graph) (id : Text) (change : Edge → Edge) : Graph :=
  { g with edges := g.edges.map fun e => if e.id = id then change e else e }

/-- Adds a node behind the others. Its id has to be one that text can name, and new. -/
def addNode (g : Graph) (n : Node) : Except EditError Graph :=
  if !isId n.id then .error (.notAnId n.id)
  else if g.hasNode n.id then .error (.nodeExists n.id)
  else .ok { g with nodes := g.nodes ++ [n] }

/-- Removes a node and every edge that touches it. -/
def eraseNode (g : Graph) (id : Text) : Except EditError (Node × Graph) := do
  let n ← g.findNode id
  return (n, { nodes := g.nodes.filter (·.id ≠ id), edges := g.edges.filter (!·.touches id) })

/-- Sets the label of a node. -/
def setLabel (g : Graph) (id label : Text) : Except EditError Graph := do
  let _ ← g.findNode id
  return g.changeNode id ({ · with label })

/-- Sets the shape of a node. -/
def setShape (g : Graph) (id : Text) (shape : Shape) : Except EditError Graph := do
  let _ ← g.findNode id
  return g.changeNode id ({ · with shape })

/-- Joins two nodes that are there by a new edge. -/
def addEdge (g : Graph) (source target : Text) (label : Option Text) : Except EditError (Edge × Graph) := do
  let _ ← g.findNode source
  let _ ← g.findNode target
  let e := g.freshEdge source target label false
  return (e, g.append e)

/-- Removes an edge. -/
def eraseEdge (g : Graph) (id : Text) : Except EditError (Edge × Graph) := do
  let e ← g.findEdge id
  return (e, { g with edges := g.edges.eraseP (·.id = id) })

/-- Sets or clears the label of an edge; an empty label clears it. -/
def setEdgeLabel (g : Graph) (id : Text) (label : Option Text) : Except EditError Graph := do
  let _ ← g.findEdge id
  return g.changeEdge id ({ · with label := label.filter (!·.isEmpty) })

/-- Lets an edge join two other nodes that are there. -/
def setEnds (g : Graph) (id source target : Text) : Except EditError Graph := do
  let _ ← g.findEdge id
  let _ ← g.findNode source
  let _ ← g.findNode target
  return g.changeEdge id ({ · with source, target })

/-- Makes an edge dotted, or solid again. -/
def setAnimated (g : Graph) (id : Text) (animated : Bool) : Except EditError Graph := do
  let _ ← g.findEdge id
  return g.changeEdge id ({ · with animated })

end Graph
end Flowchart
