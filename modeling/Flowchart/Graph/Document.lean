import Flowchart.Graph.Parts
import Flowchart.Json.Decode
import Flowchart.Json.Write

/-!
Graphs as JSON documents. A graph is written with all its fields in their order, apart from the
label of an edge that has none. Reading fills in what may be left out, and then builds the graph
from its parts.
-/
namespace Flowchart
open Json (Decoded Origin Schema)

/-! ### Writing -/

/-- The fields of a node. -/
def Node.fields (n : Node) : List (Text × Json) :=
  [("id".toList, .ofText n.id), ("label".toList, .ofText n.label), ("type".toList, .ofText n.shape.name)]

/-- A node as a record. -/
def Node.toJson (n : Node) : Json := .ofFields n.fields

/-- An edge as a record; a label that it does not have is left out. -/
def Edge.toJson (e : Edge) : Json :=
  let label := match e.label with
    | some label => [("label".toList, Json.ofText label)]
    | none => []
  .ofFields ([("id".toList, .ofText e.id), ("source".toList, .ofText e.source), ("target".toList, .ofText e.target)] ++
    label ++ [("animated".toList, .bool e.animated)])

/-- A graph as a record of its two lists. -/
def Graph.toJson (g : Graph) : Json :=
  .ofFields [("nodes".toList, .ofList (g.nodes.map Node.toJson)), ("edges".toList, .ofList (g.edges.map Edge.toJson))]

/-! ### Reading -/

/-- How a node is read: only its id has to be there. -/
def Node.schema (origin : Origin) : Schema Node where
  name := "Node".toList
  blank := ⟨[], [], .rectangle⟩
  fields :=
    [⟨"id".toList, true, fun j n => return { n with id := ← j.asText }⟩,
     ⟨"label".toList, false, fun j n => return { n with label := ← j.asText }⟩,
     ⟨"type".toList, false, fun j n => return { n with shape := ← j.asShape origin }⟩]
  other := Json.ignoring
  asList := true

/-- Reads a node. -/
def Node.ofJson (origin : Origin) (j : Json) : Decoded Node := (schema origin).read origin j

/-- How an edge is read: its two ends have to be there. -/
def Edge.schema : Schema Edge where
  name := "Edge".toList
  blank := ⟨[], [], [], none, false⟩
  fields :=
    [⟨"id".toList, false, fun j e => return { e with id := ← j.asText }⟩,
     ⟨"source".toList, true, fun j e => return { e with source := ← j.asText }⟩,
     ⟨"target".toList, true, fun j e => return { e with target := ← j.asText }⟩,
     ⟨"label".toList, false, fun j e => return { e with label := ← j.asOptionalText }⟩,
     ⟨"animated".toList, false, fun j e => return { e with animated := ← j.asBool }⟩]
  other := Json.ignoring
  asList := true

/-- Reads an edge. -/
def Edge.ofJson (origin : Origin) (j : Json) : Decoded Edge := schema.read origin j

/-- The lists that a graph is written as. -/
structure Parts where
  nodes : List Node
  edges : List Edge

/-- How the two lists of a graph are read; a missing one is empty. -/
def Parts.schema (origin : Origin) : Schema Parts where
  name := "GraphRepr".toList
  blank := ⟨[], []⟩
  fields :=
    [⟨"nodes".toList, false, fun j p => return { p with nodes := ← j.asList (Node.ofJson origin) }⟩,
     ⟨"edges".toList, false, fun j p => return { p with edges := ← j.asList (Edge.ofJson origin) }⟩]
  other := Json.ignoring
  asList := true

/-- The id that keeps parts from being a graph, as a problem of their document. -/
def Json.Problem.ofEdit : EditError → Json.Problem
  | .notAnId id | .nodeExists id | .noSuchNode id | .noSuchEdge id => .invalidNodeId id

/-- Reads a graph. Ids are looked at when all of it is read. -/
def Graph.ofJson (j : Json) : Decoded Graph := do
  let parts ← (Parts.schema .streamed).read .streamed j
  match Graph.ofParts parts.nodes parts.edges with
  | .ok g => return g
  | .error e => .error (.ofEdit e)

/-- The graph that a JSON text describes. -/
def Graph.ofJsonText (t : Text) : Decoded Graph := Json.decodeText t Graph.ofJson

end Flowchart
