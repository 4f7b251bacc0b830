import Flowchart.Graph.Document
import Flowchart.Layout.Diagram

/-!
Diagrams as JSON documents. A positioned node is written as its node with the fields of the box
behind. When it is read, the fields of the box are taken as they come, and the others are held
back and then read as the node.
-/
namespace Flowchart
open Json (Decoded Field Schema)

/-! ### Writing -/

/-- A positioned node as a record. -/
def PositionedNode.toJson (n : PositionedNode Float) : Json :=
  .ofFields (n.node.fields ++
    [("x".toList, .ofFloat n.x), ("y".toList, .ofFloat n.y), ("width".toList, .ofFloat n.width),
     ("height".toList, .ofFloat n.height), ("rank".toList, .ofNat n.rank)])

/-- A diagram as a record. -/
def Diagram.toJson (d : Diagram Float) : Json :=
  .ofFields
    [("graph".toList, d.graph.toJson), ("nodes".toList, .ofList (d.nodes.map PositionedNode.toJson)),
     ("width".toList, .ofFloat d.width), ("height".toList, .ofFloat d.height)]

/-! ### Reading -/

/-- A positioned node that is being read: its box, and the fields that are held back, the last
    one first. -/
structure PositionedDraft where
  box : PositionedNode Float
  held : List (Text × Json)

/-- How deep a field of a positioned node may nest: a document may nest 127 deep, and three of
    these are around the field. -/
def heldDepth : Nat := 125

/-- How the box of a positioned node is read; only its rank may be left out. -/
def PositionedDraft.schema : Schema PositionedDraft where
  name := "PositionedNode".toList
  blank := ⟨⟨.bare [], 0, 0, 0, 0, 0⟩, []⟩
  fields :=
    [⟨"x".toList, true, fun j d => return { d with box.x := ← j.asFloat }⟩,
     ⟨"y".toList, true, fun j d => return { d with box.y := ← j.asFloat }⟩,
     ⟨"width".toList, true, fun j d => return { d with box.width := ← j.asFloat }⟩,
     ⟨"height".toList, true, fun j d => return { d with box.height := ← j.asFloat }⟩,
     ⟨"rank".toList, false, fun j d => return { d with box.rank := ← j.asCount }⟩]
  other name j d := do
    j.hold heldDepth
    return { d with held := (name, j) :: d.held }
  asList := false

/-- Reads a positioned node: its box first, then its node. -/
def PositionedNode.ofJson (j : Json) : Decoded (PositionedNode Float) := do
  let d ← PositionedDraft.schema.read .streamed j
  let node ← Node.ofJson .deferred (.ofFields d.held.reverse)
  return { d.box with node }

/-- How a diagram is read: all of it has to be there. -/
def Diagram.schema : Schema (Diagram Float) where
  name := "Diagram".toList
  blank := ⟨.empty, [], 0, 0⟩
  fields :=
    [⟨"graph".toList, true, fun j d => return { d with graph := ← Graph.ofJson j }⟩,
     ⟨"nodes".toList, true, fun j d => return { d with nodes := ← j.asList PositionedNode.ofJson }⟩,
     ⟨"width".toList, true, fun j d => return { d with width := ← j.asFloat }⟩,
     ⟨"height".toList, true, fun j d => return { d with height := ← j.asFloat }⟩]
  other := Json.ignoring
  asList := true

/-- The diagram that a JSON text describes. -/
def Diagram.ofJsonText (t : Text) : Decoded (Diagram Float) :=
  Json.decodeText t (schema.read .streamed)

end Flowchart
