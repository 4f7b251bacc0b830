import Flowchart.Load

/-!
What is reported along the way from text to diagram: repairs, lines that are passed over, nodes
that links bring in or that are declared again, and the measures of the layout. A report is a
list of events in the order in which they happen.
-/
namespace Flowchart

/-- Something that is reported. -/
inductive Event where
  /-- The repairs changed the text. -/
  | repaired (passes before after : Nat)
  | noHeader
  /-- A blank line, a comment or a directive. -/
  | skippedLine (line : Text)
  | unparseableLine (number : Nat)
  /-- A link names a node that is not declared. -/
  | broughtIn (id : Text)
  /-- A node is declared again. -/
  | redeclared (number : Nat) (id : Text)
  | loaded (nodes edges : Nat)
  | layered (nodes layers reversed : Nat)
  | swept (pass crossings : Nat)
  | ordered (dummies crossings : Nat)
  deriving DecidableEq, Repr

/-- How much detail an event is. -/
inductive Detail where
  | debug | trace
  deriving DecidableEq, Repr

/-- The value of a named part of an event. -/
inductive EventValue where
  | count (n : Nat)
  | text (t : Text)

namespace Event

/-- The detail at which an event is reported. -/
def detail : Event → Detail
  | .repaired .. | .unparseableLine _ | .broughtIn _ | .redeclared .. | .loaded .. => .debug
  | .noHeader | .skippedLine _ | .layered .. | .swept .. | .ordered .. => .trace

/-- What an event is called. -/
def message : Event → Text
  | .repaired .. => "Sanitizer repaired input".toList
  | .noHeader => "Input has no flowchart header; parsing leniently".toList
  | .skippedLine _ => "Skipping no-op line".toList
  | .unparseableLine _ => "Skipping unparseable line".toList
  | .broughtIn _ => "Synthesizing node for undeclared edge endpoint".toList
  | .redeclared .. => "Ignoring redeclaration of node".toList
  | .loaded .. => "Loaded diagram".toList
  | .layered .. => "Layer assignment done".toList
  | .swept .. => "Barycenter sweep".toList
  | .ordered .. => "Ordering done".toList

/-- The named parts of an event. -/
def parts : Event → List (Text × EventValue)
  | .repaired passes before after =>
    [("passes".toList, .count passes), ("before".toList, .count before), ("after".toList, .count after)]
  | .noHeader => []
  | .skippedLine line => [("line".toList, .text line)]
  | .unparseableLine number => [("line_no".toList, .count number)]
  | .broughtIn id => [("id".toList, .text id)]
  | .redeclared number id => [("line_no".toList, .count number), ("id".toList, .text id)]
  | .loaded nodes edges => [("nodes".toList, .count nodes), ("edges".toList, .count edges)]
  | .layered nodes layers reversed =>
    [("nodes".toList, .count nodes), ("layers".toList, .count layers), ("reversed".toList, .count reversed)]
  | .swept pass crossings => [("pass".toList, .count pass), ("crossings".toList, .count crossings)]
  | .ordered dummies crossings => [("dummies".toList, .count dummies), ("crossings".toList, .count crossings)]

end Event

namespace Trace
open Line

/-- The events of repairing a text. -/
def repairs (raw : Text) : List Event :=
  let (clean, passes) := Repair.run raw
  if 0 < passes && clean ≠ raw then [.repaired passes raw.size clean.size] else []

/-- Makes sure an id has a node. -/
def bringIn (g : Graph) (id : Text) : List Event := if g.hasNode id then [] else [.broughtIn id]

/-- The events of entering declarations one after the other. -/
def declare (number : Nat) (g : Graph) : List Node → List Event
  | [] => []
  | n :: rest =>
    (if g.hasNode n.id then [.redeclared number n.id] else []) ++ declare number (g.insertNode n) rest

/-- The events of folding a statement into the graph. -/
def enter (number : Nat) (g : Graph) : Statement → List Event
  | .skip => []
  | .unparseable => [.unparseableLine number]
  | .content declarations link =>
    let entered := g.enterSource declarations link
    let declared := declarations.foldl Graph.insertNode entered
    let source := match link with
      | some l => if declarations.any (·.id = l.source) then [] else bringIn g l.source
      | none => []
    let ends := match link with
      | some l => bringIn declared l.source ++ bringIn (declared.mention l.source) l.target
      | none => []
    source ++ declare number entered declarations ++ ends

/-- The events of reading lines, the first of which has this number. -/
def lines (number : Nat) (g : Graph) : List Text → List Event
  | [] => []
  | line :: rest =>
    let statement := Line.parse line
    let skipped := if statement = .skip then [.skippedLine line.trim] else []
    skipped ++ enter number g statement ++ lines (number + 1) (g.enter statement) rest

/-- The events of reading a text. -/
def parse (t : Text) : List Event :=
  if t.isWhiteOnly then []
  else (if hasHeader t then [] else [.noHeader]) ++ lines 1 .empty t.lines

/-- The events of drawing a graph. -/
def layout (c : Config Float) (g : Graph) : List Event :=
  let d := Digraph.ofGraph g
  let l := Layering.of d
  let a := Augmented.of l
  let sweeps := Ordering.sweepCounts a.graph c.maxCrossingPasses (Ordering.initial a)
  let o := Ordering.minimal a c.maxCrossingPasses
  .layered d.size l.count l.reversed :: sweeps.zipIdx.map (fun (crossings, pass) => .swept pass crossings) ++
    [.ordered a.dummyCount (Ordering.crossings a.graph o)]

/-- The events of the way from raw text to diagram. -/
def load (c : Config Float) (raw : Text) : List Event :=
  if raw.isWhiteOnly then []
  else
    let clean := repair raw
    let drawn := match Flowchart.parse clean with
      | .ok g => .loaded g.nodes.length g.edges.length :: layout c g
      | .error _ => []
    repairs raw ++ parse clean ++ drawn

end Trace
end Flowchart
