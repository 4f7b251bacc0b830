import Flowchart.Graph.Parts
import Flowchart.Line.Statement

/-!
From text to graph. Every line is read on its own, and its statement is folded into the graph:
a source that the line does not declare enters first, then the declared nodes in their order, then
the ends of the link that are still missing. The first declaration of an id stays, and ids that are
only linked get bare nodes.
-/
namespace Flowchart

/-- Why a text gives no graph. -/
inductive ParseError where
  /-- The text is blank. -/
  | blank
  /-- No line declares or links a node. -/
  | noNodes
  deriving DecidableEq, Repr

/-- Why there is no graph, in words. -/
def ParseError.message : ParseError → Text
  | .blank => "diagram text is empty".toList
  | .noNodes => "no nodes found in diagram text".toList

namespace Graph
open Line

/-- The source of a link enters first, unless the line declares it. -/
def enterSource (g : Graph) (declarations : List Node) (link : Option Link) : Graph :=
  match link with
  | some l => if declarations.any (·.id = l.source) then g else g.mention l.source
  | none => g

/-- The link enters last, behind its ends. -/
def enterLink (g : Graph) (link : Option Link) : Graph :=
  match link with
  | some l => ((g.mention l.source).mention l.target).join l.source l.target l.label l.animated
  | none => g

/-- Folds the statement of one line into the graph. -/
def enter (g : Graph) : Statement → Graph
  | .skip => g
  | .unparseable => g
  | .content declarations link =>
    (declarations.foldl insertNode (g.enterSource declarations link)).enterLink link

/-- The graph, if it has any node. -/
def checked (g : Graph) : Except ParseError Graph :=
  if g.nodes.isEmpty then .error .noNodes else .ok g

/-- The graph of a list of statements. -/
def ofStatements (statements : List Statement) : Graph := statements.foldl enter empty

end Graph

/-- The first line that is neither blank nor a comment starts with the word `flowchart` or
    `graph`. -/
def hasHeader (t : Text) : Bool :=
  match (t.lines.map Text.trim).find? fun line => !(line.isEmpty || Line.isComment line) with
  | some line => line.firstWord = "flowchart".toList || line.firstWord = "graph".toList
  | none => false

/-- The statements of the lines of a text. -/
def statements (t : Text) : List Line.Statement := t.lines.map Line.parse

/-- Reads the graph that a text describes. -/
def parse (t : Text) : Except ParseError Graph :=
  if t.isWhiteOnly then .error .blank else (Graph.ofStatements (statements t)).checked

end Flowchart
