import Flowchart.Bracket
import Flowchart.Line.Statement

/-!
Writing a graph as text that is read as the same graph. Edges come first, in graph order; a node
is declared in full where it is first named, and named by its id from then on. The nodes that no
edge touches follow. An id that would make its line a directive is declared each time it starts
a line.
-/
namespace Flowchart

namespace Writer

/-- What stands before every line but the first. -/
def indent : Text := [' ', ' ', ' ', ' ']

/-- The first line of a written graph, if none is given. -/
def defaultHeader : Text := "flowchart TD".toList

/-- The characters that put a node label in double quotes. -/
def needsQuotes (c : Char) : Bool :=
  c ∈ ['(', ')', '[', ']', '\x7b', '\x7d', '|', '/', '\\', '<', '>']

/-- The character that stands in a node label for one that a bracket pair cannot hold. -/
def labelChar (c : Char) : Char :=
  match c with
  | '"' => '\''
  | '[' => '('
  | ']' => ')'
  | '\n' | '\r' | '\t' => ' '
  | c => c

/-- The character that stands in an edge label for one that pipes cannot hold. -/
def linkChar (c : Char) : Char :=
  match c with
  | '|' => '/'
  | '"' => '\''
  | '\n' | '\r' | '\t' => ' '
  | c => c

/-- A node label as it is written. -/
def labelText (label : Text) : Text := label.trim.map labelChar

/-- An edge label as it is written. -/
def linkText (label : Text) : Text := label.trim.map linkChar

/-- A label between the delimiters of its shape, quoted where it has to be. -/
def bracketed (n : Node) : Text :=
  let b := Bracket.ofShape n.shape
  let label := labelText n.label
  if label.any needsQuotes then b.opening ++ '"' :: label ++ '"' :: b.closing
  else b.opening ++ label ++ b.closing

/-- A node in full. -/
def fullForm (n : Node) : Text := n.id ++ bracketed n

/-- The connector of an edge, with its label if that is not empty. -/
def connector (e : Edge) : Text :=
  let token := if e.animated then ['-', '.', '-', '>'] else ['-', '-', '>']
  match e.label.map linkText with
  | some label => if label.isEmpty then token else token ++ '|' :: label ++ ['|']
  | none => token

/-- A node in full where it is first named, its id from then on. -/
def firstOrId (declared : List Text) (n : Node) : Text :=
  if declared.contains n.id then n.id else fullForm n

/-- The node that starts a line: also in full where its id would read as a directive. -/
def lineStart (declared : List Text) (n : Node) : Text :=
  if Line.startsDirective n.id then fullForm n else firstOrId declared n

/-- The line of an edge. -/
def edgeLine (declared : List Text) (source target : Node) (e : Edge) : Text :=
  indent ++ lineStart declared source ++ ' ' :: connector e ++ ' ' :: firstOrId (source.id :: declared) target ++ ['\n']

/-- The lines of a list of edges, given the ids that are declared above them. -/
def edgeLines (g : Graph) (declared : List Text) : List Edge → Text
  | [] => []
  | e :: rest =>
    match g.node? e.source, g.node? e.target with
    | some source, some target =>
      edgeLine declared source target e ++ edgeLines g (target.id :: source.id :: declared) rest
    | _, _ => edgeLines g declared rest

/-- The lines of the nodes that no edge touches. -/
def orphanLines (g : Graph) : Text :=
  (g.nodes.filter fun n => g.isOrphan n.id).flatMap fun n => indent ++ fullForm n ++ ['\n']

end Writer

/-- The text of a graph under a header line. -/
def Graph.toTextUnder (header : Text) (g : Graph) : Text :=
  header ++ '\n' :: Writer.edgeLines g [] g.edges ++ Writer.orphanLines g

/-- The text of a graph. -/
def Graph.toText (g : Graph) : Text := Graph.toTextUnder Writer.defaultHeader g

end Flowchart
