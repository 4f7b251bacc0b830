import Flowchart.Line.Scan

/-!
What one line states. A line is passed over when it is blank, a comment or a directive;
otherwise it declares nodes, links two of them, or both, or it states nothing. Declarations and
the link are read apart: `declarations` walks the whole line and `takeLink` reads its start.
-/
namespace Flowchart.Line

/-- First words of lines that add nothing to the graph. -/
def directives : List Text :=
  ["flowchart".toList, "graph".toList, "subgraph".toList, "end".toList, "style".toList,
   "classDef".toList, "class".toList, "linkStyle".toList, "click".toList]

/-- The first word of the line is a directive. -/
def startsDirective (t : Text) : Bool := directives.contains t.firstWord

/-- Starts a comment. -/
def isComment : Text → Bool
  | '%' :: '%' :: _ => true
  | _ => false

/-- What a line adds to the graph. -/
inductive Statement where
  /-- A blank line, a comment or a directive. -/
  | skip
  /-- Nothing that can be read. -/
  | unparseable
  /-- Declared nodes in their order on the line, and the link if there is one. -/
  | content (declarations : List Node) (link : Option Link)
  deriving DecidableEq, Repr

/-- Every id with a bracket pair right behind it. Edge labels and quoted text are passed over. -/
def declarations : Text → List Node
  | [] => []
  | c :: r =>
    if c = '|' || c = '"' then declarations (passDelimited c (c :: r))
    else
      match _h : inlineLabel? (c :: r) with
      | some (_, rest) => declarations rest
      | none =>
        if isIdChar c then
          let found := takeShape (r.dropWhile isIdChar)
          let declared := found.1.map fun (shape, label) => ⟨c :: r.takeWhile isIdChar, label, shape⟩
          declared.toList ++ declarations found.2
        else declarations r
termination_by t => t.length
decreasing_by
  · exact Nat.lt_succ_of_le (passDelimited_suffix c (c :: r)).length_le
  · have := (inlineLabel?_suffix _h).length_le
    simp only [List.drop_succ_cons, List.length_drop, List.length_cons] at this ⊢
    omega
  · have h1 := (takeShape_suffix (r.dropWhile isIdChar)).length_le
    have h2 := (List.dropWhile_suffix isIdChar (l := r)).length_le
    simp only [List.length_cons]
    omega
  · simp

/-- The link that the line starts with. -/
def link? (t : Text) : Option Link := (takeLink t).1

/-- A line without the white space around it, read as a statement. -/
def statementOf (t : Text) : Statement :=
  if t.isEmpty || isComment t || startsDirective t then .skip
  else if (declarations t).isEmpty && (link? t).isNone then .unparseable
  else .content (declarations t) (link? t)

/-- Reads one line. -/
def parse (line : Text) : Statement := statementOf line.trim

end Flowchart.Line
