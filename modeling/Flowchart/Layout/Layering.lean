import Flowchart.Layout.Cycle

/-!
Ranks. Every vertex is put on the rank that is the length of the longest path to it, by walking a
topological order and pushing successors down. Then every edge that spans several ranks is split
into edges from one rank to the next by dummy vertices.
-/
namespace Flowchart

/-- A graph without cycles and the rank of each vertex. -/
structure Layering where
  dag : Digraph
  ranks : List Nat
  /-- The number of edges that were reversed. -/
  reversed : Nat
  deriving DecidableEq, Repr

/-- The rank of a vertex. -/
def rankIn (ranks : List Nat) (v : Nat) : Nat := ranks.getD v 0

/-- The number of ranks in use, one at least. -/
def rankCount (ranks : List Nat) : Nat := ranks.foldl max 0 + 1

/-- Pushes the successors of a vertex below it. -/
def pushDown (g : Digraph) (ranks : List Nat) (v : Nat) : List Nat :=
  (g.successors v).foldl (fun ranks s => ranks.modify s (max · (rankIn ranks v + 1))) ranks

/-- The ranks that walking an order gives. -/
def longestPaths (g : Digraph) (order : List Nat) : List Nat :=
  order.foldl (pushDown g) (List.replicate g.size 0)

namespace Layering

/-- The number of ranks. -/
def count (l : Layering) : Nat := rankCount l.ranks

/-- The layering of a graph without cycles along one of its topological orders. -/
def alongOrder (g : Digraph) (order : List Nat) : Layering := ⟨g, longestPaths g order, 0⟩

/-- The layering of any graph, after breaking its cycles. -/
def breakingCycles (g : Digraph) : Layering :=
  let a := g.breakCycles
  ⟨a.dag, longestPaths a.dag a.order, a.reversed⟩

/-- The layering of a graph; its cycles are broken if it has any. -/
def of (g : Digraph) : Layering :=
  match g.topologicalOrder? with
  | some order => alongOrder g order
  | none => breakingCycles g

end Layering

/-- A layered graph whose edges join neighbouring ranks. Its first vertices are those of the
    graph it was made from, the others are dummies. -/
structure Augmented where
  graph : Digraph
  ranks : List Nat
  rankCount : Nat
  realCount : Nat
  deriving DecidableEq, Repr

namespace Augmented

/-- Consecutive vertices of a path. -/
def pathEdges (path : List Nat) : List (Nat × Nat) := path.zip path.tail

/-- The ranks strictly between the ends of an edge. -/
def ranksBetween (ranks : List Nat) (e : Nat × Nat) : List Nat :=
  List.range' (rankIn ranks e.1 + 1) (rankIn ranks e.2 - (rankIn ranks e.1 + 1))

/-- Adds an edge, split by a new dummy on every rank between its ends. -/
def addSplit (a : Augmented) (e : Nat × Nat) : Augmented :=
  let between := ranksBetween a.ranks e
  let dummies := List.range' a.graph.size between.length
  { a with
    graph := ⟨a.graph.size + between.length, a.graph.edges ++ pathEdges (e.1 :: dummies ++ [e.2])⟩
    ranks := a.ranks ++ between }

/-- Splits every edge of a layering. -/
def of (l : Layering) : Augmented :=
  l.dag.edges.foldl addSplit ⟨⟨l.dag.size, []⟩, l.ranks, l.count, l.dag.size⟩

/-- A vertex that was added to split an edge. -/
def isDummy (a : Augmented) (v : Nat) : Bool := a.realCount ≤ v

/-- The number of dummies. -/
def dummyCount (a : Augmented) : Nat := a.graph.size - a.realCount

end Augmented
end Flowchart
