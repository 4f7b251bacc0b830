import Flowchart.Graph.Basic

/-!
Directed graphs on the numbers below their size, with edges in order. The rank constraints of a
flowchart are such a graph: its vertices are the places of the nodes, and self loops, which
constrain nothing, are left out. A topological order lists every vertex once, each behind its
predecessors (`IsTopological`).
-/
namespace Flowchart

/-- A directed graph on the numbers below its size. -/
structure Digraph where
  size : Nat
  edges : List (Nat × Nat)
  deriving DecidableEq, Repr

namespace Digraph

/-- The rank constraints of a flowchart. -/
def ofGraph (g : Graph) : Digraph where
  size := g.nodes.length
  edges := g.edges.filterMap fun e =>
    match g.nodes.findIdx? (·.id = e.source), g.nodes.findIdx? (·.id = e.target) with
    | some s, some t => if s = t then none else some (s, t)
    | _, _ => none

/-- All vertices in ascending order. -/
def vertices (g : Digraph) : List Nat := List.range g.size

/-- The heads of the edges out of a vertex, in edge order. -/
def successors (g : Digraph) (v : Nat) : List Nat := (g.edges.filter (·.1 = v)).map (·.2)

/-- The tails of the edges into a vertex, in edge order. -/
def predecessors (g : Digraph) (v : Nat) : List Nat := (g.edges.filter (·.2 = v)).map (·.1)

/-- The edges into a vertex whose tails are among the active ones. -/
def inDegree (g : Digraph) (active : List Nat) (v : Nat) : Nat := (g.predecessors v).countP (· ∈ active)

/-- Every vertex once, and every edge from an earlier to a later one. -/
def IsTopological (g : Digraph) (order : List Nat) : Prop :=
  order.Perm g.vertices ∧ ∀ e ∈ g.edges, order.idxOf e.1 < order.idxOf e.2

/-- Lists active vertices without active predecessors, again and again. -/
def peel (g : Digraph) : (fuel : Nat) → (active : List Nat) → Option (List Nat)
  | _, [] => some []
  | 0, _ :: _ => none
  | fuel + 1, active =>
    let ready := active.filter fun v => g.inDegree active v = 0
    if ready.isEmpty then none
    else (g.peel fuel (active.filter fun v => g.inDegree active v ≠ 0)).map (ready ++ ·)

/-- A topological order, if the graph has no cycle. -/
def topologicalOrder? (g : Digraph) : Option (List Nat) := g.peel g.size g.vertices

end Digraph
end Flowchart
