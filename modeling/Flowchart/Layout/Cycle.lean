import Flowchart.Layout.Digraph

/-!
Breaking cycles. The vertices are put in a row: sinks to the back, sources to the front, and when
neither is left, the vertex with the most outgoing edges over incoming ones to the front. Of
several the lowest comes first. Edges are counted once, and a vertex that is put in the row takes
its edges off the counts of its neighbours. The edges that point backwards in the row are then
reversed, which leaves no cycle; the row is a topological order of the result.
-/
namespace Flowchart

/-- The vertices that are not in the row yet, in ascending order, and for every vertex the number
    of edges out of it and into it. Edges from and to vertices in the row no longer count. -/
structure Remaining where
  active : List Nat
  outgoing : List Int
  incoming : List Int
  deriving DecidableEq, Repr

namespace Remaining

/-- All vertices, with all of their edges. -/
def all (g : Digraph) : Remaining where
  active := g.vertices
  outgoing := g.vertices.map fun v => (g.successors v).length
  incoming := g.vertices.map fun v => (g.predecessors v).length

/-- One edge less for every listed vertex, if it is active. -/
def discount (active : List Nat) (counts : List Int) (vertices : List Nat) : List Int :=
  vertices.foldl (fun counts v => if v ∈ active then counts.modify v (· - 1) else counts) counts

/-- Takes a vertex off, and its edges from the counts of its neighbours. -/
def takeOff (g : Digraph) (r : Remaining) (v : Nat) : Remaining :=
  let active := r.active.erase v
  { active
    outgoing := discount active r.outgoing (g.predecessors v)
    incoming := discount active r.incoming (g.successors v) }

/-- The active vertices whose count is zero. -/
def without (counts : List Int) (active : List Nat) : List Nat := active.filter fun v => counts.getD v 0 = 0

def sinks (r : Remaining) : List Nat := without r.outgoing r.active

def sources (r : Remaining) : List Nat := without r.incoming r.active

/-- Takes off all vertices that are ready, again and again until none is: what remains then, and
    those taken off, in order. -/
def takeOffReady (g : Digraph) (ready : Remaining → List Nat) : (fuel : Nat) → Remaining → Remaining × List Nat
  | 0, r => (r, [])
  | fuel + 1, r =>
    let now := ready r
    if now.isEmpty then (r, [])
    else
      let (left, later) := takeOffReady g ready fuel (now.foldl (takeOff g) r)
      (left, now ++ later)

/-- Outgoing less incoming edges. -/
def surplus (r : Remaining) (v : Nat) : Int := r.outgoing.getD v 0 - r.incoming.getD v 0

/-- The first of the active vertices with the largest surplus. -/
def largestSurplus? (r : Remaining) : Option Nat :=
  r.active.foldl (fun best v =>
    match best with
    | some b => if r.surplus b < r.surplus v then some v else some b
    | none => some v) none

/-- Puts the active vertices in a row. -/
def arrange (g : Digraph) : (fuel : Nat) → Remaining → List Nat
  | 0, r => r.active
  | fuel + 1, r =>
    let (r, back) := takeOffReady g sinks r.active.length r
    let (r, front) := takeOffReady g sources r.active.length r
    match r.largestSurplus? with
    | some v => front ++ v :: arrange g fuel (r.takeOff g v) ++ back.reverse
    | none => front ++ back.reverse

end Remaining

/-- All vertices in a row with few edges that point backwards. -/
def Digraph.arrangement (g : Digraph) : List Nat := Remaining.arrange g (g.size + 1) (.all g)

/-- A graph without cycles that was made by reversing edges. -/
structure Acyclic where
  dag : Digraph
  /-- A topological order of the graph. -/
  order : List Nat
  /-- The number of reversed edges. -/
  reversed : Nat
  deriving DecidableEq, Repr

/-- The edge points backwards in the row. -/
def isBackward (order : List Nat) (e : Nat × Nat) : Bool := order.idxOf e.2 < order.idxOf e.1

/-- The edge, or its reverse if it points backwards. -/
def forward (order : List Nat) (e : Nat × Nat) : Nat × Nat := if isBackward order e then e.swap else e

/-- Reverses the edges that point backwards in the arrangement. -/
def Digraph.breakCycles (g : Digraph) : Acyclic :=
  let order := g.arrangement
  { dag := { g with edges := g.edges.map (forward order) }
    order := order
    reversed := g.edges.countP (isBackward order) }

end Flowchart
