import Flowchart.Layout.Layering

/-!
The order of the vertices on each rank, chosen to make few edges cross. A sweep goes down and up
the ranks and orders each by the mean place of the neighbours on the rank before it. Sweeps
repeat while they take crossings away; the best order counts.
-/
namespace Flowchart

/-- The vertices of each rank from left to right. -/
abbrev Ordering := List (List Nat)

namespace Ordering

/-- Every rank in ascending order. -/
def initial (a : Augmented) : Ordering :=
  (List.range a.rankCount).map fun r => a.graph.vertices.filter fun v => rankIn a.ranks v = r

/-! ### Crossings -/

/-- The place of a vertex on its rank, 0 if it is on none; the last place counts. -/
def place (o : Ordering) (v : Nat) : Nat :=
  o.foldl (fun p rank => rank.zipIdx.foldl (fun p (u, i) => if u = v then i else p) p) 0

/-- Two edges between two ranks cross. -/
def crosses (e f : Nat × Nat) : Bool := (e.1 < f.1 && f.2 < e.2) || (f.1 < e.1 && e.2 < f.2)

/-- The number of pairs that cross. -/
def crossingPairs : List (Nat × Nat) → Nat
  | [] => 0
  | e :: rest => rest.countP (crosses e) + crossingPairs rest

/-- The edges out of a rank, by the places of their ends. -/
def segments (g : Digraph) (o : Ordering) (rank : List Nat) : List (Nat × Nat) :=
  rank.flatMap fun v => (g.successors v).map fun w => (o.place v, o.place w)

/-- The crossings below every rank but the last. -/
def crossings (g : Digraph) (o : Ordering) : Nat :=
  o.dropLast.foldr (fun rank count => crossingPairs (o.segments g rank) + count) 0

/-! ### Sweeps -/

/-- A mean of places: their sum and their number. -/
structure Mean where
  total : Nat
  count : Nat
  deriving DecidableEq, Repr

/-- Compares means by cross multiplication. -/
def Mean.le (m n : Mean) : Bool := m.total * n.count ≤ n.total * m.count

/-- The place of a vertex on one rank, if it is there; the last place counts. -/
def placeOn? (rank : List Nat) (v : Nat) : Option Nat :=
  rank.zipIdx.foldl (fun p (u, i) => if u = v then some i else p) none

/-- The mean place on the fixed rank of the neighbours of a vertex; its own place if it has none
    there. -/
def barycenter (neighbours : Nat → List Nat) (fixed : List Nat) (v current : Nat) : Mean :=
  let places := (neighbours v).filterMap (placeOn? fixed)
  if places.isEmpty then ⟨current, 1⟩ else ⟨places.foldr (· + ·) 0, places.length⟩

/-- Orders a rank by the barycenters of its vertices. -/
def reorder (neighbours : Nat → List Nat) (fixed rank : List Nat) : List Nat :=
  let keyed := rank.zipIdx.map fun (v, current) => (barycenter neighbours fixed v current, v)
  (keyed.mergeSort fun a b => a.1.le b.1).map (·.2)

/-- Orders rank after rank, each by the one before it. -/
def sweepFrom (neighbours : Nat → List Nat) (fixed : List Nat) : Ordering → Ordering
  | [] => []
  | rank :: rest =>
    let rank := reorder neighbours fixed rank
    rank :: sweepFrom neighbours rank rest

/-- Leaves the first rank as it is and orders the others. -/
def sweep (neighbours : Nat → List Nat) : Ordering → Ordering
  | [] => []
  | rank :: rest => rank :: sweepFrom neighbours rank rest

/-- Down the ranks by predecessors, then up by successors. -/
def sweepBoth (g : Digraph) (o : Ordering) : Ordering :=
  (sweep g.successors (sweep g.predecessors o).reverse).reverse

/-- Sweeps while crossings are left and get fewer. -/
def improve (g : Digraph) : (passes : Nat) → Ordering → Ordering
  | 0, o => o
  | passes + 1, o =>
    if crossings g o = 0 then o
    else
      let swept := sweepBoth g o
      if crossings g swept < crossings g o then improve g passes swept else o

/-- The crossings after each sweep that is made. -/
def sweepCounts (g : Digraph) : (passes : Nat) → Ordering → List Nat
  | 0, _ => []
  | passes + 1, o =>
    if crossings g o = 0 then []
    else
      let swept := sweepBoth g o
      let rest := if crossings g swept < crossings g o then sweepCounts g passes swept else []
      crossings g swept :: rest

/-- The order of the ranks after so many sweeps at most. -/
def minimal (a : Augmented) (passes : Nat) : Ordering := improve a.graph passes (initial a)

end Ordering
end Flowchart
