import Flowchart.Layout.Config
import Flowchart.Layout.Crossing

/-!
The centers of the boxes. Ranks are stacked by their tallest boxes. Boxes are packed on each rank
with a gap between neighbours, and the rank is centered on the widest one. From the second on,
each rank is moved as a whole so that its boxes lie below their parents on average. At last
everything is moved so that the leftmost box starts at the margin.
-/
namespace Flowchart

/-- Width and height of a box. -/
structure Size (α : Type) where
  width : α
  height : α

namespace Placement
variable {α : Type} [Scalar α]

/-- No length. -/
def zero : α := Scalar.ofNat 0

/-- Half a length. -/
def half (a : α) : α := a / Scalar.ofNat 2

/-- The sum from left to right. -/
def total (lengths : List α) : α := lengths.foldl (· + ·) zero

/-- The largest of some lengths, and of zero. -/
def largest (lengths : List α) : α := lengths.foldl Scalar.larger zero

/-- The size of a box: dummies have a width and no height. -/
def sizeOf (c : Config α) (a : Augmented) (sizes : List (Size α)) (v : Nat) : Size α :=
  if a.isDummy v then ⟨c.dummyWidth, zero⟩ else sizes.getD v ⟨zero, zero⟩

/-! ### Across a rank -/

/-- The centers of boxes that are packed from a left edge on. -/
def pack (gap : α) (width : Nat → α) (left : α) : List Nat → List (Nat × α)
  | [] => []
  | v :: rest => (v, left + half (width v)) :: pack gap width (left + (width v + gap)) rest

/-- The width of a packed rank. -/
def rankWidth (gap : α) (width : Nat → α) (rank : List Nat) : α :=
  total (rank.map width) + Scalar.ofNat (rank.length - 1) * gap

/-- Every rank, packed and centered on the widest. -/
def packed (gap : α) (width : Nat → α) (o : Ordering) : List (List (Nat × α)) :=
  let widest := largest (o.map (rankWidth gap width))
  o.map fun rank => pack gap width (half (widest - rankWidth gap width rank)) rank

/-- The center of a vertex, if it is among those that are placed. -/
def centerIn (placed : List (Nat × α)) (v : Nat) : α :=
  ((placed.find? (·.1 = v)).map (·.2)).getD zero

/-- How far the parents of the boxes on a rank are to their right, edge by edge. -/
def pulls (g : Digraph) (above rank : List (Nat × α)) : List α :=
  rank.flatMap fun (v, x) => (g.predecessors v).map fun p => centerIn above p - x

/-- Moves a rank below its parents. -/
def align (g : Digraph) (above rank : List (Nat × α)) : List (Nat × α) :=
  let pulls := pulls g above rank
  if pulls.isEmpty then rank
  else
    let shift := total pulls / Scalar.ofNat pulls.length
    rank.map fun (v, x) => (v, x + shift)

/-- Aligns rank after rank, each with the one above. -/
def alignFrom (g : Digraph) (above : List (Nat × α)) : List (List (Nat × α)) → List (List (Nat × α))
  | [] => []
  | rank :: rest =>
    let rank := align g above rank
    rank :: alignFrom g rank rest

/-- Leaves the first rank where it is and aligns the others. -/
def aligned (g : Digraph) : List (List (Nat × α)) → List (List (Nat × α))
  | [] => []
  | rank :: rest => rank :: alignFrom g rank rest

/-- The least left edge, if there is any box. -/
def leftmost? : List α → Option α
  | [] => none
  | left :: rest => some (rest.foldl Scalar.smaller left)

/-- Moves centers so that the leftmost box starts at the margin. -/
def normalized (margin : α) (width : Nat → α) (centers : List α) : List α :=
  match leftmost? (centers.zipIdx.map fun (x, v) => x - half (width v)) with
  | some left =>
    if Scalar.isFinite left then centers.map (· + (margin - left)) else centers
  | none => centers

/-! ### Down the ranks -/

/-- The height of a rank: that of its tallest box. -/
def rankHeight (height : Nat → α) (rank : List Nat) : α := largest (rank.map height)

/-- The center line of every rank, from a top edge on. -/
def stack (gap : α) (height : Nat → α) (top : α) : Ordering → List (List (Nat × α))
  | [] => []
  | rank :: rest =>
    let tallest := rankHeight height rank
    rank.map (fun v => (v, top + half tallest)) :: stack gap height (top + (tallest + gap)) rest

/-! ### Centers -/

/-- The centers of all vertices, dummies too. -/
def centers (c : Config α) (a : Augmented) (sizes : List (Size α)) (o : Ordering) : List (α × α) :=
  let width := fun v => (sizeOf c a sizes v).width
  let height := fun v => (sizeOf c a sizes v).height
  let across := (aligned a.graph (packed c.horizontalGap width o)).flatten
  let down := (stack c.verticalGap height c.margin o).flatten
  let xs := normalized c.margin width (a.graph.vertices.map (centerIn across))
  xs.zip (a.graph.vertices.map (centerIn down))

end Placement
end Flowchart
