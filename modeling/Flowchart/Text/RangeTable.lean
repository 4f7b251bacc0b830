/-!
Sets of characters given as ranges of code points.
-/
namespace Flowchart

/-- Ascending ranges of code points, both ends included. -/
abbrev RangeTable := List (Nat × Nat)

/-- A character is in a table when its code point lies in one of the ranges. -/
def RangeTable.has (t : RangeTable) (c : Char) : Bool :=
  t.any fun r => r.1 ≤ c.toNat && c.toNat ≤ r.2

end Flowchart
