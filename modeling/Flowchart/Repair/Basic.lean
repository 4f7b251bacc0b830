import Flowchart.Repair.Aside
import Flowchart.Repair.Noise

/-!
Repairing generated flowchart text before it is read. One pass moves asides, deletes fences,
drops trailing capital tokens, collapses blanks, drops noise lines and trims; passes repeat
until the text stays as it is. Every pass that changes the text makes its `weight` smaller, so
that the weight bounds the passes.
-/
namespace Flowchart

namespace Repair

/-- One pass over the whole text. -/
def pass (t : Text) : Text :=
  (dropNoiseLines (collapseBlanks (dropTrailingTokens (dropFences (repairAsides t))))).trim

/-- The length, with three more for each opening parenthesis: moving an aside removes one of
    them and adds two characters at most. -/
def weight (t : Text) : Nat := t.length + 3 * t.count '('

/-- The repaired text and the number of passes that changed it. -/
def run (t : Text) : Text × Nat := settle pass (weight (dropReturns t) + 1) (dropReturns t)

end Repair

/-- The repaired text. -/
def repair (t : Text) : Text := (Repair.run t).1

/-- The marker that opens a diagram in a reply. -/
def openingFence : Text := Repair.fence ++ "mermaid".toList

/-- The text without its first opening fence. -/
def dropOpeningFence (reply : Text) : Text :=
  match Text.cut openingFence reply with
  | some (before, after) => before ++ after
  | none => reply

/-- The text before its last fence. -/
def beforeLastFence (t : Text) : Text :=
  match Text.cutLast Repair.fence t with
  | some (before, _) => before
  | none => t

/-- The repaired diagram of a whole reply: without the first opening fence, and up to the last
    fence. -/
def extractDiagram (reply : Text) : Text :=
  repair (beforeLastFence (dropOpeningFence reply)).trim

end Flowchart
