import Flowchart.Layout.Diagram
import Flowchart.Parse
import Flowchart.Repair.Basic

/-!
From raw text to a diagram in one go: repair the text, read it, draw the graph. A failure keeps
the raw text, so that it can be shown as it came.
-/
namespace Flowchart

/-- Why a text gives no diagram, and the text as it came. -/
structure LoadError where
  cause : ParseError
  raw : Text
  deriving DecidableEq, Repr

/-- The diagram of a raw text. -/
def load [Scalar α] (c : Config α) (raw : Text) : Except LoadError (Diagram α) :=
  if raw.isWhiteOnly then .error ⟨.blank, raw⟩
  else
    match parse (repair raw) with
    | .ok g => .ok (layout c g)
    | .error cause => .error ⟨cause, raw⟩

end Flowchart
