import Flowchart.Line.Offsets

/-!
Everything that can be done with a cursor, as data: an operation with its arguments. An operation is run on a
cursor, or read by byte offsets from a position in the line; either way it gives an answer and leaves the cursor, or
the position, somewhere.
-/
namespace Flowchart.Cursor
open Line (Arrow Link)

/-- What can be done with a cursor. -/
inductive Operation where
  | atEnd
  | rest
  | head
  | startsWith (token : Text)
  | next
  | take (token : Text)
  | passBlanks
  | passDelimited (mark : Char)
  | passInlineLabel
  | takeId
  | takeShape
  | takeEndpoint
  | takeLabel
  | takeConnector
  | tryLink
  | takeLink
  deriving DecidableEq, Repr

/-- What an operation answers. -/
inductive Answer where
  | done
  | flag (holds : Bool)
  | char (c : Option Char)
  | text (t : Option Text)
  | shape (s : Option (Shape × Text))
  | connector (c : Option (Arrow × Option Text))
  | link (l : Option Link)
  deriving DecidableEq, Repr

/-- The operation has found what it looks for. -/
def Answer.isMatch : Answer → Bool
  | .done => true
  | .flag holds => holds
  | .char c => c.isSome
  | .text t => t.isSome
  | .shape s => s.isSome
  | .connector c => c.isSome
  | .link l => l.isSome

namespace Operation

/-- Without a match, the operation leaves the cursor where it was. The others that look for something may pass over
    blanks, and a label that is empty is passed over and counts as none. -/
def staysPut : Operation → Bool
  | .take _ | .passInlineLabel | .takeId | .takeShape | .takeLink => true
  | _ => false

/-- Runs the operation on a cursor. -/
def run (c : Cursor) : Operation → Answer × Cursor
  | .atEnd => (.flag c.atEnd, c)
  | .rest => (.text (some c.rest), c)
  | .head => (.char c.head?, c)
  | .startsWith token => (.flag (c.startsWith token), c)
  | .next => (.done, c.next)
  | .take token => (c.take token).map .flag id
  | .passBlanks => (.done, c.passBlanks)
  | .passDelimited mark => (.done, c.passDelimited mark)
  | .passInlineLabel => c.passInlineLabel.map .flag id
  | .takeId => c.takeId.map .text id
  | .takeShape => c.takeShape.map .shape id
  | .takeEndpoint => c.takeEndpoint.map .text id
  | .takeLabel => c.takeLabel.map .text id
  | .takeConnector => c.takeConnector.map .connector id
  | .tryLink => c.tryLink.map .link id
  | .takeLink => c.takeLink.map .link id

/-- Reads the operation off a line by byte offsets. -/
def read : Operation → Offsets.Reader Answer
  | .atEnd => Offsets.atEnd.map .flag
  | .rest => Offsets.rest.map fun t => .text (some t)
  | .head => Offsets.head?.map .char
  | .startsWith token => (Offsets.startsWith token).map .flag
  | .next => Offsets.next.map fun _ => .done
  | .take token => (Offsets.take token).map .flag
  | .passBlanks => Offsets.passBlanks.map fun _ => .done
  | .passDelimited mark => (Offsets.passDelimited mark).map fun _ => .done
  | .passInlineLabel => Offsets.passInlineLabel.map .flag
  | .takeId => Offsets.takeId.map .text
  | .takeShape => Offsets.takeShape.map .shape
  | .takeEndpoint => Offsets.takeEndpoint.map .text
  | .takeLabel => Offsets.takeLabel.map .text
  | .takeConnector => Offsets.takeConnector.map .connector
  | .tryLink => Offsets.tryLink.map .link
  | .takeLink => Offsets.takeLink.map .link

end Operation

/-- Where a cursor is after some operations, one after the other. -/
def after (c : Cursor) (operations : List Operation) : Cursor :=
  operations.foldl (fun c operation => (operation.run c).2) c

/-- The position after some operations by byte offsets, if none of them fails. -/
def positionAfter? (line : Text) (position : Nat) (operations : List Operation) : Option Nat :=
  operations.foldlM (fun position operation => (operation.read line position).map Prod.snd) position

end Flowchart.Cursor
