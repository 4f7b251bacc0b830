import Flowchart.Line.Statement

/-!
A cursor over one line: a byte position and the text from there on. Its moves are the scanners
of the line; each advances the position by the bytes it passes over.
-/
namespace Flowchart

/-- A place in a line. -/
structure Cursor where
  /-- Bytes passed over so far. -/
  position : Nat
  rest : Text
  deriving DecidableEq, Repr

namespace Cursor
open Line

/-- At the start of a line. -/
def start (line : Text) : Cursor := ⟨0, line⟩

/-- Moves on to an end of the remaining text. -/
def moveTo (c : Cursor) (rest : Text) : Cursor :=
  ⟨c.position + (c.rest.size - rest.size), rest⟩

/-- Runs a scanner. -/
def scan (c : Cursor) (scanner : Text → Scanned α) : Option α × Cursor :=
  ((scanner c.rest).1, c.moveTo (scanner c.rest).2)

/-! ### Looking -/

/-- Nothing is left. -/
def atEnd (c : Cursor) : Bool := c.rest.isEmpty

/-- The text goes on with the token. -/
def startsWith (c : Cursor) (token : Text) : Bool := (Text.after? token c.rest).isSome

/-- The next character. -/
def head? (c : Cursor) : Option Char := c.rest.head?

/-! ### Moving -/

/-- Passes over one character. -/
def next (c : Cursor) : Cursor := c.moveTo (c.rest.drop 1)

/-- Passes over the token when the text starts with it. -/
def take (c : Cursor) (token : Text) : Bool × Cursor :=
  match Text.after? token c.rest with
  | some rest => (true, c.moveTo rest)
  | none => (false, c)

/-- Passes over spaces and tabs. -/
def passBlanks (c : Cursor) : Cursor := c.moveTo (Line.passBlanks c.rest)

/-- Passes over a character and everything to the next mark, or to the end. -/
def passDelimited (c : Cursor) (mark : Char) : Cursor := c.moveTo (Line.passDelimited mark c.rest)

/-- Passes over an inline label with its connector when there is one. -/
def passInlineLabel (c : Cursor) : Bool × Cursor :=
  match inlineLabel? c.rest with
  | some (_, rest) => (true, c.moveTo rest)
  | none => (false, c)

/-- Takes a node id. -/
def takeId (c : Cursor) : Option Text × Cursor := c.scan Line.takeId

/-- Takes the bracket pair that starts here. -/
def takeShape (c : Cursor) : Option (Shape × Text) × Cursor := c.scan Line.takeShape

/-- Takes a node id with the bracket pair behind it. -/
def takeEndpoint (c : Cursor) : Option Text × Cursor := c.scan Line.takeEndpoint

/-- Takes an edge label between pipes. -/
def takeLabel (c : Cursor) : Option Text × Cursor := c.scan Line.takeLabel

/-- Takes a connector with its label. -/
def takeConnector (c : Cursor) : Option (Arrow × Option Text) × Cursor := c.scan Line.takeConnector

/-- Takes a whole link; without one the cursor stays. -/
def takeLink (c : Cursor) : Option Link × Cursor := c.scan Line.takeLink

/-- Takes the pieces of a link one after the other; without one of them, the cursor is where that piece was missing. -/
def tryLink (c : Cursor) : Option Link × Cursor :=
  match c.takeEndpoint with
  | (some source, behindSource) =>
    match behindSource.takeConnector with
    | (some (arrow, label), behindArrow) =>
      match behindArrow.takeEndpoint with
      | (some target, behind) => (some ⟨source, target, label, arrow⟩, behind)
      | (none, behind) => (none, behind)
    | (none, behind) => (none, behind)
  | (none, behind) => (none, behind)

end Cursor
end Flowchart
