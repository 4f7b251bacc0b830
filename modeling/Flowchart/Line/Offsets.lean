import Flowchart.Line.Cursor

/-!
A line read by byte offsets. A position is an offset into the UTF-8 form of the line, and what a
reader sees there is the slice of the line from the position on. A slice fails (`none`) where an
offset lies past the end or inside a character. The readers here move by adding up what they
searched for: offsets at which a mark was found, sizes of tokens, and constants. So a slice may fail
if one of these sums is wrong. Each reader gives its answer with the new position.
-/
namespace Flowchart

namespace Text

/-- The text from an offset on. -/
def sliceFrom? : Text → Nat → Option Text
  | t, 0 => some t
  | [], _ + 1 => none
  | c :: t, offset + 1 => if c.utf8Size ≤ offset + 1 then sliceFrom? t (offset + 1 - c.utf8Size) else none

/-- The text up to an offset. -/
def sliceTo? : Text → Nat → Option Text
  | _, 0 => some []
  | [], _ + 1 => none
  | c :: t, offset + 1 =>
    if c.utf8Size ≤ offset + 1 then (sliceTo? t (offset + 1 - c.utf8Size)).map (c :: ·) else none

/-- The text between two offsets. -/
def slice? (t : Text) (start stop : Nat) : Option Text :=
  if start ≤ stop then (t.sliceFrom? start).bind (·.sliceTo? (stop - start)) else none

/-- The offset at which a mark is found first. -/
def offsetOf? (mark t : Text) : Option Nat := (cut mark t).map fun (before, _) => before.size

end Text

namespace Offsets
open Text
open Line (Arrow Link)

/-- A reader gives its answer and the new position, or fails for want of a slice. -/
def Reader (α : Type) := (line : Text) → (position : Nat) → Option (α × Nat)

/-- A reader with another answer made of its own. -/
def Reader.map (f : α → β) (reader : Reader α) : Reader β :=
  fun line position => (reader line position).map (Prod.map f id)

/-! ### Brackets -/

/-- What stands between two marks at the ends of the text. -/
def between? (opening closing t : Text) : Option (Option Text) :=
  if opening.size + closing.size ≤ t.size && (after? opening t).isSome && (before? closing t).isSome then
    (t.slice? opening.size (t.size - closing.size)).map some
  else some none

/-- A label without the white space and the one pair of double quotes around it. -/
def unquote (label : Text) : Option Text := do
  match ← between? ['"'] ['"'] label.trim with
  | some inner => return inner.trim
  | none => return label.trim

/-- The shape and label of a whole declaration, by the first of the brackets that fits. -/
def shapeAndLabel (declaration : Text) : List Bracket → Option (Shape × Text)
  | [] => some (.rectangle, declaration.trim)
  | b :: later => do
    match ← between? b.opening b.closing declaration.trim with
    | some inner => return (b.shape, ← unquote inner)
    | none => shapeAndLabel declaration later

/-- The offset behind the quoted text that a body starts with; without one, the start of the body. -/
def quotedEnd (t : Text) (start : Nat) : Option Nat := do
  let body ← t.sliceFrom? start
  let unblanked := body.dropWhile isBlank
  if unblanked.head? = some '"' then
    let quote := start + (body.size - size unblanked)
    match offsetOf? ['"'] (← t.sliceFrom? (quote + 1)) with
    | some offset => return quote + 1 + offset + 1
    | none => return start
  else return start

/-- The size of the declaration that the text starts with, by the first of the brackets that opens and closes there. -/
def extent? (t : Text) : List Bracket → Option (Option Nat)
  | [] => some none
  | b :: later => do
    if (after? b.opening t).isSome then
      let start ← quotedEnd t b.opening.size
      match offsetOf? b.closing (← t.sliceFrom? start) with
      | some offset => return some (start + offset + b.closing.size)
      | none => extent? t later
    else extent? t later

/-! ### Looking -/

/-- Nothing is left. -/
def atEnd : Reader Bool := fun line position => some (line.size ≤ position, position)

/-- What is left. -/
def rest : Reader Text := fun line position => do return (← line.sliceFrom? position, position)

/-- The next character. -/
def head? : Reader (Option Char) := fun line position => do return ((← line.sliceFrom? position).head?, position)

/-- The text goes on with the token. -/
def startsWith (token : Text) : Reader Bool := fun line position => do
  return ((after? token (← line.sliceFrom? position)).isSome, position)

/-! ### Moving -/

/-- Passes over one character. -/
def next : Reader Unit := fun line position => do
  match ← head? line position with
  | (some c, _) => return ((), position + c.utf8Size)
  | (none, _) => return ((), position)

/-- Passes over the token when the text goes on with it. -/
def take (token : Text) : Reader Bool := fun line position => do
  match ← startsWith token line position with
  | (true, _) => return (true, position + token.size)
  | (false, _) => return (false, position)

/-- Passes over spaces and tabs. -/
def passBlanks : Reader Unit := fun line position => do
  let rest ← line.sliceFrom? position
  return ((), position + (rest.size - size (rest.dropWhile isBlank)))

/-- Passes over a character and everything to the next mark, or to the end. -/
def passDelimited (mark : Char) : Reader Unit := fun line position => do
  let (_, inside) ← next line position
  match offsetOf? [mark] (← line.sliceFrom? inside) with
  | some offset => return ((), inside + (offset + mark.utf8Size))
  | none => return ((), line.size)

/-- Passes over an inline label with its connector when there is one. -/
def passInlineLabel : Reader Bool := fun line position => do
  let (dashes, _) ← startsWith ['-', '-'] line position
  let (arrow, _) ← startsWith ['-', '-', '>'] line position
  let (rule, _) ← startsWith ['-', '-', '-'] line position
  if !dashes || arrow || rule then return (false, position)
  else
    let rest ← line.sliceFrom? position
    match offsetOf? ['-', '-', '>'] (← rest.sliceFrom? 2) with
    | some offset => return (true, position + (offset + 5))
    | none => return (false, position)

/-- Takes a node id. -/
def takeId : Reader (Option Text) := fun line position => do
  let rest ← line.sliceFrom? position
  let run := size (rest.takeWhile isIdChar)
  if run = 0 then return (none, position)
  else return (some (← rest.sliceTo? run), position + run)

/-- Takes the bracket pair that starts here. -/
def takeShape : Reader (Option (Shape × Text)) := fun line position => do
  let rest ← line.sliceFrom? position
  match ← extent? rest Bracket.all with
  | some extent => return (some (← shapeAndLabel (← rest.sliceTo? extent) Bracket.all), position + extent)
  | none => return (none, position)

/-- Takes a node id with the bracket pair behind it. -/
def takeEndpoint : Reader (Option Text) := fun line position => do
  let (_, start) ← passBlanks line position
  match ← takeId line start with
  | (some id, behindId) =>
    let (_, behind) ← takeShape line behindId
    return (some id, behind)
  | (none, behind) => return (none, behind)

/-- The label that a written edge label stands for; an empty one stands for none. -/
def linkLabel (raw : Text) : Option (Option Text) := do
  let label ← unquote raw
  return if label.isEmpty then none else some label

/-- Takes an edge label between pipes. Without both pipes the position stays. -/
def takeLabel : Reader (Option Text) := fun line position => do
  let (_, start) ← passBlanks line position
  match ← take ['|'] line start with
  | (true, inside) =>
    let rest ← line.sliceFrom? inside
    match offsetOf? ['|'] rest with
    | some offset => return (← linkLabel (← rest.sliceTo? offset), inside + (offset + 1))
    | none => return (none, position)
  | (false, _) => return (none, position)

/-- Takes the first of the tokens that the text goes on with. -/
def takeToken : List (Text × Arrow) → Reader (Option Arrow)
  | [] => fun _ position => some (none, position)
  | (token, arrow) :: later => fun line position => do
    match ← take token line position with
    | (true, behind) => return (some arrow, behind)
    | (false, _) => takeToken later line position

/-- Takes a connector with its label. -/
def takeConnector : Reader (Option (Arrow × Option Text)) := fun line position => do
  let (_, start) ← passBlanks line position
  match ← takeToken Arrow.tokens line start with
  | (some arrow, behind) =>
    let (label, behindLabel) ← takeLabel line behind
    return (some (arrow, label), behindLabel)
  | (none, _) =>
    let (dashes, _) ← startsWith ['-', '-'] line start
    let (rule, _) ← startsWith ['-', '-', '-'] line start
    if dashes && !rule then
      let body := start + 2
      match offsetOf? ['-', '-', '>'] (← line.sliceFrom? body) with
      | some offset => return (some (.solid, ← linkLabel (← line.slice? body (body + offset))), body + offset + 3)
      | none => return (none, start)
    else return (none, start)

/-- Takes the pieces of a link one after the other. -/
def tryLink : Reader (Option Link) := fun line position => do
  match ← takeEndpoint line position with
  | (some source, behindSource) =>
    match ← takeConnector line behindSource with
    | (some (arrow, label), behindArrow) =>
      match ← takeEndpoint line behindArrow with
      | (some target, behind) => return (some ⟨source, target, label, arrow⟩, behind)
      | (none, behind) => return (none, behind)
    | (none, behind) => return (none, behind)
  | (none, behind) => return (none, behind)

/-- Takes a whole link; without one the position stays. -/
def takeLink : Reader (Option Link) := fun line position => do
  match ← tryLink line position with
  | (some link, behind) => return (some link, behind)
  | (none, _) => return (none, position)

/-! ### Searching for declarations -/

/-- One round of the search for declarations: the node that it declares, if any, and
    the new position; nothing when the search is over. -/
def round (line : Text) (position : Nat) : Option (Option (Option Node × Nat)) := do
  match ← head? line position with
  | (none, _) => return none
  | (some c, _) =>
    if c = '|' || c = '"' then
      let (_, behind) ← passDelimited c line position
      return some (none, behind)
    else
      let (passed, behind) ← if c = '-' then passInlineLabel line position else some (false, position)
      if passed then return some (none, behind)
      else if isIdChar c then
        match ← takeId line position with
        | (some id, behindId) =>
          let (found, behind) ← takeShape line behindId
          return some (found.map fun (shape, label) => ⟨id, label, shape⟩, behind)
        | (none, _) => return none
      else
        let (_, behind) ← next line position
        return some (none, behind)

/-- From a position on, the search is over after so many rounds, and it has found these nodes. -/
inductive Rounds (line : Text) : (position count : Nat) → (found : List Node) → Prop
  | stop {position : Nat} (last : round line position = some none) : Rounds line position 0 []
  | more {position behind count : Nat} {node : Option Node} {found : List Node}
      (first : round line position = some (some (node, behind))) (later : Rounds line behind count found) :
      Rounds line position (count + 1) (node.toList ++ found)

end Offsets
end Flowchart
