import Flowchart.Json.Basic

/-!
Reading JSON. A reader gives the value that a text starts with and the text behind it, or no
text where it met a fault, which is then the last thing in the value. Reading is strict: no
comments, no comma without an item behind it, no leading zeros, no raw control characters.
-/
namespace Flowchart.Json

/-- The white space between the parts of a document. -/
def isSpace (c : Char) : Bool := c = ' ' || c = '\n' || c = '\t' || c = '\r'

/-- Passes over white space. -/
def skipSpace (t : Text) : Text := t.dropWhile isSpace

/-- The fault of a text that does not go on as it should. -/
def faultAt (t : Text) : Fault := if t.isEmpty then .ended else .malformed

/-- The rest of a keyword such as `null`, letter by letter. -/
def word (j : Json) : (letters : Text) → Text → Json × Option Text
  | [], t => (j, some t)
  | l :: letters, c :: t => if l = c then word j letters t else (.broken .malformed, none)
  | _ :: _, [] => (.stub, none)

/-! ### Strings -/

/-- Puts a piece before a string that was read. -/
def prepend (piece : Text) (read : Quoted × Option Text) : Quoted × Option Text :=
  (⟨piece ++ read.1.raw, read.1.fault⟩, read.2)

/-- The rest of a string, up to its closing quote. -/
def readQuoted : Text → Quoted × Option Text
  | [] => (⟨[], some .ended⟩, none)
  | '"' :: rest => (⟨[], none⟩, some rest)
  | '\\' :: 'u' :: a :: b :: c :: d :: rest =>
    if (hexCode? a b c d).isSome then prepend ['\\', 'u', a, b, c, d] (readQuoted rest)
    else (⟨[], some .malformed⟩, none)
  | ['\\'] => (⟨[], some .ended⟩, none)
  | '\\' :: 'u' :: rest =>
    (⟨[], some (if Text.size rest < 4 then .ended else .malformed)⟩, none)
  | '\\' :: e :: rest =>
    if (simpleEscape? e).isSome then prepend ['\\', e] (readQuoted rest)
    else (⟨[], some .malformed⟩, none)
  | c :: rest =>
    if c.toNat < 0x20 then (⟨[], some .malformed⟩, none) else prepend [c] (readQuoted rest)

/-- The key that a text starts with, and the text from its colon on. -/
def readKey (t : Text) : Quoted × Option Text :=
  match skipSpace t with
  | '"' :: r => ((readQuoted r).1, (readQuoted r).2.map skipSpace)
  | r => (⟨[], some (faultAt r)⟩, none)

/-! ### Numbers -/

/-- A part of a number that was read: what is written, and the text behind it; or why there is
    none. -/
abbrev Part := Except Fault (Text × Text)

/-- At least one digit. -/
def readDigits (t : Text) : Part :=
  if (t.takeWhile Char.isDigit).isEmpty then .error (faultAt t)
  else .ok (t.takeWhile Char.isDigit, t.dropWhile Char.isDigit)

/-- The whole part: one zero, or digits that start with another one. -/
def readWhole (t : Text) : Part :=
  match t with
  | '0' :: c :: rest => if c.isDigit then .error .malformed else .ok (['0'], c :: rest)
  | _ => readDigits t

/-- The fraction, if there is one. -/
def readFraction : Text → Part
  | '.' :: t => (readDigits t).map fun (digits, rest) => ('.' :: digits, rest)
  | t => .ok ([], t)

/-- The exponent, if there is one. -/
def readExponent : Text → Part
  | e :: t =>
    if e = 'e' || e = 'E' then
      match t with
      | s :: r =>
        if s = '+' || s = '-' then (readDigits r).map fun (digits, rest) => (e :: s :: digits, rest)
        else (readDigits t).map fun (digits, rest) => (e :: digits, rest)
      | [] => .error .ended
    else .ok ([], e :: t)
  | [] => .ok ([], [])

/-- A number behind its sign. -/
def readUnsigned (t : Text) : Part := do
  let (whole, t) ← readWhole t
  let (fraction, t) ← readFraction t
  let (exponent, t) ← readExponent t
  return (whole ++ fraction ++ exponent, t)

/-- Reads a number behind its sign. -/
def readNumber (sign t : Text) : Json × Option Text :=
  match readUnsigned t with
  | .ok (written, rest) => (.number (sign ++ written) true, some rest)
  | .error .ended => (.number (sign ++ t) false, none)
  | .error .malformed => (.broken .malformed, none)

/-! ### Values -/

/-- Why a list or a record does not go on, if nothing stopped it before. -/
def dueFault : Option Text → Option Fault
  | some t => some (faultAt (skipSpace t))
  | none => some .malformed

/-- The keyword, string or number that a text starts with; `none` if a bracket opens. -/
def readAtom : Text → Option (Json × Option Text)
  | [] => some (.broken .ended, none)
  | c :: r =>
    if c = '[' || c = '\x7b' then none
    else if c = 'n' then some (word .null "ull".toList r)
    else if c = 't' then some (word (.bool true) "rue".toList r)
    else if c = 'f' then some (word (.bool false) "alse".toList r)
    else if c = '"' then some (.text (readQuoted r).1, (readQuoted r).2)
    else if c = '-' then some (readNumber ['-'] r)
    else if c.isDigit then some (readNumber [] (c :: r))
    else some (.broken .malformed, none)

mutual

/-- The value that a text starts with. The fuel bounds the steps. -/
def readValue : (fuel : Nat) → Text → Json × Option Text
  | 0, _ => (.broken .malformed, none)
  | fuel + 1, t =>
    match readAtom (skipSpace t) with
    | some read => read
    | none =>
      match skipSpace t with
      | '[' :: r =>
        match skipSpace r with
        | ']' :: rest => (.list [] none, some rest)
        | r => let (items, fault, rest) := readItems fuel r; (.list items fault, rest)
      | _ :: r =>
        match skipSpace r with
        | '\x7d' :: rest => (.record [] none, some rest)
        | r => let (fields, fault, rest) := readFields fuel r; (.record fields fault, rest)
      | [] => (.broken .ended, none)

/-- The items of a list, at least one. -/
def readItems : (fuel : Nat) → Text → List Json × Option Fault × Option Text
  | 0, _ => ([], some .malformed, none)
  | fuel + 1, t =>
    let (item, behind) := readValue fuel t
    match behind.map skipSpace with
    | some (',' :: r) => let (items, fault, rest) := readItems fuel r; (item :: items, fault, rest)
    | some (']' :: rest) => ([item], none, some rest)
    | _ => ([item], dueFault behind, none)

/-- The fields of a record, at least one. A key at fault, or one without its colon, ends the
    record. -/
def readFields : (fuel : Nat) → Text → List (Quoted × Json) × Option Fault × Option Text
  | 0, _ => ([], some .malformed, none)
  | fuel + 1, t =>
    match readKey t with
    | (key, some (':' :: r)) =>
      let (value, behind) := readValue fuel r
      match behind.map skipSpace with
      | some (',' :: r) => let (fields, fault, rest) := readFields fuel r; ((key, value) :: fields, fault, rest)
      | some ('\x7d' :: rest) => ([(key, value)], none, some rest)
      | _ => ([(key, value)], dueFault behind, none)
    | (key, some r) => ([(key, .broken (faultAt r))], some .malformed, none)
    | (key, none) => ([(key, .broken .malformed)], some .malformed, none)

end

/-- A whole document, and the fault of what follows it. -/
structure Document where
  value : Json
  trailing : Option Fault

/-- Reads a document. Nothing but white space may follow the value. -/
def readDocument (t : Text) : Document :=
  let (value, rest) := readValue (2 * t.length + 2) t
  ⟨value, (rest.map skipSpace).bind fun r => if r.isEmpty then none else some .malformed⟩

end Flowchart.Json
