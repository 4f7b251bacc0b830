import Flowchart.Decimal.Shortest

/-!
JSON documents by their written form: numbers and strings are kept as they are written, and
records keep their fields in order. A document that was cut short or is malformed is kept as far
as it could be read, with the fault in its place, so that whoever takes the values in order
meets whatever comes first: a value of the wrong kind, or the fault.
-/
namespace Flowchart

namespace Json

/-- Why reading stopped. -/
inductive Fault where
  /-- The text does not follow the grammar. -/
  | malformed
  /-- The text ends too early. -/
  | ended
  deriving DecidableEq, Repr

/-- A string as it is written between its quotes, up to a fault if it has one. -/
structure Quoted where
  raw : Text
  fault : Option Fault
  deriving DecidableEq, Repr

end Json

/-- A JSON value as it is written. The fault of a list or a record is what stands where a comma
    or the closing bracket is due. A key that is due and is no string is an empty one at fault. -/
inductive Json where
  | null
  | bool (b : Bool)
  /-- A number; an incomplete one ends where a digit is due. -/
  | number (written : Text) (complete : Bool)
  | text (q : Json.Quoted)
  | list (items : List Json) (fault : Option Json.Fault)
  | record (fields : List (Json.Quoted × Json)) (fault : Option Json.Fault)
  /-- A keyword that the end of the text cuts short. -/
  | stub
  | broken (fault : Json.Fault)

namespace Json

/-! ### Strings -/

/-- A hexadecimal digit in lower case. -/
def hexDigit (n : Nat) : Char := Nat.digitChar n

/-- The value of a hexadecimal digit. -/
def hexValue? (c : Char) : Option Nat :=
  if c.isDigit then some (c.toNat - '0'.toNat)
  else if 'a' ≤ c && c ≤ 'f' then some (c.toNat - 'a'.toNat + 10)
  else if 'A' ≤ c && c ≤ 'F' then some (c.toNat - 'A'.toNat + 10)
  else none

/-- The written form of a character in a string: quotes, backslashes and controls are escaped. -/
def escapeChar (c : Char) : Text :=
  match c with
  | '"' => ['\\', '"']
  | '\\' => ['\\', '\\']
  | '\x08' => ['\\', 'b']
  | '\x0c' => ['\\', 'f']
  | '\n' => ['\\', 'n']
  | '\r' => ['\\', 'r']
  | '\t' => ['\\', 't']
  | c =>
    if c.toNat < 0x20 then ['\\', 'u', '0', '0', hexDigit (c.toNat / 16), hexDigit (c.toNat % 16)]
    else [c]

/-- The written form of a string, without its quotes. -/
def escape (t : Text) : Text := t.flatMap escapeChar

/-- The value of four hexadecimal digits. -/
def hexCode? (a b c d : Char) : Option Nat := do
  return (((← hexValue? a) * 16 + (← hexValue? b)) * 16 + (← hexValue? c)) * 16 + (← hexValue? d)

/-- The character of a simple escape. -/
def simpleEscape? (c : Char) : Option Char :=
  match c with
  | '"' => some '"'
  | '\\' => some '\\'
  | '/' => some '/'
  | 'b' => some '\x08'
  | 'f' => some '\x0c'
  | 'n' => some '\n'
  | 'r' => some '\r'
  | 't' => some '\t'
  | _ => none

/-- How a written string is resolved. -/
inductive Unescaped where
  | value (t : Text)
  /-- A surrogate without its partner. -/
  | lone
  /-- The text ends between a leading surrogate and its partner. -/
  | open
  deriving DecidableEq, Repr

/-- Puts a character before what is resolved behind it. -/
def Unescaped.push (c : Char) : Unescaped → Unescaped
  | .value t => .value (c :: t)
  | other => other

/-- Resolves the escapes of a string. Surrogate escapes count only in pairs. -/
def unescape : Text → Unescaped
  | [] => .value []
  | '\\' :: 'u' :: a :: b :: c :: d :: rest =>
    let code := (hexCode? a b c d).getD 0
    if code < 0xD800 || 0xE000 ≤ code then (unescape rest).push (Char.ofNat code)
    else if 0xDC00 ≤ code then .lone
    else
      match rest with
      | [] => .open
      | '\\' :: 'u' :: a' :: b' :: c' :: d' :: rest' =>
        let low := (hexCode? a' b' c' d').getD 0
        if 0xDC00 ≤ low && low < 0xE000 then
          (unescape rest').push (Char.ofNat (0x10000 + (code - 0xD800) * 0x400 + (low - 0xDC00)))
        else .lone
      | _ => .lone
  | '\\' :: e :: rest => (unescape rest).push ((simpleEscape? e).getD e)
  | c :: rest => (unescape rest).push c

/-- The written form of a text. -/
def Quoted.ofText (t : Text) : Quoted := ⟨escape t, none⟩

/-- The string of a text. -/
def ofText (t : Text) : Json := .text (.ofText t)

/-! ### Numbers -/

/-- A whole number. -/
def ofNat (n : Nat) : Json := .number (Text.ofNat n) true

/-- A float; what is not a number or not finite becomes null. -/
def ofFloat (x : Float) : Json := if x.isFinite then .number (Decimal.ofFloat x) true else .null

/-- A list of values. -/
def ofList (items : List Json) : Json := .list items none

/-- A record of named values. -/
def ofFields (fields : List (Text × Json)) : Json :=
  .record (fields.map fun (name, value) => (Quoted.ofText name, value)) none

end Json
end Flowchart
