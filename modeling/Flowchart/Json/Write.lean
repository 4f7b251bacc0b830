import Flowchart.Json.Basic

/-!
Writing JSON. The compact form has no white space; the indented form puts each item on a line of
its own, two spaces further in than its list or record, and keeps empty ones on one line.
-/
namespace Flowchart.Json

/-- Where lines break and what stands behind a key. -/
structure Style where
  /-- The break before an item at a depth. -/
  newline : Nat → Text
  colon : Text

/-- No white space. -/
def Style.compact : Style := ⟨fun _ => [], [':']⟩

/-- Every item on a line of its own. -/
def Style.indented : Style := ⟨fun depth => '\n' :: List.replicate (2 * depth) ' ', [':', ' ']⟩

/-- A string between its quotes. -/
def Quoted.between (q : Quoted) : Text := '"' :: q.raw ++ ['"']

mutual

/-- Writes a value at a depth. -/
def write (style : Style) (depth : Nat) : Json → Text
  | .null => "null".toList
  | .bool true => "true".toList
  | .bool false => "false".toList
  | .number written _ => written
  | .text q => q.between
  | .list [] _ => ['[', ']']
  | .list (item :: items) _ =>
    '[' :: style.newline (depth + 1) ++ write style (depth + 1) item ++ writeItems style (depth + 1) items ++
      style.newline depth ++ [']']
  | .record [] _ => ['\x7b', '\x7d']
  | .record ((key, value) :: fields) _ =>
    '\x7b' :: style.newline (depth + 1) ++ key.between ++ style.colon ++
      write style (depth + 1) value ++ writeFields style (depth + 1) fields ++ style.newline depth ++ ['\x7d']
  | .stub => []
  | .broken _ => []

/-- The items after the first, each behind a comma. -/
def writeItems (style : Style) (depth : Nat) : List Json → Text
  | [] => []
  | item :: items => ',' :: style.newline depth ++ write style depth item ++ writeItems style depth items

/-- The fields after the first, each behind a comma. -/
def writeFields (style : Style) (depth : Nat) : List (Quoted × Json) → Text
  | [] => []
  | (key, value) :: fields =>
    ',' :: style.newline depth ++ key.between ++ style.colon ++ write style depth value ++
      writeFields style depth fields

end

/-- The compact form. -/
def compact (j : Json) : Text := j.write .compact 0

/-- The indented form. -/
def indented (j : Json) : Text := j.write .indented 0

end Flowchart.Json
