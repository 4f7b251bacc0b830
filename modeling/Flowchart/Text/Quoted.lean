import Flowchart.Text.Basic
import Flowchart.Text.Unprintable

/-!
Text in double quotes, for messages. What has no glyph of its own is shown by its code point.
-/
namespace Flowchart.Text

/-- Characters that are shown by their code point. -/
def isUnprintable (c : Char) : Bool :=
  if isBasic c then c.toNat < 0x20 || c.toNat = 0x7F else unprintable.has c

/-- The code point of a character, in hexadecimal digits between braces. -/
def codePoint (c : Char) : Text := '\\' :: 'u' :: '\x7b' :: Nat.toDigits 16 c.toNat ++ ['\x7d']

/-- A character as it stands in a quoted text. -/
def quotedChar (c : Char) : Text :=
  match c with
  | '\x00' => ['\\', '0']
  | '\t' => ['\\', 't']
  | '\r' => ['\\', 'r']
  | '\n' => ['\\', 'n']
  | '"' => ['\\', '"']
  | '\\' => ['\\', '\\']
  | c => if isUnprintable c then codePoint c else [c]

/-- The text in double quotes. -/
def quoted (t : Text) : Text := '"' :: t.flatMap quotedChar ++ ['"']

end Flowchart.Text
