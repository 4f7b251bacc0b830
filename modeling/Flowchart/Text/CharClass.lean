import Flowchart.Text.Categories
import Flowchart.Text.Letters

/-!
The character classes of flowchart text. Node ids are made of id characters: alphabetic characters, numbers of every
kind, and the underscore. The repairs look for word characters, which take in marks, connectors and the two joiners
but no numbers other than decimal digits, and nothing that version 17 of the character database added. White space
is the property White_Space; blanks are the space and the tab.
-/
namespace Flowchart

/-- The space and the tab. -/
def isBlank (c : Char) : Bool := c = ' ' || c = '\t'

/-- The characters with the property White_Space. -/
def isWhite (c : Char) : Bool :=
  c = ' ' || (9 ≤ c.toNat && c.toNat ≤ 13) || c.toNat = 0x85 || c.toNat = 0xA0 || c.toNat = 0x1680 ||
    (0x2000 ≤ c.toNat && c.toNat ≤ 0x200A) || c.toNat = 0x2028 || c.toNat = 0x2029 || c.toNat = 0x202F ||
    c.toNat = 0x205F || c.toNat = 0x3000

/-- A character below U+0080. -/
def isBasic (c : Char) : Bool := c.toNat < 0x80

/-- Alphabetic characters. -/
def isAlphabetic (c : Char) : Bool :=
  if isBasic c then c.isAlpha else alphabetic.has c

/-- Decimal digits of every script. -/
def isDecimalDigit (c : Char) : Bool :=
  if isBasic c then c.isDigit else decimalDigits.has c

/-- The characters of a node id. -/
def isIdChar (c : Char) : Bool :=
  c = '_' || isAlphabetic c || isDecimalDigit c || otherNumbers.has c

/-- The characters that hold a word together, for the repairs. They are those of version 16 of the
    character database. -/
def isWordChar (c : Char) : Bool :=
  (isAlphabetic c || isDecimalDigit c || marks.has c || c = '_' || connectors.has c ||
    c.toNat = 0x200C || c.toNat = 0x200D) && !newInVersion17.has c

/-- The capital letters A to Z. -/
def isCapital (c : Char) : Bool := 'A'.toNat ≤ c.toNat && c.toNat ≤ 'Z'.toNat

/-- A white character never belongs to an id. -/
theorem isIdChar_of_isBlank {c : Char} (h : isBlank c) : isIdChar c = false := by
  simp only [isBlank, Bool.or_eq_true, decide_eq_true_eq] at h
  rcases h with rfl | rfl <;> decide +kernel

/-- Blanks are white. -/
theorem isWhite_of_isBlank {c : Char} (h : isBlank c) : isWhite c := by
  simp only [isBlank, Bool.or_eq_true, decide_eq_true_eq] at h
  rcases h with rfl | rfl <;> decide

end Flowchart
