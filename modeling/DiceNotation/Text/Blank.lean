/-
What separates tokens and what ends a line. White space and the comma
separate; some of the separators also end a line, so a line can end with a
line feed, a carriage return, an information separator, a next-line control
or a line or paragraph separator.
-/
import DiceNotation.Text.CodeRange

namespace DiceNotation.Text

/-- White space and the comma, in ascending ranges. -/
def separatorRanges : List (Nat × Nat) :=
  [(0x9, 0xD), (0x20, 0x20), (0x2C, 0x2C), (0x85, 0x85), (0xA0, 0xA0), (0x1680, 0x1680),
    (0x2000, 0x200A), (0x2028, 0x2029), (0x202F, 0x202F), (0x205F, 0x205F), (0x3000, 0x3000)]

/-- The characters that end a line. U+001C to U+001E end one without being separators. -/
def lineBreakRanges : List (Nat × Nat) :=
  [(0xA, 0xA), (0xD, 0xD), (0x1C, 0x1E), (0x85, 0x85), (0x2028, 0x2029)]

/-- A character that stands between tokens and belongs to none. -/
def isSeparator (c : Char) : Bool := inRanges separatorRanges c.toNat

/-- A character after which a new line starts. -/
def isLineBreak (c : Char) : Bool := inRanges lineBreakRanges c.toNat

end DiceNotation.Text
