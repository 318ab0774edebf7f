/-
Text as literal Markdown. Characters that cannot be seen are left out, and
every ASCII punctuation character gets a backslash. No other character gets
one, since a backslash before it would itself be shown.
-/
import DiceNotation.Text.CodeRange

namespace DiceNotation.Text

/-- Controls, format characters, line and paragraph separators and private use, in ascending ranges.
Code points without a character are not among them. -/
def invisibleRanges : List (Nat × Nat) :=
  [(0x0, 0x1F), (0x7F, 0x9F), (0xAD, 0xAD), (0x600, 0x605), (0x61C, 0x61C), (0x6DD, 0x6DD),
    (0x70F, 0x70F), (0x890, 0x891), (0x8E2, 0x8E2), (0x180E, 0x180E), (0x200B, 0x200F),
    (0x2028, 0x202E), (0x2060, 0x206F), (0xE000, 0xF8FF), (0xFEFF, 0xFEFF), (0xFFF9, 0xFFFB),
    (0x110BD, 0x110BD), (0x110CD, 0x110CD), (0x13430, 0x1343F), (0x1BCA0, 0x1BCA3),
    (0x1D173, 0x1D17A), (0xE0001, 0xE007F), (0xF0000, 0x10FFFF)]

/-- The ASCII characters that are neither controls, blank, digits nor letters. -/
def punctuationRanges : List (Nat × Nat) :=
  [(0x21, 0x2F), (0x3A, 0x40), (0x5B, 0x60), (0x7B, 0x7E)]

/-- A character that leaves a mark or a blank where it stands. -/
def isGraphic (c : Char) : Bool := !inRanges invisibleRanges c.toNat

def isPunctuation (c : Char) : Bool := inRanges punctuationRanges c.toNat

namespace Markdown

/-- The Markdown that shows a character. -/
def escapedChar (c : Char) : List Char :=
  if !isGraphic c then [] else if isPunctuation c then ['\\', c] else [c]

/-- The Markdown that shows a text. -/
def escape (s : String) : String := String.ofList (s.toList.flatMap escapedChar)

/-- The Markdown that shows what `s` shows, in bold. -/
def bold (s : String) : String := "**" ++ s ++ "**"

end Markdown

end DiceNotation.Text
