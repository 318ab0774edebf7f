/-
A source is the text of one input, given as text or as bytes that need not
be well-formed. It is seen in two ways: the reader of formulas goes through
its items, where every byte of a malformed sequence counts for itself, and an
echo shows its text, where each malformed sequence is one replacement
character.
-/
import DiceNotation.Text.Utf8

namespace DiceNotation

open Text (Piece)

/-- The text of one input. -/
structure Source where
  pieces : List Piece
  deriving DecidableEq, Repr

/-- What stands at one place of a source: a character, or a byte that belongs to none. -/
inductive Item
  | char (c : Char)
  | byte (b : UInt8)
  deriving DecidableEq, Repr

/-- The character, if the item is one. -/
def Item.char? : Item → Option Char
  | .char c => some c
  | .byte _ => none

/-- The item is a character with the property `p`. -/
def Item.satisfies (p : Char → Bool) : Item → Bool
  | .char c => p c
  | .byte _ => false

/-- The items that a piece stands for. -/
def Text.Piece.items : Piece → List Item
  | .char c => [.char c]
  | .malformed bytes => bytes.map .byte

/-- The character that shows a piece. -/
def Text.Piece.shown : Piece → Char
  | .char c => c
  | .malformed _ => '\ufffd'

namespace Source

/-- A source that is well-formed text. -/
def ofText (text : String) : Source := ⟨text.toList.map .char⟩

/-- A source that is whatever the bytes spell. -/
def ofBytes (bytes : List UInt8) : Source := ⟨Text.Utf8.decode bytes⟩

/-- The items of the source, in order. -/
def items (s : Source) : List Item := s.pieces.flatMap Piece.items

/-- The text of the source, a replacement character for each malformed sequence. -/
def text (s : Source) : String := String.ofList (s.pieces.map Piece.shown)

@[simp] theorem text_ofText (text : String) : (ofText text).text = text := by
  simp [Source.text, ofText, Function.comp_def, Piece.shown]

end Source

end DiceNotation
