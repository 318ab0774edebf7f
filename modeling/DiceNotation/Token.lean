/-
Tokens: the smallest parts of a formula, each with its kind, its text and the
position of its first character. The end of the input and each malformed byte
are tokens too, with an empty text.
-/
import DiceNotation.Operator
import DiceNotation.Source.Position
import DiceNotation.Text.Decimal
import DiceNotation.Text.Quoted

namespace DiceNotation

/-- Kinds of tokens. `dice` is a `d` with the digits that may follow it at once. -/
inductive Kind
  | unrecognized
  | malformed
  | endOfInput
  | equal
  | leftParen
  | rightParen
  | caret
  | star
  | slash
  | plus
  | minus
  | dice
  | integer
  | word
  deriving DecidableEq, Repr

namespace Kind

/-- The kind as records name it. -/
def name : Kind → String
  | .unrecognized => "<unrecognized>"
  | .malformed => "<decode error>"
  | .endOfInput => "<eof>"
  | .equal => "'='"
  | .leftParen => "'('"
  | .rightParen => "')'"
  | .caret => "'^'"
  | .star => "'*'"
  | .slash => "'/'"
  | .plus => "'+'"
  | .minus => "'-'"
  | .dice => "<dice>"
  | .integer => "<integer>"
  | .word => "<word>"

/-- The operator that a token of this kind stands for between two terms. -/
def operator? : Kind → Option Operator
  | .plus => some .add
  | .minus => some .sub
  | .star => some .mul
  | .slash => some .div
  | .caret => some .pow
  | _ => none

end Kind

structure Token where
  position : Position
  kind : Kind
  text : String
  deriving DecidableEq, Repr

namespace Token

/-- The number that the digits of the text spell, held at the largest 64-bit integer. -/
def int (t : Token) : Int64 := Text.Decimal.saturating t.text.toUTF8.data.toList

/-- The text holds a digit, as that of a dice token does when the faces are written with the `d`. -/
def hasDigits (t : Token) : Bool := t.text.toList.any Char.isDigit

/-- The token as messages show it. -/
def shown (t : Token) : String :=
  match t.kind with
  | .endOfInput => "end of input"
  | .malformed => "invalid text sequence"
  | _ => Text.quoted t.text

end Token

end DiceNotation
