/-
Syntax errors: the place where a text stops being a formula, what could have
stood there and what was found.
-/
import DiceNotation.Token

namespace DiceNotation

/-- What could have stood at a place of a formula. A limit is an expectation too: that there be no
more of what it limits. -/
inductive Expectation
  | integer
  | diceTerm
  | leftParen
  | rightParen
  | equal
  | nestingAtMost (levels : Nat)
  | operatorsAtMost (count : Nat)
  | other (description : String)
  deriving DecidableEq, Repr

def Expectation.text : Expectation → String
  | .integer => "integer"
  | .diceTerm => "dice term"
  | .leftParen => "\"(\""
  | .rightParen => "\")\""
  | .equal => "\"=\""
  | .nestingAtMost levels => "at most " ++ Text.Decimal.ofNat levels ++ " levels of nesting"
  | .operatorsAtMost count => "at most " ++ Text.Decimal.ofNat count ++ " operators"
  | .other description => description

/-- A syntax error names one expectation at least. -/
structure SyntaxError where
  position : Position
  expected : List Expectation
  received : Token
  expected_ne_nil : expected ≠ []
  deriving DecidableEq, Repr

namespace SyntaxError

/-- The error that `received` is none of the tokens expected in its place. -/
def unexpected (received : Token) (first : Expectation) (others : List Expectation) : SyntaxError :=
  ⟨received.position, first :: others, received, List.cons_ne_nil _ _⟩

def message (e : SyntaxError) : String :=
  "line " ++ Text.Decimal.ofNat e.position.line ++ " column " ++
    Text.Decimal.ofNat e.position.column ++ ": expected " ++
    " or ".intercalate (e.expected.map Expectation.text) ++ ", got " ++ e.received.shown

end SyntaxError

end DiceNotation
