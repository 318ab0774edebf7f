/- Why a well-formed term has no value. -/
import DiceNotation.Text.Decimal

namespace DiceNotation

inductive DomainError
  | divisionByZero
  | invalidFaces (faces : Int64)
  | negativeCount (count : Int64)
  | negativeExponent (exponent : Int64)
  | overflow
  | tooManyRolls
  deriving DecidableEq, Repr

def DomainError.message : DomainError → String
  | .divisionByZero => "cannot divide by zero"
  | .invalidFaces faces =>
    "dice must have at least one face, not " ++ Text.Decimal.ofInt64 faces
  | .negativeCount count =>
    "cannot roll a negative number of dice (" ++ Text.Decimal.ofInt64 count ++ ")"
  | .negativeExponent exponent =>
    "cannot raise to a negative power (" ++ Text.Decimal.ofInt64 exponent ++ ")"
  | .overflow => "result is too large"
  | .tooManyRolls => "too many dice rolled"

end DiceNotation
