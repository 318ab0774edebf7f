/-
Terms: numbers, dice and the operators between them, and their written form.
Every operator stands in parentheses of its own with its two operands, and a
negative number in parentheses too, so that the written form shows the tree.
-/
import DiceNotation.Operator
import DiceNotation.Text.Decimal

namespace DiceNotation

inductive Term
  | int (value : Int64)
  | dice (count faces : Int64)
  | binary (left : Term) (op : Operator) (right : Term)
  deriving DecidableEq, Repr

namespace Term

/-- The term rolls dice when it is evaluated. -/
def hasDice : Term → Bool
  | .int _ => false
  | .dice _ _ => true
  | .binary left _ right => left.hasDice || right.hasDice

/-- The written form. -/
def text : Term → String
  | .int value =>
    if value < 0 then "(" ++ Text.Decimal.ofInt64 value ++ ")" else Text.Decimal.ofInt64 value
  | .dice count faces => Text.Decimal.ofInt64 count ++ "d" ++ Text.Decimal.ofInt64 faces
  | .binary left op right => "(" ++ left.text ++ " " ++ op.symbol ++ " " ++ right.text ++ ")"

end Term

end DiceNotation
