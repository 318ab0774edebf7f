/-
Formulas: the equations of one input in order, each a term that may have a
name. The label of an equation is what its result is shown under: its name,
or its place in the formula as an ordinal.
-/
import DiceNotation.Term

namespace DiceNotation

/-- A term with its name, which is empty if the equation has none. -/
structure Equation where
  name : String
  term : Term
  deriving DecidableEq, Repr

structure Formula where
  equations : List Equation
  deriving DecidableEq, Repr

/-- The written form: the name and an equals sign, if there is a name, and the term. -/
def Equation.text (e : Equation) : String :=
  if e.name.isEmpty then e.term.text else e.name ++ " = " ++ e.term.text

/-- The written form: the equations with commas between them. -/
def Formula.text (f : Formula) : String := ", ".intercalate (f.equations.map Equation.text)

/-- The ending of the ordinal of `n`: the teens of every hundred take `th`. -/
def ordinalEnding (n : Nat) : String :=
  if 11 ≤ n % 100 ∧ n % 100 ≤ 13 then "th"
  else match n % 10 with
    | 1 => "st"
    | 2 => "nd"
    | 3 => "rd"
    | _ => "th"

/-- The number as an ordinal, such as `1st` or `12th`. -/
def ordinal (n : Nat) : String := Text.Decimal.ofNat n ++ ordinalEnding n

/-- The label of an equation with the given name at place `index`, which counts from 0. -/
def label (name : String) (index : Nat) : String :=
  if name.isEmpty then ordinal (index + 1) else name

end DiceNotation
