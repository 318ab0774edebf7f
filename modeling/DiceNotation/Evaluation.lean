/-
The value of a term. The left operand is evaluated first and the right one
next, so dice fall in the order in which they are written, and the first node
that fails ends the evaluation.
-/
import DiceNotation.Cup
import DiceNotation.Term

namespace DiceNotation

variable {σ : Type}

/-- The value of a term with dice from `cup`, and the cup after it. -/
def Term.eval (r : Roller σ) : Term → Cup σ → Except DomainError Int64 × Cup σ
  | .int value, cup => (.ok value, cup)
  | .dice count faces, cup => cup.roll r count faces
  | .binary left op right, cup =>
    match left.eval r cup with
    | (.error e, cup) => (.error e, cup)
    | (.ok x, cup) =>
      match right.eval r cup with
      | (.error e, cup) => (.error e, cup)
      | (.ok y, cup) => (op.apply x y, cup)

/-- The value of a term on its own, with no limit on the dice, and the dice after it. -/
def Term.solve (r : Roller σ) (term : Term) (dice : σ) : Except DomainError Int64 × σ :=
  let (outcome, cup) := term.eval r (.fresh none dice)
  (outcome, cup.dice)

end DiceNotation
