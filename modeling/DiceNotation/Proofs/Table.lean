/-
A table: one cup, and all that can be done with it. Moves are made one after the
other, each on the cup that the move before it has left (`play`). A roller that
counts its dice plays as the roller does that it counts for (`play_counted`), so
what it counts are the dice of the game as it is played without it.
-/
import DiceNotation.Proofs.Following
import DiceNotation.Response

namespace DiceNotation

variable {σ : Type}

/-- What can be done with a cup. -/
inductive Move
  | eval (term : Term)
  | roll (count faces : Int64)
  | respond (s : Source)
  | evaluate (s : Source)
  | clear

/-- What comes of a move. -/
inductive Answer
  | outcome (outcome : Outcome)
  | response (response : Response)
  | values (values : Except Failure (List (String × Int64)))
  | cleared

/-- The answer to a move and the cup after it. -/
def Move.perform (r : Roller σ) (cup : Cup σ) : Move → Answer × Cup σ
  | .eval term => (.outcome (term.eval r cup).1, (term.eval r cup).2)
  | .roll count faces => (.outcome (cup.roll r count faces).1, (cup.roll r count faces).2)
  | .respond s => (.response (DiceNotation.respond r s cup).1, (DiceNotation.respond r s cup).2)
  | .evaluate s => (.values (DiceNotation.evaluate r s cup).1, (DiceNotation.evaluate r s cup).2)
  | .clear => (.cleared, cup.clear)

/-- The answers to moves and the cup after them. -/
def play (r : Roller σ) : List Move → Cup σ → List Answer × Cup σ
  | [], cup => ([], cup)
  | move :: moves, cup =>
    let (answer, cup) := move.perform r cup
    let (answers, cup) := play r moves cup
    (answer :: answers, cup)

/-! ## Dice that are counted -/

/-- The cup without the count of its dice. -/
def Cup.uncounted (cup : Cup (σ × Nat)) : Cup σ := { cup with dice := cup.dice.1 }

theorem Roller.counted_follows (r : Roller σ) : r.counted.Follows Prod.fst r := fun _ _ => rfl

theorem Cup.roll_counted (r : Roller σ) (count faces : Int64) (cup : Cup (σ × Nat)) :
    cup.uncounted.roll r count faces =
      ((cup.roll r.counted count faces).1, (cup.roll r.counted count faces).2.uncounted) :=
  roll_mapDice r.counted_follows count faces cup

theorem Term.eval_counted (r : Roller σ) (term : Term) (cup : Cup (σ × Nat)) :
    term.eval r cup.uncounted =
      ((term.eval r.counted cup).1, (term.eval r.counted cup).2.uncounted) :=
  eval_mapDice r.counted_follows term cup

theorem outcomesFrom_counted (r : Roller σ) (index : Nat) (equations : List Equation)
    (cup : Cup (σ × Nat)) : outcomesFrom r index equations cup.uncounted =
      ((outcomesFrom r.counted index equations cup).1,
        (outcomesFrom r.counted index equations cup).2.uncounted) := by
  induction equations generalizing index cup with
  | nil => rfl
  | cons equation equations ih =>
    unfold outcomesFrom
    rw [Term.eval_counted]
    dsimp only
    rw [ih]

theorem valuesFrom_counted (r : Roller σ) (index : Nat) (equations : List Equation)
    (cup : Cup (σ × Nat)) : valuesFrom r index equations cup.uncounted =
      ((valuesFrom r.counted index equations cup).1,
        (valuesFrom r.counted index equations cup).2.uncounted) := by
  induction equations generalizing index cup with
  | nil => rfl
  | cons equation equations ih =>
    unfold valuesFrom
    rw [Term.eval_counted]
    rcases equation.term.eval r.counted cup with ⟨e | x, cup'⟩
    · rfl
    · dsimp only
      rw [ih]
      rcases valuesFrom r.counted (index + 1) equations cup' with ⟨e | values, cup''⟩
      · rfl
      · rfl

theorem Move.perform_counted (r : Roller σ) (move : Move) (cup : Cup (σ × Nat)) :
    move.perform r cup.uncounted =
      ((move.perform r.counted cup).1, (move.perform r.counted cup).2.uncounted) := by
  cases move with
  | eval term => rw [perform, perform, Term.eval_counted]
  | roll count faces => rw [perform, perform, Cup.roll_counted]
  | respond s =>
    rw [perform, perform, DiceNotation.respond, DiceNotation.respond]
    split
    next => rfl
    next => rw [outcomesFrom_counted]
  | evaluate s =>
    rw [perform, perform, DiceNotation.evaluate, DiceNotation.evaluate]
    split
    next => rfl
    next => rw [valuesFrom_counted]
  | clear => rfl

/-- **Counting the dice changes nothing**: the answers are the same, and so is the cup. -/
theorem play_counted (r : Roller σ) (moves : List Move) (cup : Cup (σ × Nat)) :
    play r moves cup.uncounted =
      ((play r.counted moves cup).1, (play r.counted moves cup).2.uncounted) := by
  induction moves generalizing cup with
  | nil => rfl
  | cons move moves ih =>
    unfold play
    rw [Move.perform_counted]
    dsimp only
    rw [ih]

end DiceNotation
