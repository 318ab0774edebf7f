/-
The answer to an input. A response echoes the input and gives the result of
every equation, a domain error in the place of a value; a syntax error stands
for all results. An evaluation gives the values alone and ends at the first
error of either kind.
-/
import DiceNotation.Evaluation
import DiceNotation.Formula.Reader

namespace DiceNotation

variable {σ : Type}

/-- What comes of an equation: its value, or why it has none. -/
abbrev Outcome := Except DomainError Int64

structure Response where
  echo : String
  results : Except SyntaxError (List (String × Outcome))

/-- The labelled outcomes of equations, the first of them at place `index`, and the cup after
them. -/
def outcomesFrom (r : Roller σ) : (index : Nat) → List Equation → Cup σ →
    List (String × Outcome) × Cup σ
  | _, [], cup => ([], cup)
  | index, equation :: equations, cup =>
    let (outcome, cup) := equation.term.eval r cup
    let (outcomes, cup) := outcomesFrom r (index + 1) equations cup
    ((label equation.name index, outcome) :: outcomes, cup)

/-- The response to a source with dice from `cup`, and the cup after it. -/
def respond (r : Roller σ) (s : Source) (cup : Cup σ) : Response × Cup σ :=
  match Formula.parse s with
  | .error e => (⟨s.text, .error e⟩, cup)
  | .ok formula =>
    let (outcomes, cup) := outcomesFrom r 0 formula.equations cup
    (⟨s.text, .ok outcomes⟩, cup)

/-- Why an evaluation gave no values. -/
inductive Failure
  | syntaxError (error : SyntaxError)
  | domainError (label : String) (error : DomainError)
  deriving DecidableEq, Repr

def Failure.message : Failure → String
  | .syntaxError error => "syntax error: " ++ error.message
  | .domainError label error => label ++ ": " ++ error.message

/-- The labelled values of equations, the first of them at place `index`, up to the first error, and
the cup as it is then. -/
def valuesFrom (r : Roller σ) : (index : Nat) → List Equation → Cup σ →
    Except Failure (List (String × Int64)) × Cup σ
  | _, [], cup => (.ok [], cup)
  | index, equation :: equations, cup =>
    match equation.term.eval r cup with
    | (.error e, cup) => (.error (.domainError (label equation.name index) e), cup)
    | (.ok value, cup) =>
      match valuesFrom r (index + 1) equations cup with
      | (.error e, cup) => (.error e, cup)
      | (.ok values, cup) => (.ok ((label equation.name index, value) :: values), cup)

/-- The values of a source with dice from `cup`, and the cup after it. -/
def evaluate (r : Roller σ) (s : Source) (cup : Cup σ) :
    Except Failure (List (String × Int64)) × Cup σ :=
  match Formula.parse s with
  | .error e => (.error (.syntaxError e), cup)
  | .ok formula => valuesFrom r 0 formula.equations cup

end DiceNotation
