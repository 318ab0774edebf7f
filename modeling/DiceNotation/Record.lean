/-
The record of a response: what happened while an input was read and rolled,
in order. There is an entry for each token as the reader comes to it, for
each equation at the token that completes it, for an input that is rejected,
and for each roll that was made.
-/
import DiceNotation.Response

namespace DiceNotation

variable {σ : Type}

/-- How closely one has to look for an entry to matter. -/
inductive Detail
  | trace
  | debug
  deriving DecidableEq, Repr

structure Entry where
  detail : Detail
  message : String
  deriving DecidableEq, Repr

namespace Entry

def token (t : Token) : Entry :=
  ⟨.trace, Text.Decimal.ofNat t.position.line ++ ":" ++ Text.Decimal.ofNat t.position.column ++
    " " ++ t.kind.name ++ " " ++ Text.quoted t.text⟩

def equation (e : Equation) : Entry :=
  ⟨.debug, "parsed equation " ++ Text.quoted e.name ++ ": " ++ e.term.text⟩

def rejection (s : Source) (e : SyntaxError) : Entry :=
  ⟨.debug, "rejected " ++ Text.quoted s.text ++ ": " ++ e.message⟩

def roll (r : Roll) : Entry :=
  ⟨.debug, "rolled " ++ Text.Decimal.ofInt64 r.count ++ "d" ++ Text.Decimal.ofInt64 r.faces ++
    ": " ++ Text.Decimal.ofInt64 r.total⟩

end Entry

/-- The entries of a reading that goes on from a stage through the given tokens. It ends at the
token that is in error. -/
def Stage.entries (limits : Limits) : Stage → List Token → List Entry
  | _, [] => []
  | stage, t :: ts =>
    .token t :: (stage.completed t).toList.map .equation ++
      match stage.next limits t with
      | .error _ => []
      | .ok stage => entries limits stage ts

/-- The record of a response to `s` with dice from `cup`. -/
def record (r : Roller σ) (s : Source) (cup : Cup σ) : List Entry :=
  let (response, cup) := respond r s { cup with journal := [] }
  Stage.entries .standard .equation s.tokens ++
    match response.results with
    | .error e => [.rejection s e]
    | .ok _ => cup.journal.reverse.map .roll

end DiceNotation
