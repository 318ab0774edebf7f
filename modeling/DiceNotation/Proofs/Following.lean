/-
Rollers that follow others. A roller that keeps books of its own, a count of its
dice or a record of them, still gives the dice of the roller that it keeps them
for (`Roller.Follows`). So every roll and every evaluation comes to the same with
the one as with the other, and the books change nothing (`Term.eval_mapDice`).
-/
import DiceNotation.Proofs.Rolling

namespace DiceNotation

variable {σ τ : Type}

/-- The dice of `r'` are those of `r`, where the states of `r'` are seen through `f`. -/
def Roller.Follows (r' : Roller τ) (f : τ → σ) (r : Roller σ) : Prop :=
  ∀ faces s, r.die faces (f s) = ((r'.die faces s).1, f (r'.die faces s).2)

/-- The cup with its dice seen through `f`. -/
def Cup.mapDice (f : τ → σ) (cup : Cup τ) : Cup σ := { cup with dice := f cup.dice }

variable {r' : Roller τ} {f : τ → σ} {r : Roller σ}

theorem Roller.Follows.sumFrom (h : r'.Follows f r) (faces : UInt64) (total : Int64) (count : Nat)
    (s : τ) : r.sumFrom faces total count (f s) =
      ((r'.sumFrom faces total count s).1, f (r'.sumFrom faces total count s).2) := by
  induction count generalizing total s with
  | zero => rfl
  | succ count ih =>
    rw [sumFrom_succ, sumFrom_succ, h faces s]
    dsimp only
    split
    next => rfl
    next total' _ => exact ih total' _

theorem Roller.Follows.sum (h : r'.Follows f r) {faces : UInt64} {count : Nat} {s s' : τ}
    {total : Option Int64} (hs : r'.sum faces count s = (total, s')) :
    r.sum faces count (f s) = (total, f s') := by
  have := h.sumFrom faces 0 count s
  rwa [← Roller.sum, ← Roller.sum, hs] at this

theorem Cup.Rolled.mapDice (hf : r'.Follows f r) {count faces : Int64} {cup cup' : Cup τ}
    {outcome : Except DomainError Int64} (h : Rolled r' count faces cup outcome cup') :
    Rolled r count faces (cup.mapDice f) outcome (cup'.mapDice f) := by
  cases h with
  | invalidFaces hfaces => exact .invalidFaces hfaces
  | negativeCount hfaces hcount => exact .negativeCount hfaces hcount
  | refused hd ho => exact .refused hd ho
  | overflow hd ho hs => exact .overflow hd ho (hf.sum hs)
  | total hd ho hs => exact .total hd ho (hf.sum hs)

theorem Cup.roll_mapDice (hf : r'.Follows f r) (count faces : Int64) (cup : Cup τ) :
    (cup.mapDice f).roll r count faces =
      ((cup.roll r' count faces).1, (cup.roll r' count faces).2.mapDice f) :=
  ((cup.rolled r' count faces).mapDice hf).eq

theorem Term.Evaluates.mapDice (hf : r'.Follows f r) {term : Term} {cup cup' : Cup τ}
    {outcome : Except DomainError Int64} (h : Evaluates r' term cup outcome cup') :
    Evaluates r term (cup.mapDice f) outcome (cup'.mapDice f) := by
  induction h with
  | int => exact .int
  | dice h => exact .dice (h.mapDice hf)
  | left _ ih => exact .left ih
  | right _ _ ihl ihr => exact .right ihl ihr
  | node _ _ ihl ihr => exact .node ihl ihr

/-- **A roller that follows another** evaluates as it does. -/
theorem Term.eval_mapDice (hf : r'.Follows f r) (term : Term) (cup : Cup τ) :
    term.eval r (cup.mapDice f) = ((term.eval r' cup).1, (term.eval r' cup).2.mapDice f) :=
  ((term.evaluates r' cup).mapDice hf).eq

end DiceNotation
