/-
A roller answers for each die that is asked of it. It is given by what it does
in a state: the die and the state after it. It may be random, scripted or
loaded; nothing is taken for granted about the dice it gives.
-/
import DiceNotation.Arithmetic

namespace DiceNotation

/-- A source of dice over states `σ`; `die faces` is one die with that many faces. -/
structure Roller (σ : Type) where
  die : (faces : UInt64) → σ → UInt64 × σ

namespace Roller

variable {σ : Type}

/-- Adds `count` dice to `total`. The die at which the total leaves the range is the last. -/
def sumFrom (r : Roller σ) (faces : UInt64) (total : Int64) : (count : Nat) → σ → Option Int64 × σ
  | 0, s => (some total, s)
  | count + 1, s =>
    let (die, s) := r.die faces s
    match Arithmetic.fit? (total.toInt + die.toNat) with
    | none => (none, s)
    | some total => sumFrom r faces total count s

/-- The sum of `count` dice, if it is in range at every die. -/
def sum (r : Roller σ) (faces : UInt64) (count : Nat) (s : σ) : Option Int64 × σ :=
  r.sumFrom faces 0 count s

/-- The same roller, with a count of the dice asked of it. -/
def counted (r : Roller σ) : Roller (σ × Nat) where
  die := fun faces s =>
    let (die, t) := r.die faces s.1
    (die, t, s.2 + 1)

end Roller

end DiceNotation
