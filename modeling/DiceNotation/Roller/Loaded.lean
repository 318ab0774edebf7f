/- Rollers whose dice are settled in advance, for tables where nothing is left to chance. -/
import DiceNotation.Roller

namespace DiceNotation

namespace Roller

/-- A count from 1 that goes up by `step` at each die and starts over at 1 when it passes the
largest word. -/
structure Stepping where
  current : UInt64
  step : UInt64
  deriving DecidableEq, Repr

/-- The count, wrapped to the faces of the die. -/
def stepping : Roller Stepping where
  die := fun faces s =>
    let next := s.current + s.step
    ((s.current - 1) % faces + 1, { s with current := if next < s.current then 1 else next })

/-- The highest face each time. -/
def highest : Roller Unit where
  die := fun faces s => (faces, s)

/-- The given values in turn, over and over, whatever the faces; the state is the place in them. -/
def scripted (values : Array UInt64) : Roller Nat where
  die := fun _ k => (values.getD (k % values.size) 0, k + 1)

end Roller

end DiceNotation
