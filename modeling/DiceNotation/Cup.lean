/-
A cup holds the dice of a table and keeps count of them. Each roll is charged
to the count before any die falls, and a roll that takes the count above the
cup's limit is refused; the charge stands all the same, so that a cup that has
refused one roll refuses every other until it is cleared.
-/
import DiceNotation.Roller

namespace DiceNotation

/-- A roll that was made: the dice and their sum. -/
structure Roll where
  count : Int64
  faces : Int64
  total : Int64
  deriving DecidableEq, Repr

/-- The state of a cup: the most dice it may be charged with, if there is a limit, the dice it has
been charged with, the state of the dice, and the rolls made, the last first. -/
structure Cup (σ : Type) where
  limit : Option UInt64
  rolls : UInt64
  dice : σ
  journal : List Roll
  deriving DecidableEq, Repr

namespace Cup

variable {σ : Type}

/-- The most dice that a formula may roll where nothing else is said. -/
def standardLimit : UInt64 := 10000

/-- A cup that nothing has been rolled from. -/
def fresh (limit : Option UInt64) (dice : σ) : Cup σ := ⟨limit, 0, dice, []⟩

/-- The cup with its count and its journal taken back to the start. -/
def clear (cup : Cup σ) : Cup σ := fresh cup.limit cup.dice

/-- The sum of two counts, held at the largest word. -/
def addRolls (m n : UInt64) : UInt64 := if m + n < m then 0xFFFFFFFFFFFFFFFF else m + n

theorem toNat_addRolls (m n : UInt64) :
    (addRolls m n).toNat = min 0xFFFFFFFFFFFFFFFF (m.toNat + n.toNat) := by
  have hm := m.toNat_lt
  have hn := n.toNat_lt
  simp only [addRolls, UInt64.lt_iff_toNat_lt, UInt64.toNat_add]
  split
  · simp only [UInt64.reduceToNat]
    omega
  · rw [UInt64.toNat_add]
    omega

/-- The cup once it is charged with `count` more dice. -/
def charge (cup : Cup σ) (count : UInt64) : Cup σ := { cup with rolls := addRolls cup.rolls count }

/-- The charge is above the limit. -/
def overdrawn (cup : Cup σ) : Bool :=
  match cup.limit with
  | none => false
  | some limit => limit < cup.rolls

/-- Rolls `count` dice with `faces` faces for their sum. -/
def roll (r : Roller σ) (count faces : Int64) (cup : Cup σ) : Except DomainError Int64 × Cup σ :=
  if faces ≤ 0 then (.error (.invalidFaces faces), cup)
  else if count < 0 then (.error (.negativeCount count), cup)
  else
    let cup := cup.charge count.toUInt64
    if cup.overdrawn then (.error .tooManyRolls, cup)
    else
      match r.sum faces.toUInt64 count.toUInt64.toNat cup.dice with
      | (none, dice) => (.error .overflow, { cup with dice })
      | (some total, dice) =>
        (.ok total, { cup with dice, journal := ⟨count, faces, total⟩ :: cup.journal })

end Cup

end DiceNotation
