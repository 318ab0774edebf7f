/-
Arithmetic on 64-bit integers that never wraps: every operation is the exact
one on integers, and a result out of range is an overflow.
-/
import DiceNotation.DomainError
import DiceNotation.Operator

namespace DiceNotation

namespace Arithmetic

/-- The integer as a 64-bit one, if it is in range. -/
def fit? (n : Int) : Option Int64 :=
  if -0x8000000000000000 ≤ n ∧ n < 0x8000000000000000 then some (Int64.ofInt n) else none

theorem fit?_toInt (x : Int64) : fit? x.toInt = some x := by
  have hl := x.le_toInt
  have hu := x.toInt_lt
  rw [fit?, if_pos (by omega), Int64.ofInt_toInt]

theorem fit?_eq_some_iff {n : Int} {x : Int64} : fit? n = some x ↔ x.toInt = n := by
  refine ⟨fun h => ?_, fun h => h ▸ fit?_toInt x⟩
  rw [fit?] at h
  split at h
  · next hn =>
    rw [Option.some.injEq] at h
    rw [← h, Int64.toInt_ofInt_of_le (by omega) (by omega)]
  · simp at h

theorem fit?_eq_none_iff {n : Int} :
    fit? n = none ↔ n < -0x8000000000000000 ∨ 0x8000000000000000 ≤ n := by
  rw [fit?]
  split
  · next hn => simp only [reduceCtorEq, false_iff]; omega
  · next hn => simp only [true_iff]; omega

/-- `acc * base ^ exponent` by squaring, where every product must be in range. The base is squared
only while the exponent has bits left, so no square is larger than the result. -/
def powFrom (acc base : Int64) (exponent : Nat) : Option Int64 :=
  if exponent = 0 then some acc
  else
    match if exponent % 2 = 1 then fit? (acc.toInt * base.toInt) else some acc with
    | none => none
    | some acc =>
      if exponent = 1 then some acc
      else
        match fit? (base.toInt * base.toInt) with
        | none => none
        | some square => powFrom acc square (exponent / 2)
termination_by exponent

/-- The power for an exponent of more than 32 bits: only the powers of 0, 1 and -1 are in range. -/
def highPow (base exponent : Int64) : Option Int64 :=
  if base = 0 ∨ base = 1 then some base
  else if base = -1 then some (if exponent % 2 = 0 then 1 else -1)
  else none

/-- The power for an exponent that is not negative, if it is in range. Only an exponent of up to 32
bits is worth squaring for. -/
def pow? (base exponent : Int64) : Option Int64 :=
  if exponent ≤ 0xFFFFFFFF then powFrom 1 base exponent.toInt.toNat else highPow base exponent

/-- The power, which is 1 if the exponent is 0. -/
def pow (base exponent : Int64) : Except DomainError Int64 :=
  if exponent < 0 then .error (.negativeExponent exponent)
  else
    match pow? base exponent with
    | none => .error .overflow
    | some x => .ok x

/-- The integer in range, or an overflow. -/
def exact (n : Int) : Except DomainError Int64 :=
  match fit? n with
  | none => .error .overflow
  | some x => .ok x

end Arithmetic

/-- The value of an operator on its operands. A quotient is rounded toward zero. -/
def Operator.apply (op : Operator) (x y : Int64) : Except DomainError Int64 :=
  match op with
  | .add => Arithmetic.exact (x.toInt + y.toInt)
  | .sub => Arithmetic.exact (x.toInt - y.toInt)
  | .mul => Arithmetic.exact (x.toInt * y.toInt)
  | .div => if y = 0 then .error .divisionByZero else Arithmetic.exact (x.toInt.tdiv y.toInt)
  | .pow => Arithmetic.pow x y

end DiceNotation
