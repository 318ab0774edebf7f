/-
Arithmetic on integers without bounds, and what the bounded arithmetic makes of
it: an operator gives the exact result where it fits and an overflow where it
does not (`Operator.apply_eq_exact`). For a power this says that squaring never
overflows ahead of the power itself (`Arithmetic.powFrom_eq`), and that a power
with a higher exponent is out of range unless its base is 0, 1 or -1
(`Arithmetic.highPow_eq`); so over all bases and exponents a power is exact
(`Arithmetic.power_exact`).
-/
import Mathlib.Algebra.Order.Ring.Int
import Mathlib.Algebra.Ring.Parity
import Mathlib.Tactic.Linarith
import Mathlib.Tactic.Ring
import DiceNotation.Arithmetic

namespace DiceNotation

/-- The integer is one of 64 bits. -/
def Fits (n : Int) : Prop := -2 ^ 63 ≤ n ∧ n < 2 ^ 63

instance (n : Int) : Decidable (Fits n) := inferInstanceAs (Decidable (_ ∧ _))

/-- An exact result, if it fits. -/
def fitting (n : Int) : Except DomainError Int := if Fits n then .ok n else .error .overflow

/-- The value of an operator on integers without bounds. A quotient is rounded toward zero, and a
power is 1 if the exponent is 0. -/
def Operator.exact (op : Operator) (x y : Int) : Except DomainError Int :=
  match op with
  | .add => .ok (x + y)
  | .sub => .ok (x - y)
  | .mul => .ok (x * y)
  | .div => if y = 0 then .error .divisionByZero else .ok (x.tdiv y)
  | .pow => if y < 0 then .error (.negativeExponent (Int64.ofInt y)) else .ok (x ^ y.toNat)

namespace Arithmetic

theorem fit?_eq_none_iff_not_fits {n : Int} : fit? n = none ↔ ¬ Fits n := by
  rw [fit?_eq_none_iff, Fits]
  omega

theorem fitting_of_fit?_eq_none {n : Int} (h : fit? n = none) : fitting n = .error .overflow :=
  if_neg (fit?_eq_none_iff_not_fits.1 h)

theorem fitting_of_fit?_eq_some {n : Int} {x : Int64} (h : fit? n = some x) :
    fitting n = .ok x.toInt := by
  have hn : Fits n := by
    by_contra hn
    rw [fit?_eq_none_iff_not_fits.2 hn] at h
    cases h
  rw [fitting, if_pos hn, fit?_eq_some_iff.1 h]

theorem exact_eq_fitting (n : Int) : (exact n).map Int64.toInt = fitting n := by
  unfold exact
  split
  next h => exact (fitting_of_fit?_eq_none h).symm
  next x h => exact (fitting_of_fit?_eq_some h).symm

/-! ## Powers -/

theorem fit?_mul_eq_none {n m : Int} (hn : fit? n = none) (hm : 1 ≤ m) : fit? (n * m) = none := by
  rw [fit?_eq_none_iff] at hn ⊢
  rcases hn with hn | hn
  · left
    nlinarith
  · right
    nlinarith

/-- A square that does not fit is above the range by more than 1, so the negative of it does not fit
either. -/
theorem lt_square_of_fit?_eq_none {x : Int} (hx : fit? (x * x) = none) :
    0x8000000000000000 < x * x := by
  have hsq : ((x.natAbs * x.natAbs : Nat) : Int) = x * x := Int.natAbs_mul_self
  rw [fit?_eq_none_iff] at hx
  -- The range ends between two squares.
  rcases Nat.lt_or_ge x.natAbs 3037000500 with h | h
  · have := Nat.mul_le_mul (Nat.le_of_lt_succ h) (Nat.le_of_lt_succ h)
    omega
  · have := Nat.mul_le_mul h h
    omega

/-- A square out of range keeps every power of it out of range, whatever the sign in front. -/
theorem fit?_mul_square_eq_none {a x : Int} {n : Nat} (hx : fit? (x * x) = none) (ha : a ≠ 0)
    (hn : n ≠ 0) : fit? (a * (x * x) ^ n) = none := by
  have hlt := lt_square_of_fit?_eq_none hx
  have hpow : x * x ≤ (x * x) ^ n := le_self_pow₀ (by omega) hn
  rw [fit?_eq_none_iff]
  rcases lt_or_gt_of_ne ha with ha | ha
  · left
    nlinarith
  · right
    nlinarith

theorem pow_eq_square_pow (base : Int) (exponent : Nat) :
    base ^ exponent = (if exponent % 2 = 1 then base else 1) * (base * base) ^ (exponent / 2) := by
  conv_lhs => rw [← Nat.mod_add_div exponent 2, pow_add, pow_mul, sq]
  rcases Nat.mod_two_eq_zero_or_one exponent with h | h
  · simp [h]
  · simp [h]

theorem toInt_of_bit {acc base acc' : Int64} {exponent : Nat}
    (h : (if exponent % 2 = 1 then fit? (acc.toInt * base.toInt) else some acc) = some acc') :
    acc'.toInt = acc.toInt * (if exponent % 2 = 1 then base.toInt else 1) := by
  split at h
  · next hbit => rw [if_pos hbit, fit?_eq_some_iff.1 h]
  · next hbit =>
    cases h
    rw [if_neg hbit, mul_one]

/-- **A power by squaring is the power**, unless the power does not fit: no product on the way is out
of range ahead of the result. -/
theorem powFrom_eq {acc base : Int64} {exponent : Nat} (h0 : acc.toInt = 0 → base.toInt = 0) :
    powFrom acc base exponent = fit? (acc.toInt * base.toInt ^ exponent) := by
  fun_induction powFrom acc base exponent with
  | case1 acc base => rw [pow_zero, mul_one, fit?_toInt]
  | case2 acc base exponent hne hbit =>
    -- The product with the base is out of range, and what is left to multiply is a square.
    split at hbit
    next hodd =>
      have hbase : base.toInt ≠ 0 := by
        intro hbase
        rw [hbase, mul_zero] at hbit
        cases hbit
      have hsquare : 1 ≤ (base.toInt * base.toInt) ^ (exponent / 2) :=
        one_le_pow₀ (mul_self_pos.2 hbase)
      rw [pow_eq_square_pow, if_pos hodd, ← mul_assoc, fit?_mul_eq_none hbit hsquare]
    next => cases hbit
  | case3 acc base acc' _ hbit =>
    rw [pow_one]
    exact hbit.symm
  | case4 acc base exponent hne acc' hbit hone hsquare =>
    have hacc := toInt_of_bit (by simpa only [dite_eq_ite] using hbit)
    have hbase : base.toInt ≠ 0 := by
      intro hbase
      rw [hbase, mul_zero] at hsquare
      cases hsquare
    have hacc' : acc'.toInt ≠ 0 := by
      rw [hacc]
      refine mul_ne_zero (fun h => hbase (h0 h)) ?_
      split
      · exact hbase
      · exact one_ne_zero
    rw [pow_eq_square_pow, ← mul_assoc, ← hacc,
      fit?_mul_square_eq_none hsquare hacc' (by omega)]
  | case5 acc base exponent hne acc' hbit hone square hsquare ih =>
    have hacc := toInt_of_bit (by simpa only [dite_eq_ite] using hbit)
    have hsq := fit?_eq_some_iff.1 hsquare
    have hzero : acc'.toInt = 0 → square.toInt = 0 := by
      intro h
      have hbase : base.toInt = 0 := by
        rcases mul_eq_zero.1 (hacc.symm.trans h) with h | h
        · exact h0 h
        · split at h
          · exact h
          · cases h
      rw [hsq, hbase, mul_zero]
    rw [ih hzero, hacc, hsq, pow_eq_square_pow base.toInt exponent, ← mul_assoc]

theorem fit?_pow_eq_none {x : Int} {n : Nat} (hx : 2 ≤ x.natAbs) (hn : 64 ≤ n) :
    fit? (x ^ n) = none := by
  have hpow : 2 ^ 64 ≤ (x ^ n).natAbs := by
    rw [Int.natAbs_pow]
    calc 2 ^ 64 ≤ 2 ^ n := Nat.pow_le_pow_right (by decide) hn
      _ ≤ x.natAbs ^ n := Nat.pow_le_pow_left hx n
  rw [fit?_eq_none_iff]
  omega

theorem even_toNat_iff {x : Int64} (hx : 0 ≤ x) : Even x.toInt.toNat ↔ x % 2 = 0 := by
  have h0 : 0 ≤ x.toInt := Int64.le_iff_toInt_le.1 hx
  have htwo : (2 : Int64).toInt = 2 := rfl
  rw [← Int64.toInt_inj, Int64.toInt_mod, htwo, Int64.toInt_zero, Int.tmod_eq_emod_of_nonneg h0,
    Nat.even_iff]
  omega

/-- **A power with a high exponent is the power**, unless the power does not fit. -/
theorem highPow_eq {base exponent : Int64} (h : 0xFFFFFFFF < exponent) :
    highPow base exponent = fit? (base.toInt ^ exponent.toInt.toNat) := by
  have hexp : 0xFFFFFFFF < exponent.toInt := Int64.lt_iff_toInt_lt.1 h
  have hne : exponent.toInt.toNat ≠ 0 := by omega
  have hpos : 0 ≤ exponent := Int64.le_of_lt (Int64.lt_trans (by decide) h)
  unfold highPow
  by_cases h0 : base = 0
  · subst h0
    rw [if_pos (.inl rfl), Int64.toInt_zero, zero_pow hne]
    rfl
  by_cases h1 : base = 1
  · subst h1
    rw [if_pos (.inr rfl), Int64.toInt_one, one_pow]
    rfl
  rw [if_neg (not_or.2 ⟨h0, h1⟩)]
  by_cases hneg : base = -1
  · subst hneg
    have hbase : (-1 : Int64).toInt = -1 := rfl
    rw [if_pos rfl, hbase, neg_one_pow_eq_ite]
    simp only [even_toNat_iff hpos]
    split
    · rfl
    · rfl
  · have h0' : base.toInt ≠ 0 := fun h => h0 (Int64.toInt_inj.1 h)
    have h1' : base.toInt ≠ 1 := fun h => h1 (Int64.toInt_inj.1 h)
    have hneg' : base.toInt ≠ -1 := fun h => hneg (Int64.toInt_inj.1 h)
    rw [if_neg hneg, fit?_pow_eq_none (by omega) (by omega)]

theorem powFrom_one (base : Int64) (exponent : Nat) :
    powFrom 1 base exponent = fit? (base.toInt ^ exponent) := by
  rw [powFrom_eq (by rw [Int64.toInt_one]; nofun), Int64.toInt_one, one_mul]

/-- The two ways to a power give the same one, so it does not matter where one ends and the other
begins. -/
theorem pow?_eq (base exponent : Int64) :
    pow? base exponent = fit? (base.toInt ^ exponent.toInt.toNat) := by
  unfold pow?
  split
  next => exact powFrom_one base _
  next hhigh => exact highPow_eq (Int64.not_le.1 hhigh)

theorem pow_of_neg {base exponent : Int64} (h : exponent < 0) :
    pow base exponent = .error (.negativeExponent exponent) :=
  if_pos h

theorem pow_of_not_neg {base exponent : Int64} (h : ¬ exponent < 0) :
    pow base exponent = exact (base.toInt ^ exponent.toInt.toNat) := by
  rw [pow, if_neg h, pow?_eq, exact]

theorem pow_eq_exact (x y : Int64) :
    (pow x y).map Int64.toInt = Operator.exact .pow x.toInt y.toInt >>= fitting := by
  unfold Operator.exact
  by_cases hy : y < 0
  · have hy' : y.toInt < 0 := Int64.lt_iff_toInt_lt.1 hy
    rw [pow_of_neg hy, if_pos hy', Int64.ofInt_toInt]
    rfl
  · have hy' : ¬ y.toInt < 0 := fun h => hy (Int64.lt_iff_toInt_lt.2 h)
    rw [pow_of_not_neg hy, if_neg hy']
    exact exact_eq_fitting _

/-- **A power is exact** over all bases and exponents: an error for a negative exponent, and otherwise
the power if it fits and an overflow if it does not. Squaring is out of range only where the power
is, whatever the exponent, and the shortcut for high exponents gives what squaring would. -/
theorem power_exact (base exponent : Int64) :
    (pow base exponent).map Int64.toInt =
        (if exponent < 0 then .error (.negativeExponent exponent)
        else if Fits (base.toInt ^ exponent.toInt.toNat) then
          .ok (base.toInt ^ exponent.toInt.toNat)
        else .error .overflow) ∧
      (∀ n : Nat, powFrom 1 base n = none ↔ ¬ Fits (base.toInt ^ n)) ∧
      pow? base exponent = powFrom 1 base exponent.toInt.toNat := by
  refine ⟨?_, fun n => ?_, ?_⟩
  · split
    next hneg =>
      rw [pow_of_neg hneg]
      rfl
    next hneg =>
      rw [pow_of_not_neg hneg]
      exact exact_eq_fitting _
  · rw [powFrom_one, fit?_eq_none_iff_not_fits]
  · rw [pow?_eq, powFrom_one]

example : pow (-2) 63 = .ok Int64.minValue := by decide +kernel

example : pow (-1) 0xFFFFFFFF = .ok (-1) ∧ pow (-1) 0x100000000 = .ok 1 := by decide +kernel

end Arithmetic

/-- **An operator is exact**: its value is that of the operator without bounds, and an overflow if that
does not fit. -/
theorem Operator.apply_eq_exact (op : Operator) (x y : Int64) :
    (op.apply x y).map Int64.toInt = op.exact x.toInt y.toInt >>= fitting := by
  cases op with
  | add | sub | mul => exact Arithmetic.exact_eq_fitting _
  | div =>
    unfold apply exact
    have hy : y = 0 ↔ y.toInt = 0 := Int64.toInt_inj.symm
    by_cases h : y = 0
    · rw [if_pos h, if_pos (hy.1 h)]
      rfl
    · rw [if_neg h, if_neg (fun h' => h (hy.2 h'))]
      exact Arithmetic.exact_eq_fitting _
  | pow => exact Arithmetic.pow_eq_exact x y

end DiceNotation
