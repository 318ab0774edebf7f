/-
One roll from a cup. The sum of its dice is the exact one where that fits
(`Roller.sum_eq_fit?`), and there are five things that can come of it: two
demands that no dice can meet, a refusal, a sum that is too large and a sum
(`Cup.rolled`). Only the last three charge the cup, and only the last two let
dice fall, as a roller shows that counts them (`Roller.counted_sum`).
-/
import Mathlib.Algebra.Order.Ring.Nat
import DiceNotation.Evaluation

namespace DiceNotation

variable {σ : Type}

namespace Roller

variable {r : Roller σ} {faces : UInt64} {total : Int64} {count : Nat}

/-- The sum of dice in a row without bounds, and the state after the last of them. -/
def exactSum (r : Roller σ) (faces : UInt64) : (count : Nat) → σ → Nat × σ
  | 0, s => (0, s)
  | count + 1, s =>
    let (die, s) := r.die faces s
    let (sum, s) := exactSum r faces count s
    (die.toNat + sum, s)

theorem sumFrom_succ (r : Roller σ) (faces : UInt64) (total : Int64) (count : Nat) (s : σ) :
    r.sumFrom faces total (count + 1) s =
      match Arithmetic.fit? (total.toInt + (r.die faces s).1.toNat) with
      | none => (none, (r.die faces s).2)
      | some total => r.sumFrom faces total count (r.die faces s).2 := rfl

theorem exactSum_succ (r : Roller σ) (faces : UInt64) (count : Nat) (s : σ) :
    r.exactSum faces (count + 1) s =
      ((r.die faces s).1.toNat + (r.exactSum faces count (r.die faces s).2).1,
        (r.exactSum faces count (r.die faces s).2).2) := rfl

/-- A sum that is out of range at one die is out of range at the last, since no die is negative. -/
theorem sumFrom_eq_fit? (s : σ) : (r.sumFrom faces total count s).1 =
    Arithmetic.fit? (total.toInt + (r.exactSum faces count s).1) := by
  induction count generalizing total s with
  | zero => exact (Arithmetic.fit?_eq_some_iff.2 (Int.add_zero _).symm).symm
  | succ count ih =>
    rw [sumFrom_succ, exactSum_succ]
    split
    next hfit =>
      symm
      rw [Arithmetic.fit?_eq_none_iff] at hfit ⊢
      have := total.le_toInt
      omega
    next total' hfit =>
      rw [ih, Arithmetic.fit?_eq_some_iff.1 hfit, Int.natCast_add, Int.add_assoc]

/-- A sum that is in range is that of all its dice. -/
theorem sumFrom_dice {s : σ} {x : Int64} (h : (r.sumFrom faces total count s).1 = some x) :
    (r.sumFrom faces total count s).2 = (r.exactSum faces count s).2 := by
  induction count generalizing total s with
  | zero => rfl
  | succ count ih =>
    rw [sumFrom_succ, exactSum_succ] at *
    split at h
    next => cases h
    next total' hfit => exact ih h

theorem sum_eq_fit? (r : Roller σ) (faces : UInt64) (count : Nat) (s : σ) :
    (r.sum faces count s).1 = Arithmetic.fit? (r.exactSum faces count s).1 := by
  have hzero : (0 : Int64).toInt = 0 := rfl
  rw [sum, sumFrom_eq_fit?, hzero, Int.zero_add]

/-- A sum in range is exact. -/
theorem exactSum_of_sum {s s' : σ} {x : Int64} (h : r.sum faces count s = (some x, s')) :
    ((r.exactSum faces count s).1 : Int) = x.toInt ∧ (r.exactSum faces count s).2 = s' := by
  have hx : (r.sum faces count s).1 = some x := congrArg Prod.fst h
  refine ⟨?_, ?_⟩
  · rw [sum_eq_fit?] at hx
    exact (Arithmetic.fit?_eq_some_iff.1 hx).symm
  · exact (sumFrom_dice hx).symm.trans (congrArg Prod.snd h)

/-! ## Dice that are counted -/

/-- A sum takes dice up to as many as it is of, and all of them if it is in range. -/
theorem counted_sumFrom {s : σ × Nat} :
    s.2 ≤ (r.counted.sumFrom faces total count s).2.2 ∧
      (r.counted.sumFrom faces total count s).2.2 ≤ s.2 + count ∧
      ((r.counted.sumFrom faces total count s).1.isSome →
        (r.counted.sumFrom faces total count s).2.2 = s.2 + count) := by
  induction count generalizing total s with
  | zero => exact ⟨Nat.le_refl _, Nat.le_refl _, fun _ => rfl⟩
  | succ count ih =>
    have hdie : (r.counted.die faces s).2.2 = s.2 + 1 := rfl
    rw [sumFrom_succ]
    split
    next =>
      dsimp only
      exact ⟨by omega, by omega, fun h => by cases h⟩
    next total' _ =>
      obtain ⟨hl, hu, hs⟩ := @ih total' (r.counted.die faces s).2
      exact ⟨by omega, by omega, fun h => by have := hs h; omega⟩

theorem counted_sum (r : Roller σ) (faces : UInt64) (count : Nat) (s : σ × Nat) :
    s.2 ≤ (r.counted.sum faces count s).2.2 ∧
      (r.counted.sum faces count s).2.2 ≤ s.2 + count ∧
      ((r.counted.sum faces count s).1.isSome →
        (r.counted.sum faces count s).2.2 = s.2 + count) := counted_sumFrom

end Roller

/-- A count of dice is above the limit, if there is a limit. -/
def Above (limit : Option UInt64) (rolls : Nat) : Prop := ∃ max ∈ limit, max.toNat < rolls

instance (limit : Option UInt64) (rolls : Nat) : Decidable (Above limit rolls) :=
  match limit with
  | none => isFalse nofun
  | some max => decidable_of_iff (max.toNat < rolls) (by simp [Above])

namespace Cup

/-- The demand for `count` dice with `faces` faces can be met. -/
def Demand (count faces : Int64) : Prop := 0 < faces.toInt ∧ 0 ≤ count.toInt

theorem Demand.toNat_count {count faces : Int64} (h : Demand count faces) :
    count.toUInt64.toNat = count.toInt.toNat :=
  Int64.toNat_toUInt64_of_le (Int64.le_iff_toInt_le.2 h.2)

/-- The charge for a demand that can be met. -/
theorem Demand.rolls_charge {count faces : Int64} (h : Demand count faces) (cup : Cup σ) :
    (cup.charge count.toUInt64).rolls.toNat =
      min (2 ^ 64 - 1) (cup.rolls.toNat + count.toInt.toNat) := by
  rw [← h.toNat_count]
  exact toNat_addRolls ..

theorem overdrawn_iff {cup : Cup σ} :
    cup.overdrawn = true ↔ Above cup.limit cup.rolls.toNat := by
  unfold overdrawn Above
  cases cup.limit with
  | none => simp
  | some max => simp [UInt64.lt_iff_toNat_lt]

theorem overdrawn_eq_false_iff {cup : Cup σ} :
    cup.overdrawn = false ↔ ¬ Above cup.limit cup.rolls.toNat := by
  rw [← overdrawn_iff, Bool.not_eq_true]

/-- What comes of a roll: its outcome and the cup after it. -/
inductive Rolled (r : Roller σ) (count faces : Int64) (cup : Cup σ) :
    Except DomainError Int64 → Cup σ → Prop
  | invalidFaces : faces.toInt ≤ 0 → Rolled r count faces cup (.error (.invalidFaces faces)) cup
  | negativeCount : 0 < faces.toInt → count.toInt < 0 →
    Rolled r count faces cup (.error (.negativeCount count)) cup
  | refused : Demand count faces → (cup.charge count.toUInt64).overdrawn = true →
    Rolled r count faces cup (.error .tooManyRolls) (cup.charge count.toUInt64)
  | overflow {s : σ} : Demand count faces → (cup.charge count.toUInt64).overdrawn = false →
    r.sum faces.toUInt64 count.toUInt64.toNat cup.dice = (none, s) →
    Rolled r count faces cup (.error .overflow) { cup.charge count.toUInt64 with dice := s }
  | total {x : Int64} {s : σ} : Demand count faces →
    (cup.charge count.toUInt64).overdrawn = false →
    r.sum faces.toUInt64 count.toUInt64.toNat cup.dice = (some x, s) →
    Rolled r count faces cup (.ok x)
      { cup.charge count.toUInt64 with dice := s, journal := ⟨count, faces, x⟩ :: cup.journal }

theorem faces_nonpos_iff {faces : Int64} : faces ≤ 0 ↔ faces.toInt ≤ 0 := Int64.le_iff_toInt_le

theorem count_neg_iff {count : Int64} : count < 0 ↔ count.toInt < 0 := Int64.lt_iff_toInt_lt

/-- Every roll is one of the five. -/
theorem rolled (r : Roller σ) (count faces : Int64) (cup : Cup σ) :
    Rolled r count faces cup (cup.roll r count faces).1 (cup.roll r count faces).2 := by
  unfold roll
  split
  next hf => exact .invalidFaces (faces_nonpos_iff.1 hf)
  next hf =>
    rw [faces_nonpos_iff] at hf
    split
    next hc => exact .negativeCount (by omega) (count_neg_iff.1 hc)
    next hc =>
      rw [count_neg_iff] at hc
      have hd : Demand count faces := ⟨by omega, by omega⟩
      dsimp only
      split
      next ho => exact .refused hd ho
      next ho =>
        rw [Bool.not_eq_true] at ho
        split
        next s hs => exact .overflow hd ho hs
        next x s hs => exact .total hd ho hs

/-- The demand and the cup leave no choice between the five. -/
theorem Rolled.eq {r : Roller σ} {count faces : Int64} {cup cup' : Cup σ}
    {outcome : Except DomainError Int64} (h : Rolled r count faces cup outcome cup') :
    cup.roll r count faces = (outcome, cup') := by
  have hdemand (hd : Demand count faces) : ¬ faces ≤ 0 ∧ ¬ count < 0 := by
    rw [faces_nonpos_iff, count_neg_iff]
    exact ⟨by have := hd.1; omega, by have := hd.2; omega⟩
  unfold roll
  cases h with
  | invalidFaces hf => rw [if_pos (faces_nonpos_iff.2 hf)]
  | negativeCount hf hc =>
    rw [if_neg (by rw [faces_nonpos_iff]; omega), if_pos (count_neg_iff.2 hc)]
  | refused hd ho =>
    rw [if_neg (hdemand hd).1, if_neg (hdemand hd).2]
    exact if_pos ho
  | overflow hd ho hs =>
    rw [if_neg (hdemand hd).1, if_neg (hdemand hd).2]
    dsimp only
    rw [ho, if_neg Bool.false_ne_true, show (cup.charge count.toUInt64).dice = cup.dice from rfl, hs]
  | total hd ho hs =>
    rw [if_neg (hdemand hd).1, if_neg (hdemand hd).2]
    dsimp only
    rw [ho, if_neg Bool.false_ne_true, show (cup.charge count.toUInt64).dice = cup.dice from rfl, hs]
    rfl

theorem Rolled.limit_eq {r : Roller σ} {count faces : Int64} {cup cup' : Cup σ}
    {outcome : Except DomainError Int64} (h : Rolled r count faces cup outcome cup') :
    cup'.limit = cup.limit := by
  cases h with
  | invalidFaces | negativeCount | refused | overflow | total => rfl

theorem limit_roll (r : Roller σ) (count faces : Int64) (cup : Cup σ) :
    (cup.roll r count faces).2.limit = cup.limit :=
  (cup.rolled r count faces).limit_eq

end Cup

/-! ## Evaluation, node by node -/

/-- The errors that an operator can come to. -/
inductive DomainError.OfOperator : DomainError → Prop
  | divisionByZero : OfOperator .divisionByZero
  | negativeExponent (exponent : Int64) : OfOperator (.negativeExponent exponent)
  | overflow : OfOperator .overflow

theorem Arithmetic.exact_error {n : Int} {e : DomainError} (h : exact n = .error e) :
    e.OfOperator := by
  unfold exact at h
  split at h
  · cases h
    exact .overflow
  · cases h

theorem Operator.apply_error {op : Operator} {x y : Int64} {e : DomainError}
    (h : op.apply x y = .error e) : e.OfOperator := by
  cases op with
  | add | sub | mul => exact Arithmetic.exact_error h
  | div =>
    simp only [apply] at h
    split at h
    · cases h
      exact .divisionByZero
    · exact Arithmetic.exact_error h
  | pow =>
    simp only [apply, Arithmetic.pow] at h
    split at h
    · cases h
      exact .negativeExponent y
    · split at h
      · cases h
        exact .overflow
      · cases h

/-- The ways in which the evaluation of a term can go, with what comes of it and the cup after it. -/
inductive Term.Evaluates (r : Roller σ) : Term → Cup σ → Except DomainError Int64 → Cup σ → Prop
  | int {value : Int64} {cup : Cup σ} : Evaluates r (.int value) cup (.ok value) cup
  | dice {count faces : Int64} {cup cup' : Cup σ} {outcome : Except DomainError Int64} :
    Cup.Rolled r count faces cup outcome cup' → Evaluates r (.dice count faces) cup outcome cup'
  | left {left right : Term} {op : Operator} {cup cup' : Cup σ} {e : DomainError} :
    Evaluates r left cup (.error e) cup' →
    Evaluates r (.binary left op right) cup (.error e) cup'
  | right {left right : Term} {op : Operator} {cup cup' cup'' : Cup σ} {x : Int64}
      {e : DomainError} :
    Evaluates r left cup (.ok x) cup' → Evaluates r right cup' (.error e) cup'' →
    Evaluates r (.binary left op right) cup (.error e) cup''
  | node {left right : Term} {op : Operator} {cup cup' cup'' : Cup σ} {x y : Int64} :
    Evaluates r left cup (.ok x) cup' → Evaluates r right cup' (.ok y) cup'' →
    Evaluates r (.binary left op right) cup (op.apply x y) cup''

namespace Term

variable {r : Roller σ} {left right : Term} {op : Operator} {cup cup' cup'' : Cup σ} {x y : Int64}
  {e : DomainError}

theorem eval_of_left_error (hl : left.eval r cup = (.error e, cup')) :
    (binary left op right).eval r cup = (.error e, cup') := by
  rw [eval, hl]

theorem eval_of_right_error (hl : left.eval r cup = (.ok x, cup'))
    (hr : right.eval r cup' = (.error e, cup'')) :
    (binary left op right).eval r cup = (.error e, cup'') := by
  rw [eval, hl]
  dsimp only
  rw [hr]

theorem eval_of_ok (hl : left.eval r cup = (.ok x, cup'))
    (hr : right.eval r cup' = (.ok y, cup'')) :
    (binary left op right).eval r cup = (op.apply x y, cup'') := by
  rw [eval, hl]
  dsimp only
  rw [hr]

theorem evaluates (r : Roller σ) (term : Term) (cup : Cup σ) :
    Evaluates r term cup (term.eval r cup).1 (term.eval r cup).2 := by
  induction term generalizing cup with
  | int value => exact .int
  | dice count faces => exact .dice (cup.rolled r count faces)
  | binary left op right ihl ihr =>
    have hleft := ihl cup
    rcases hl : left.eval r cup with ⟨e | x, cup'⟩
    · rw [hl] at hleft
      rw [eval_of_left_error hl]
      exact .left hleft
    · rw [hl] at hleft
      have hright := ihr cup'
      rcases hr : right.eval r cup' with ⟨e | y, cup''⟩
      · rw [hr] at hright
        rw [eval_of_right_error hl hr]
        exact .right hleft hright
      · rw [hr] at hright
        rw [eval_of_ok hl hr]
        exact .node hleft hright

theorem Evaluates.eq {term : Term} {outcome : Except DomainError Int64}
    (h : Evaluates r term cup outcome cup') : term.eval r cup = (outcome, cup') := by
  induction h with
  | int => rfl
  | dice h => exact h.eq
  | left _ ih => exact eval_of_left_error ih
  | right _ _ ihl ihr => exact eval_of_right_error ihl ihr
  | node _ _ ihl ihr => exact eval_of_ok ihl ihr

theorem Evaluates.limit_eq {term : Term} {outcome : Except DomainError Int64}
    (h : Evaluates r term cup outcome cup') : cup'.limit = cup.limit := by
  induction h with
  | int => rfl
  | dice h => exact h.limit_eq
  | left _ ih => exact ih
  | right _ _ ihl ihr => exact ihr.trans ihl
  | node _ _ ihl ihr => exact ihr.trans ihl

end Term

end DiceNotation
