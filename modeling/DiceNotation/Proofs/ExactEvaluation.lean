/-
The value of a term is exact. Beside evaluation stands one on integers without
bounds: left operand, right operand, node, up to the first node that fails, where
a result that does not fit is an overflow (`Term.exact`). Evaluation gives the
same value or the same error, and leaves the same count of dice and the same
state of the roller (`eval_exact`); so it never gives a value that is not the
exact one, and says that a result is too large only where one is.
-/
import DiceNotation.Evaluation
import DiceNotation.Proofs.ExactArithmetic
import DiceNotation.Proofs.Rolling

namespace DiceNotation

variable {σ : Type}

/-- How far an exact evaluation has come: the dice charged and the state of the roller. -/
structure Tally (σ : Type) where
  rolls : Nat
  dice : σ

def Cup.tally (cup : Cup σ) : Tally σ := ⟨cup.rolls.toNat, cup.dice⟩

/-- The count of dice once `count` more are charged. It stops growing at the largest word. -/
def Tally.charged (t : Tally σ) (count : Nat) : Nat := min (2 ^ 64 - 1) (t.rolls + count)

/-- The exact sum of dice, and the tally after them. -/
def Tally.roll (r : Roller σ) (limit : Option UInt64) (count faces : Int64) (t : Tally σ) :
    Except DomainError (Int × Tally σ) :=
  if faces.toInt ≤ 0 then .error (.invalidFaces faces)
  else if count.toInt < 0 then .error (.negativeCount count)
  else
    let rolls := t.charged count.toInt.toNat
    if Above limit rolls then .error .tooManyRolls
    else
      let (sum, dice) := r.exactSum faces.toUInt64 count.toInt.toNat t.dice
      (fitting sum).map fun sum => (sum, ⟨rolls, dice⟩)

/-- The value of a term on integers without bounds, and the tally after it, up to the first node
that fails. -/
def Term.exact (r : Roller σ) (limit : Option UInt64) :
    Term → Tally σ → Except DomainError (Int × Tally σ)
  | .int value, t => .ok (value.toInt, t)
  | .dice count faces, t => t.roll r limit count faces
  | .binary left op right, t => do
    let (x, t) ← left.exact r limit t
    let (y, t) ← right.exact r limit t
    (op.exact x y >>= fitting).map fun value => (value, t)

/-- Evaluation comes to a node whose exact result does not fit. -/
inductive Term.Outgrows (r : Roller σ) (limit : Option UInt64) : Term → Tally σ → Prop
  | dice {count faces : Int64} {t : Tally σ} : Cup.Demand count faces →
    ¬ Above limit (t.charged count.toInt.toNat) →
    ¬ Fits (r.exactSum faces.toUInt64 count.toInt.toNat t.dice).1 →
    Outgrows r limit (.dice count faces) t
  | left {left right : Term} {op : Operator} {t : Tally σ} : Outgrows r limit left t →
    Outgrows r limit (.binary left op right) t
  | right {left right : Term} {op : Operator} {x : Int} {t t' : Tally σ} :
    left.exact r limit t = .ok (x, t') → Outgrows r limit right t' →
    Outgrows r limit (.binary left op right) t
  | node {left right : Term} {op : Operator} {x y z : Int} {t t' t'' : Tally σ} :
    left.exact r limit t = .ok (x, t') → right.exact r limit t' = .ok (y, t'') →
    op.exact x y = .ok z → ¬ Fits z → Outgrows r limit (.binary left op right) t

/-! ## A roll -/

theorem Tally.roll_of_demand {r : Roller σ} {limit : Option UInt64} {count faces : Int64}
    (t : Tally σ) (hd : Cup.Demand count faces) : t.roll r limit count faces =
      if Above limit (t.charged count.toInt.toNat) then .error .tooManyRolls
      else (fitting (r.exactSum faces.toUInt64 count.toInt.toNat t.dice).1).map fun sum =>
        (sum, ⟨t.charged count.toInt.toNat,
          (r.exactSum faces.toUInt64 count.toInt.toNat t.dice).2⟩) := by
  obtain ⟨hf, hc⟩ := hd
  rw [roll, if_neg (by omega), if_neg (by omega)]

theorem Cup.toNat_rolls_charge {count faces : Int64} (cup : Cup σ) (hd : Demand count faces) :
    (cup.charge count.toUInt64).rolls.toNat = cup.tally.charged count.toInt.toNat :=
  hd.rolls_charge cup

theorem Cup.roll_eq_exact (r : Roller σ) (count faces : Int64) (cup : Cup σ) :
    cup.tally.roll r cup.limit count faces =
      (cup.roll r count faces).1.map fun x => (x.toInt, (cup.roll r count faces).2.tally) := by
  have h := cup.rolled r count faces
  generalize cup.roll r count faces = result at h
  obtain ⟨outcome, after⟩ := result
  cases h with
  | invalidFaces hf =>
    rw [Tally.roll, if_pos hf]
    rfl
  | negativeCount hf hc =>
    rw [Tally.roll, if_neg (by omega), if_pos hc]
    rfl
  | refused hd ho =>
    rw [overdrawn_iff, cup.toNat_rolls_charge hd] at ho
    rw [Tally.roll_of_demand _ hd, if_pos (by exact ho)]
    rfl
  | overflow hd ho hs =>
    rw [overdrawn_eq_false_iff, cup.toNat_rolls_charge hd] at ho
    have hsum := (r.sum_eq_fit? faces.toUInt64 count.toUInt64.toNat cup.dice).symm
    rw [hs, hd.toNat_count] at hsum
    rw [Tally.roll_of_demand _ hd, if_neg (by exact ho), tally,
      Arithmetic.fitting_of_fit?_eq_none hsum]
    rfl
  | total hd ho hs =>
    rw [overdrawn_eq_false_iff, cup.toNat_rolls_charge hd] at ho
    rw [hd.toNat_count] at hs
    obtain ⟨hsum, hdice⟩ := Roller.exactSum_of_sum hs
    rw [Tally.roll_of_demand _ hd, if_neg (by exact ho), tally, tally, hsum, hdice, hd.rolls_charge,
      Arithmetic.fitting_of_fit?_eq_some (Arithmetic.fit?_toInt _)]
    rfl

/-! ## A term -/

namespace Term

variable {r : Roller σ} {limit : Option UInt64} {left right : Term} {op : Operator} {x y : Int}
  {t t' t'' : Tally σ} {e : DomainError}

theorem exact_of_left_error (hl : left.exact r limit t = .error e) :
    (binary left op right).exact r limit t = .error e := by
  rw [exact, hl]
  rfl

theorem exact_of_right_error (hl : left.exact r limit t = .ok (x, t'))
    (hr : right.exact r limit t' = .error e) :
    (binary left op right).exact r limit t = .error e := by
  rw [exact, hl]
  change (right.exact r limit t' >>= _) = _
  rw [hr]
  rfl

theorem exact_of_ok (hl : left.exact r limit t = .ok (x, t'))
    (hr : right.exact r limit t' = .ok (y, t'')) : (binary left op right).exact r limit t =
      (op.exact x y >>= fitting).map fun value => (value, t'') := by
  rw [exact, hl]
  change (right.exact r limit t' >>= _) = _
  rw [hr]
  rfl

theorem Evaluates.exact_eq {term : Term} {cup cup' : Cup σ} {outcome : Except DomainError Int64}
    (h : Evaluates r term cup outcome cup') :
    term.exact r cup.limit cup.tally = outcome.map fun x => (x.toInt, cup'.tally) := by
  induction h with
  | int => rfl
  | @dice count faces cup _ _ h =>
    have hroll := cup.roll_eq_exact r count faces
    rwa [h.eq] at hroll
  | left _ ih => exact exact_of_left_error ih
  | right hl _ ihl ihr =>
    rw [hl.limit_eq] at ihr
    exact exact_of_right_error ihl ihr
  | @node _ _ op _ _ _ x y hl _ ihl ihr =>
    rw [hl.limit_eq] at ihr
    rw [exact_of_ok ihl ihr, ← op.apply_eq_exact]
    cases op.apply x y with
    | error e => rfl
    | ok z => rfl

/-- Evaluation and exact evaluation go the same way: the same error, or the same value, count of dice
and state of the roller. -/
theorem exact_eq_eval (r : Roller σ) (term : Term) (cup : Cup σ) :
    term.exact r cup.limit cup.tally =
      (term.eval r cup).1.map fun x => (x.toInt, (term.eval r cup).2.tally) :=
  (term.evaluates r cup).exact_eq

end Term

/-! ## Results that are too large -/

theorem fitting_eq_overflow_iff {n : Int} : fitting n = .error .overflow ↔ ¬ Fits n := by
  unfold fitting
  split
  next h => exact iff_of_false nofun (not_not_intro h)
  next h => exact iff_of_true rfl h

theorem map_eq_error_iff {x : Except DomainError α} {f : α → β} {e : DomainError} :
    x.map f = .error e ↔ x = .error e := by
  cases x <;> simp [Except.map]

theorem Operator.exact_ne_overflow (op : Operator) (x y : Int) :
    op.exact x y ≠ .error .overflow := by
  cases op with
  | add | sub | mul => simp [exact]
  | div | pow =>
    simp only [exact]
    split <;> simp

theorem Tally.roll_eq_overflow_iff {r : Roller σ} {limit : Option UInt64} {count faces : Int64}
    {t : Tally σ} : t.roll r limit count faces = .error .overflow ↔
      Cup.Demand count faces ∧ ¬ Above limit (t.charged count.toInt.toNat) ∧
        ¬ Fits (r.exactSum faces.toUInt64 count.toInt.toNat t.dice).1 := by
  by_cases hd : Cup.Demand count faces
  · rw [roll_of_demand t hd]
    split
    next h => exact iff_of_false nofun fun hn => hn.2.1 h
    next h =>
      rw [map_eq_error_iff, fitting_eq_overflow_iff]
      exact ⟨fun hf => ⟨hd, h, hf⟩, fun hn => hn.2.2⟩
  · refine iff_of_false (fun h => ?_) fun hn => hd hn.1
    unfold roll at h
    split at h
    next => cases h
    next hf =>
      split at h
      next => cases h
      next hc => exact hd ⟨by omega, by omega⟩

/-- Exact evaluation ends with an overflow at a result that does not fit, and nowhere else. -/
theorem Term.exact_eq_overflow_iff {r : Roller σ} {limit : Option UInt64} {term : Term}
    {t : Tally σ} : term.exact r limit t = .error .overflow ↔ term.Outgrows r limit t := by
  constructor
  · intro h
    induction term generalizing t with
    | int value => cases h
    | dice count faces =>
      obtain ⟨hd, ha, hf⟩ := Tally.roll_eq_overflow_iff.1 h
      exact .dice hd ha hf
    | binary left op right ihl ihr =>
      rcases hl : left.exact r limit t with e | ⟨x, t'⟩
      · rw [exact_of_left_error hl] at h
        exact .left (ihl (hl.trans h))
      · rcases hr : right.exact r limit t' with e | ⟨y, t''⟩
        · rw [exact_of_right_error hl hr] at h
          exact .right hl (ihr (hr.trans h))
        · rw [exact_of_ok hl hr, map_eq_error_iff] at h
          rcases hz : op.exact x y with e | z
          · rw [hz] at h
            exact absurd (hz.trans h) (op.exact_ne_overflow x y)
          · rw [hz] at h
            exact .node hl hr hz (fitting_eq_overflow_iff.1 h)
  · intro h
    induction h with
    | dice hd ha hf => exact Tally.roll_eq_overflow_iff.2 ⟨hd, ha, hf⟩
    | left _ ih => exact exact_of_left_error ih
    | right hl _ ih => exact exact_of_right_error hl ih
    | node hl hr hz hf =>
      rw [exact_of_ok hl hr, hz, map_eq_error_iff]
      exact fitting_eq_overflow_iff.2 hf

/-- **Evaluation is exact.** -/
theorem eval_exact (r : Roller σ) (term : Term) (cup : Cup σ) :
    (term.exact r cup.limit cup.tally =
      (term.eval r cup).1.map fun x => (x.toInt, (term.eval r cup).2.tally)) ∧
    ((term.eval r cup).1 = .error .overflow ↔ term.Outgrows r cup.limit cup.tally) := by
  refine ⟨term.exact_eq_eval r cup, ?_⟩
  rw [← Term.exact_eq_overflow_iff, term.exact_eq_eval, map_eq_error_iff]

end DiceNotation
