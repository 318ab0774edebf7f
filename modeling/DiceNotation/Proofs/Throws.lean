/-
The throws at a table: every dice node that evaluation comes to, with what came of
it and how many dice fell. A cup changes by throws alone until it is cleared
(`Move.thrown`), and of each throw it is settled by those before it whether it is
refused (`Throw.After`). So a cup that is watched keeps its books
(`Watch.sound_play`): its count is that of the dice asked for, held at the largest
word, and the dice that have fallen are those of its throws.
-/
import DiceNotation.Proofs.Table

namespace DiceNotation

variable {σ : Type}

instance (count faces : Int64) : Decidable (Cup.Demand count faces) :=
  inferInstanceAs (Decidable (_ ∧ _))

/-- The dice that a demand asks for. There are none if no dice can meet it. -/
def demanded (count faces : Int64) : Nat :=
  if Cup.Demand count faces then count.toInt.toNat else 0

/-- A dice node as evaluation comes to it: its demand, what comes of it, and how many dice fall. -/
structure Throw where
  count : Int64
  faces : Int64
  outcome : Outcome
  drawn : Nat

def Throw.asked (t : Throw) : Nat := demanded t.count t.faces

def Throw.refused (t : Throw) : Prop := t.outcome = .error .tooManyRolls

/-- All dice that throws ask for. -/
def asked (ts : List Throw) : Nat := (ts.map Throw.asked).sum

/-- All dice that fall in throws. -/
def drawn (ts : List Throw) : Nat := (ts.map Throw.drawn).sum

/-- The throw that a roll from the cup is. -/
def Cup.throw (r : Roller σ) (count faces : Int64) (cup : Cup (σ × Nat)) : Throw :=
  ⟨count, faces, (cup.roll r.counted count faces).1,
    (cup.roll r.counted count faces).2.dice.2 - cup.dice.2⟩

/-- The throws of a term, in order, up to the first node that fails. -/
def Term.throws (r : Roller σ) : Term → Cup (σ × Nat) → List Throw
  | .int _, _ => []
  | .dice count faces, cup => [cup.throw r count faces]
  | .binary left _ right, cup =>
    left.throws r cup ++
      match left.eval r.counted cup with
      | (.error _, _) => []
      | (.ok _, cup) => right.throws r cup

/-- The throws of equations one after the other. -/
def throwsOfAll (r : Roller σ) : List Equation → Cup (σ × Nat) → List Throw
  | [], _ => []
  | equation :: equations, cup =>
    equation.term.throws r cup ++ throwsOfAll r equations (equation.term.eval r.counted cup).2

/-- The throws of equations up to the first that has no value. -/
def throwsToError (r : Roller σ) : List Equation → Cup (σ × Nat) → List Throw
  | [], _ => []
  | equation :: equations, cup =>
    equation.term.throws r cup ++
      match equation.term.eval r.counted cup with
      | (.error _, _) => []
      | (.ok _, cup) => throwsToError r equations cup

def Move.throws (r : Roller σ) (cup : Cup (σ × Nat)) : Move → List Throw
  | .eval term => term.throws r cup
  | .roll count faces => [cup.throw r count faces]
  | .respond s =>
    match Formula.parse s with
    | .error _ => []
    | .ok formula => throwsOfAll r formula.equations cup
  | .evaluate s =>
    match Formula.parse s with
    | .error _ => []
    | .ok formula => throwsToError r formula.equations cup
  | .clear => []

/-! ## A cup changes by throws -/

/-- From one cup to another by throws alone. -/
inductive Thrown (r : Roller σ) : Cup (σ × Nat) → List Throw → Cup (σ × Nat) → Prop
  | nil {cup : Cup (σ × Nat)} : Thrown r cup [] cup
  | cons {cup cup' : Cup (σ × Nat)} {count faces : Int64} {ts : List Throw} :
    Thrown r (cup.roll r.counted count faces).2 ts cup' →
    Thrown r cup (cup.throw r count faces :: ts) cup'

theorem Thrown.append {r : Roller σ} {cup cup' cup'' : Cup (σ × Nat)} {ts us : List Throw}
    (h : Thrown r cup ts cup') (h' : Thrown r cup' us cup'') : Thrown r cup (ts ++ us) cup'' := by
  induction h with
  | nil => exact h'
  | cons _ ih => exact .cons (ih h')

theorem Term.Evaluates.thrown {r : Roller σ} {term : Term} {cup cup' : Cup (σ × Nat)}
    {outcome : Outcome} (h : Evaluates r.counted term cup outcome cup') :
    Thrown r cup (term.throws r cup) cup' := by
  induction h with
  | int => exact .nil
  | dice h =>
    refine .cons ?_
    rw [h.eq]
    exact .nil
  | left hl ih =>
    rw [throws, hl.eq]
    exact ih.append .nil
  | right hl _ ihl ihr | node hl _ ihl ihr =>
    rw [throws, hl.eq]
    exact ihl.append ihr

theorem Term.thrown (r : Roller σ) (term : Term) (cup : Cup (σ × Nat)) :
    Thrown r cup (term.throws r cup) (term.eval r.counted cup).2 :=
  (term.evaluates r.counted cup).thrown

theorem thrown_outcomesFrom (r : Roller σ) (index : Nat) (equations : List Equation)
    (cup : Cup (σ × Nat)) :
    Thrown r cup (throwsOfAll r equations cup) (outcomesFrom r.counted index equations cup).2 := by
  induction equations generalizing index cup with
  | nil => exact .nil
  | cons equation equations ih => exact (equation.term.thrown r cup).append (ih _ _)

theorem thrown_valuesFrom (r : Roller σ) (index : Nat) (equations : List Equation)
    (cup : Cup (σ × Nat)) :
    Thrown r cup (throwsToError r equations cup) (valuesFrom r.counted index equations cup).2 := by
  induction equations generalizing index cup with
  | nil => exact .nil
  | cons equation equations ih =>
    have hterm := equation.term.thrown r cup
    unfold throwsToError valuesFrom
    rcases he : equation.term.eval r.counted cup with ⟨e | x, cup'⟩
    · rw [he] at hterm
      exact hterm.append .nil
    · rw [he] at hterm
      have hrest := ih (index + 1) cup'
      dsimp only
      rcases hv : valuesFrom r.counted (index + 1) equations cup' with ⟨e | values, cup''⟩
      · rw [hv] at hrest
        exact hterm.append hrest
      · rw [hv] at hrest
        exact hterm.append hrest

/-- A move that does not clear the cup changes it by its throws. -/
theorem Move.thrown (r : Roller σ) {move : Move} (hm : move ≠ .clear) (cup : Cup (σ × Nat)) :
    Thrown r cup (move.throws r cup) (move.perform r.counted cup).2 := by
  cases move with
  | eval term => exact term.thrown r cup
  | roll count faces => exact .cons .nil
  | respond s =>
    rw [throws, perform, DiceNotation.respond]
    rcases Formula.parse s with e | formula
    · exact .nil
    · exact thrown_outcomesFrom r 0 formula.equations cup
  | evaluate s =>
    rw [throws, perform, DiceNotation.evaluate]
    rcases Formula.parse s with e | formula
    · exact .nil
    · exact thrown_valuesFrom r 0 formula.equations cup
  | clear => exact absurd rfl hm

/-! ## Refusals are told -/

/-- The answer says that a roll was refused. -/
def Answer.refused : Answer → Prop
  | .outcome o => o = .error .tooManyRolls
  | .response a => ∃ os label, a.results = .ok os ∧ (label, .error .tooManyRolls) ∈ os
  | .values v => ∃ label, v = .error (.domainError label .tooManyRolls)
  | .cleared => False

theorem Operator.apply_ne_tooManyRolls (op : Operator) (x y : Int64) :
    op.apply x y ≠ .error .tooManyRolls := fun h => nomatch apply_error h

theorem exists_refused_append {ts us : List Throw} : (∃ t ∈ ts ++ us, t.refused) ↔
    (∃ t ∈ ts, t.refused) ∨ ∃ t ∈ us, t.refused := by
  simp only [List.mem_append, or_and_right, exists_or]

theorem not_exists_refused_nil : ¬ ∃ t ∈ ([] : List Throw), t.refused := nofun

theorem ok_ne_error {ε α : Type} {x : α} {e : ε} : Except.ok x ≠ .error e := nofun

theorem Term.Evaluates.refused_iff {r : Roller σ} {term : Term} {cup cup' : Cup (σ × Nat)}
    {outcome : Outcome} (h : Evaluates r.counted term cup outcome cup') :
    outcome = .error .tooManyRolls ↔ ∃ t ∈ term.throws r cup, t.refused := by
  induction h with
  | int => exact iff_of_false ok_ne_error not_exists_refused_nil
  | dice h => simp [throws, Cup.throw, Throw.refused, h.eq]
  | left hl ih =>
    rw [throws, hl.eq, exists_refused_append, or_iff_left not_exists_refused_nil]
    exact ih
  | right hl _ ihl ihr =>
    rw [throws, hl.eq, exists_refused_append, ← ihl, or_iff_right ok_ne_error]
    exact ihr
  | @node _ _ op _ _ _ x y hl _ ihl ihr =>
    rw [throws, hl.eq, exists_refused_append, ← ihl, or_iff_right ok_ne_error]
    dsimp only
    rw [← ihr]
    exact iff_of_false (op.apply_ne_tooManyRolls x y) ok_ne_error

theorem Term.refused_iff (r : Roller σ) (term : Term) (cup : Cup (σ × Nat)) :
    (term.eval r.counted cup).1 = .error .tooManyRolls ↔ ∃ t ∈ term.throws r cup, t.refused :=
  (term.evaluates r.counted cup).refused_iff

theorem refused_outcomesFrom (r : Roller σ) (index : Nat) (equations : List Equation)
    (cup : Cup (σ × Nat)) :
    (∃ label, (label, .error .tooManyRolls) ∈ (outcomesFrom r.counted index equations cup).1) ↔
      ∃ t ∈ throwsOfAll r equations cup, t.refused := by
  induction equations generalizing index cup with
  | nil => exact iff_of_false nofun not_exists_refused_nil
  | cons equation equations ih =>
    have hterm := equation.term.refused_iff r cup
    rw [outcomesFrom, throwsOfAll, exists_refused_append, ← hterm, ← ih (index + 1)]
    simp only [List.mem_cons, Prod.mk.injEq, exists_or, exists_eq_left]
    rw [eq_comm]

theorem refused_valuesFrom (r : Roller σ) (index : Nat) (equations : List Equation)
    (cup : Cup (σ × Nat)) :
    (∃ label, (valuesFrom r.counted index equations cup).1 =
      .error (.domainError label .tooManyRolls)) ↔
      ∃ t ∈ throwsToError r equations cup, t.refused := by
  induction equations generalizing index cup with
  | nil => exact iff_of_false (not_exists.2 fun _ => ok_ne_error) not_exists_refused_nil
  | cons equation equations ih =>
    have hterm := equation.term.refused_iff r cup
    rw [throwsToError, exists_refused_append, ← hterm]
    unfold valuesFrom
    rcases equation.term.eval r.counted cup with ⟨e | x, cup'⟩
    · simp
    · have hrest := ih (index + 1) cup'
      dsimp only
      rw [← hrest, or_iff_right ok_ne_error]
      rcases valuesFrom r.counted (index + 1) equations cup' with ⟨e | values, cup''⟩
      · exact Iff.rfl
      · simp

/-- An answer tells of a refusal exactly if a throw was refused. -/
theorem Move.refused_iff (r : Roller σ) (move : Move) (cup : Cup (σ × Nat)) :
    (move.perform r.counted cup).1.refused ↔ ∃ t ∈ move.throws r cup, t.refused := by
  cases move with
  | eval term => exact term.refused_iff r cup
  | roll count faces => exact (Term.dice count faces).refused_iff r cup
  | respond s =>
    rw [throws, perform, DiceNotation.respond]
    rcases Formula.parse s with e | formula
    · exact iff_of_false (by simp [Answer.refused]) not_exists_refused_nil
    · refine Iff.trans ?_ (refused_outcomesFrom r 0 formula.equations cup)
      simp [Answer.refused]
  | evaluate s =>
    rw [throws, perform, DiceNotation.evaluate]
    rcases Formula.parse s with e | formula
    · exact iff_of_false (by simp [Answer.refused]) not_exists_refused_nil
    · exact refused_valuesFrom r 0 formula.equations cup
  | clear => exact iff_of_false id not_exists_refused_nil

/-! ## What settles a throw -/

/-- What holds of a throw after those before it: it is refused exactly if the dice asked for, its own
with them, are above the limit, and then no dice fall. Never do more fall than are asked for, and
fewer only if it is refused or its sum is too large. -/
structure Throw.After (limit : Option UInt64) (before : List Throw) (t : Throw) : Prop where
  refused_iff : t.refused ↔ Cup.Demand t.count t.faces ∧
    Above limit (min (2 ^ 64 - 1) (DiceNotation.asked before + t.asked))
  drawn_le : t.drawn ≤ t.asked
  drawn_of_refused : t.refused → t.drawn = 0
  drawn_eq : t.drawn = t.asked ∨ t.refused ∨ t.outcome = .error .overflow

/-- Each of the throws is settled by those before it. -/
inductive Settled (limit : Option UInt64) : List Throw → Prop
  | nil : Settled limit []
  | concat {ts : List Throw} {t : Throw} : Settled limit ts → t.After limit ts →
    Settled limit (ts ++ [t])

@[simp] theorem asked_nil : asked [] = 0 := rfl

@[simp] theorem drawn_nil : drawn [] = 0 := rfl

@[simp] theorem asked_append (ts us : List Throw) : asked (ts ++ us) = asked ts + asked us := by
  simp [asked]

@[simp] theorem drawn_append (ts us : List Throw) : drawn (ts ++ us) = drawn ts + drawn us := by
  simp [drawn]

@[simp] theorem asked_cons (t : Throw) (ts : List Throw) : asked (t :: ts) = t.asked + asked ts := by
  simp [asked]

@[simp] theorem drawn_cons (t : Throw) (ts : List Throw) : drawn (t :: ts) = t.drawn + drawn ts := by
  simp [drawn]

/-- The books of one roll: what is charged, when it is refused, and how many dice fall. -/
structure Cup.Booked (count faces : Int64) (cup : Cup (σ × Nat)) (outcome : Outcome)
    (cup' : Cup (σ × Nat)) : Prop where
  rolls : cup'.rolls.toNat = min (2 ^ 64 - 1) (cup.rolls.toNat + demanded count faces)
  refused_iff : outcome = .error .tooManyRolls ↔
    Demand count faces ∧ Above cup.limit cup'.rolls.toNat
  le_dice : cup.dice.2 ≤ cup'.dice.2
  dice_le : cup'.dice.2 ≤ cup.dice.2 + demanded count faces
  dice_of_refused : outcome = .error .tooManyRolls → cup'.dice.2 = cup.dice.2
  dice_eq : cup'.dice.2 = cup.dice.2 + demanded count faces ∨ outcome = .error .tooManyRolls ∨
    outcome = .error .overflow

/-- A demand that no dice can meet changes no book. -/
theorem Cup.booked_of_not_demand {count faces : Int64} {cup : Cup (σ × Nat)} {outcome : Outcome}
    (hd : ¬ Demand count faces) (ho : outcome ≠ .error .tooManyRolls) :
    Booked count faces cup outcome cup := by
  have hword := cup.rolls.toNat_lt
  have h0 : demanded count faces = 0 := if_neg hd
  exact ⟨by omega, iff_of_false ho fun h => hd h.1, by omega, by omega, fun h => absurd h ho,
    .inl (by omega)⟩

/-- Dice that are thrown are charged as they were demanded, also where not all of them fall. -/
theorem Cup.booked_of_sum {r : Roller σ} {count faces : Int64} {cup cup' : Cup (σ × Nat)}
    {outcome : Outcome} {sum : Option Int64} (hd : Demand count faces)
    (hroom : (cup.charge count.toUInt64).overdrawn = false)
    (hs : r.counted.sum faces.toUInt64 count.toUInt64.toNat cup.dice = (sum, cup'.dice))
    (hrolls : cup'.rolls = (cup.charge count.toUInt64).rolls)
    (ho : outcome ≠ .error .tooManyRolls) (hall : sum.isSome ∨ outcome = .error .overflow) :
    Booked count faces cup outcome cup' := by
  have hdemand : demanded count faces = count.toInt.toNat := if_pos hd
  have hcharge := hd.rolls_charge cup
  have hlimit : ¬ Above cup.limit (cup.charge count.toUInt64).rolls.toNat :=
    overdrawn_eq_false_iff.1 hroom
  obtain ⟨hle, hge, hsome⟩ := r.counted_sum faces.toUInt64 count.toUInt64.toNat cup.dice
  rw [← hdemand, ← hrolls] at hcharge
  rw [← hrolls] at hlimit
  rw [hs, hd.toNat_count, ← hdemand] at hsome hge
  rw [hs] at hle
  exact ⟨hcharge, iff_of_false ho fun h => hlimit h.2, hle, hge, fun h => absurd h ho,
    hall.imp hsome .inr⟩

theorem Cup.Rolled.booked {r : Roller σ} {count faces : Int64} {cup cup' : Cup (σ × Nat)}
    {outcome : Outcome} (h : Rolled r.counted count faces cup outcome cup') :
    Booked count faces cup outcome cup' := by
  cases h with
  | invalidFaces hf => exact booked_of_not_demand (fun hd => by have := hd.1; omega) nofun
  | negativeCount hf hc => exact booked_of_not_demand (fun hd => by have := hd.2; omega) nofun
  | refused hd ho =>
    have hdemand : demanded count faces = count.toInt.toNat := if_pos hd
    have hcharge := hd.rolls_charge cup
    rw [← hdemand] at hcharge
    exact ⟨hcharge, iff_of_true rfl ⟨hd, overdrawn_iff.1 ho⟩, Nat.le_refl _, Nat.le_add_right _ _,
      fun _ => rfl, .inr (.inl rfl)⟩
  | overflow hd ho hs => exact booked_of_sum hd ho hs rfl nofun (.inr rfl)
  | total hd ho hs => exact booked_of_sum hd ho hs rfl nofun (.inl rfl)

/-- The dice that fall in a throw are those by which the count has grown. -/
theorem Cup.add_drawn_throw (r : Roller σ) (count faces : Int64) (cup : Cup (σ × Nat)) :
    cup.dice.2 + (cup.throw r count faces).drawn = (cup.roll r.counted count faces).2.dice.2 :=
  Nat.add_sub_cancel' (cup.rolled r.counted count faces).booked.le_dice

/-- A roll is settled by the throws that its cup has been charged for. -/
theorem Cup.throw_after {r : Roller σ} {count faces : Int64} {cup : Cup (σ × Nat)}
    {before : List Throw} (h : cup.rolls.toNat = min (2 ^ 64 - 1) (asked before)) :
    (cup.throw r count faces).After cup.limit before := by
  have hb := (cup.rolled r.counted count faces).booked
  have hdrawn := cup.add_drawn_throw r count faces
  have hasked : (cup.throw r count faces).asked = demanded count faces := rfl
  have hcharged : (cup.roll r.counted count faces).2.rolls.toNat =
      min (2 ^ 64 - 1) (asked before + (cup.throw r count faces).asked) := by
    have := hb.rolls
    omega
  refine ⟨?_, ?_, fun ht => ?_, ?_⟩
  · rw [← hcharged]
    exact hb.refused_iff
  · have := hb.dice_le
    omega
  · have := hb.dice_of_refused ht
    omega
  · refine hb.dice_eq.imp_left fun hdice => ?_
    omega

end DiceNotation
