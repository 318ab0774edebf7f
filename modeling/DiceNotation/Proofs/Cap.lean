/-
What a limit does to an evaluation: it can refuse, and nothing else. Beside the
evaluation without a limit stand the leaves that it comes to, each with the cup as
it is then (`Term.visits`). Unless one of them exceeds the limit, evaluation goes
the same way within it; otherwise it goes the same way up to the first that does,
which it refuses (`Term.evalWithin_eq_capped`). What is drawn by then are the first
of the dice that are drawn without a limit (`Term.Evaluates.dice_visits`).
-/
import DiceNotation.Proofs.Draws
import DiceNotation.Proofs.Throws

namespace DiceNotation

variable {σ : Type}

/-- The cup with another limit, or with none. -/
def Cup.withLimit (limit : Option UInt64) (cup : Cup σ) : Cup σ := { cup with limit }

/-- A dice leaf that evaluation comes to, and the cup as it is then. -/
structure Visit (σ : Type) where
  leaf : Leaf
  cup : Cup σ

/-- The dice leaves that evaluation comes to, in order, up to the first node that fails. -/
def Term.visits (r : Roller σ) : Term → Cup σ → List (Visit σ)
  | .int _, _ => []
  | .dice count faces, cup => [⟨⟨count, faces⟩, cup⟩]
  | .binary left _ right, cup =>
    left.visits r cup ++
      match left.eval r cup with
      | (.error _, _) => []
      | (.ok _, cup) => right.visits r cup

namespace Visit

/-- The leaf can be rolled, and its charge brings the count of the cup above the limit. -/
def Exceeds (limit : Option UInt64) (v : Visit σ) : Prop :=
  Cup.Demand v.leaf.count v.leaf.faces ∧
    Above limit (min (2 ^ 64 - 1) (v.cup.rolls.toNat + v.leaf.dice))

instance (limit : Option UInt64) (v : Visit σ) : Decidable (v.Exceeds limit) :=
  inferInstanceAs (Decidable (_ ∧ _))

/-- What a limit makes of the leaf: a refusal, with the leaf charged and no die rolled. -/
def refusal (limit : Option UInt64) (v : Visit σ) : Except DomainError Int64 × Cup σ :=
  (.error .tooManyRolls, (v.cup.charge v.leaf.count.toUInt64).withLimit limit)

end Visit

/-- What a limit makes of an evaluation that comes to `visits` without it: the refusal of the first
that exceeds it, or what came of the evaluation. -/
def capped (limit : Option UInt64) (visits : List (Visit σ))
    (free : Except DomainError Int64 × Cup σ) : Except DomainError Int64 × Cup σ :=
  match visits.find? fun v => v.Exceeds limit with
  | some v => v.refusal limit
  | none => (free.1, free.2.withLimit limit)

theorem capped_singleton (limit : Option UInt64) (v : Visit σ)
    (free : Except DomainError Int64 × Cup σ) : capped limit [v] free =
      if v.Exceeds limit then v.refusal limit else (free.1, free.2.withLimit limit) := by
  by_cases h : v.Exceeds limit <;> simp [capped, h]

/-! ## One roll -/

namespace Cup

variable {r : Roller σ} {count faces : Int64} {cup cup' : Cup σ} {limit : Option UInt64}
  {outcome : Except DomainError Int64}

theorem exceeds_iff (hd : Demand count faces) :
    (⟨⟨count, faces⟩, cup⟩ : Visit σ).Exceeds limit ↔
      ((cup.withLimit limit).charge count.toUInt64).overdrawn = true := by
  rw [overdrawn_iff, hd.rolls_charge]
  exact and_iff_right hd

theorem capped_of_not_demand (hd : ¬ Demand count faces) :
    capped limit [⟨⟨count, faces⟩, cup⟩] (outcome, cup') = (outcome, cup'.withLimit limit) := by
  rw [capped_singleton, if_neg fun h => hd h.1]

/-- A roll that there is room for without a limit is the same within it, or is refused. -/
theorem roll_withLimit (hd : Demand count faces)
    (h : ((cup.withLimit limit).charge count.toUInt64).overdrawn = false →
      Rolled r count faces (cup.withLimit limit) outcome (cup'.withLimit limit)) :
    (cup.withLimit limit).roll r count faces =
      capped limit [⟨⟨count, faces⟩, cup⟩] (outcome, cup') := by
  rw [capped_singleton]
  by_cases ho : ((cup.withLimit limit).charge count.toUInt64).overdrawn = true
  · rw [if_pos ((exceeds_iff hd).2 ho)]
    exact (Rolled.refused hd ho).eq
  · rw [if_neg ((exceeds_iff hd).not.2 ho)]
    exact (h (Bool.not_eq_true _ ▸ ho)).eq

theorem overdrawn_eq_false_of_limit (h : cup.limit = none) : cup.overdrawn = false := by
  rw [overdrawn, h]

theorem Rolled.withLimit (h : Rolled r count faces cup outcome cup') (hnone : cup.limit = none) :
    (cup.withLimit limit).roll r count faces =
      capped limit [⟨⟨count, faces⟩, cup⟩] (outcome, cup') := by
  cases h with
  | invalidFaces hf =>
    rw [capped_of_not_demand fun hd => by have := hd.1; omega]
    exact (Rolled.invalidFaces hf).eq
  | negativeCount hf hc =>
    rw [capped_of_not_demand fun hd => by have := hd.2; omega]
    exact (Rolled.negativeCount hf hc).eq
  | refused hd ho => cases ho.symm.trans (overdrawn_eq_false_of_limit hnone)
  | overflow hd _ hs => exact roll_withLimit hd fun ho => .overflow hd ho hs
  | total hd _ hs => exact roll_withLimit hd fun ho => .total hd ho hs

end Cup

/-! ## A term -/

variable {limit : Option UInt64} {visits more : List (Visit σ)} {v : Visit σ}
  {free : Except DomainError Int64 × Cup σ}

theorem capped_of_some (h : (visits.find? fun v => v.Exceeds limit) = some v) :
    capped limit visits free = v.refusal limit := by
  rw [capped, h]

theorem capped_of_none (h : (visits.find? fun v => v.Exceeds limit) = none) :
    capped limit visits free = (free.1, free.2.withLimit limit) := by
  rw [capped, h]

theorem capped_of_forall (h : ∀ v ∈ visits, ¬ v.Exceeds limit) :
    capped limit visits free = (free.1, free.2.withLimit limit) :=
  capped_of_none (List.find?_eq_none.2 (by simpa using h))

theorem capped_of_exists (h : ∃ v ∈ visits, v.Exceeds limit) : ∃ before v after,
    visits = before ++ v :: after ∧ (∀ u ∈ before, ¬ u.Exceeds limit) ∧ v.Exceeds limit ∧
      ∀ free, capped limit visits free = v.refusal limit := by
  rcases hv : visits.find? fun v => v.Exceeds limit with _ | v
  · obtain ⟨u, hu, hx⟩ := h
    exact absurd (decide_eq_true hx) (List.find?_eq_none.1 hv u hu)
  · obtain ⟨hx, before, after, hvisits, hbefore⟩ := List.find?_eq_some_iff_append.1 hv
    exact ⟨before, v, after, hvisits, by simpa using hbefore, of_decide_eq_true hx,
      fun _ => capped_of_some hv⟩

theorem capped_append_of_some (h : (visits.find? fun v => v.Exceeds limit) = some v) :
    capped limit (visits ++ more) free = v.refusal limit := by
  rw [capped, List.find?_append, h]
  rfl

theorem capped_append_of_none (h : (visits.find? fun v => v.Exceeds limit) = none) :
    capped limit (visits ++ more) free = capped limit more free := by
  rw [capped, List.find?_append, h, capped]
  rfl

/-- An evaluation that fails without a limit fails within it, if not for the same reason. -/
theorem exists_capped_eq_error (limit : Option UInt64) (visits : List (Visit σ)) (e : DomainError)
    (cup : Cup σ) : ∃ e' cup', capped limit visits (.error e, cup) = (.error e', cup') := by
  rcases hv : visits.find? fun v => v.Exceeds limit with _ | v
  · exact ⟨_, _, capped_of_none hv⟩
  · exact ⟨_, _, capped_of_some hv⟩

namespace Term

variable {r : Roller σ} {term left right : Term} {op : Operator} {cup cup' : Cup σ} {x : Int64}
  {outcome : Except DomainError Int64}

theorem eval_of_left_capped (hl : left.eval r cup = capped limit visits (.ok x, cup'))
    (h : left.eval r cup = (.ok x, cup'.withLimit limit) →
      (binary left op right).eval r cup = capped limit more free) :
    (binary left op right).eval r cup = capped limit (visits ++ more) free := by
  rcases hv : visits.find? fun v => v.Exceeds limit with _ | v
  · rw [capped_append_of_none hv]
    exact h (hl.trans (capped_of_none hv))
  · rw [capped_append_of_some hv]
    exact eval_of_left_error (hl.trans (capped_of_some hv))

/-- **Within a limit** evaluation goes as it does without it, up to the first leaf that exceeds the
limit. -/
theorem Evaluates.withLimit (h : Evaluates r term cup outcome cup') (hnone : cup.limit = none)
    (limit : Option UInt64) :
    term.eval r (cup.withLimit limit) = capped limit (term.visits r cup) (outcome, cup') := by
  -- The right operand starts from the cup that the left one leaves, which has no limit either.
  induction h with
  | int => rfl
  | dice h => exact h.withLimit hnone
  | left hl ih =>
    specialize ih hnone
    rw [visits, hl.eq]
    dsimp only
    rw [List.append_nil]
    obtain ⟨e', last, hc⟩ := exists_capped_eq_error limit (visits r _ _) _ _
    rw [hc] at ih ⊢
    exact eval_of_left_error ih
  | @right left right op cup cup' cup'' x e hl hr ihl ihr =>
    specialize ihr (hl.limit_eq.trans hnone)
    rw [visits, hl.eq]
    refine eval_of_left_capped (ihl hnone) fun hleft => ?_
    obtain ⟨e', last, hc⟩ := exists_capped_eq_error limit (right.visits r cup') e cup''
    rw [hc] at ihr ⊢
    exact eval_of_right_error hleft ihr
  | @node left right op cup cup' cup'' x y hl hr ihl ihr =>
    specialize ihr (hl.limit_eq.trans hnone)
    rw [visits, hl.eq]
    refine eval_of_left_capped (ihl hnone) fun hleft => ?_
    rcases hv : (right.visits r cup').find? fun v => v.Exceeds limit with _ | v
    · rw [capped_of_none hv] at ihr ⊢
      exact eval_of_ok hleft ihr
    · rw [capped_of_some hv] at ihr ⊢
      exact eval_of_right_error hleft ihr

theorem Evaluates.dice_isPrefix {r : Roller σ} {cup cup' : Cup (σ × List Draw)}
    (h : Evaluates r.recorded term cup outcome cup') : cup.dice.2 <+: cup'.dice.2 := by
  obtain ⟨draws, hdraws, -⟩ := h.draws
  exact ⟨draws, hdraws.symm⟩

/-- Where evaluation comes to a leaf, the first of its dice are drawn. -/
theorem Evaluates.dice_visits {r : Roller σ} {cup cup' : Cup (σ × List Draw)}
    (h : Evaluates r.recorded term cup outcome cup') :
    ∀ v ∈ term.visits r.recorded cup, v.cup.dice.2 <+: cup'.dice.2 := by
  induction h with
  | int => exact nofun
  | dice h => exact List.forall_mem_singleton.2 (Evaluates.dice h).dice_isPrefix
  | left hl ih =>
    rw [visits, hl.eq]
    dsimp only
    rwa [List.append_nil]
  | right hl hr ihl ihr | node hl hr ihl ihr =>
    rw [visits, hl.eq, List.forall_mem_append]
    exact ⟨fun v hv => (ihl v hv).trans hr.dice_isPrefix, ihr⟩

/-- The evaluation of a term from the cup as it would be with another limit. -/
def evalWithin (r : Roller σ) (limit : Option UInt64) (term : Term) (cup : Cup σ) :
    Except DomainError Int64 × Cup σ := term.eval r (cup.withLimit limit)

theorem evalWithin_eq_capped (r : Roller σ) (limit : Option UInt64) (term : Term) (cup : Cup σ) :
    term.evalWithin r limit cup =
      capped limit (term.visits r (cup.withLimit none)) (term.evalWithin r none cup) :=
  (term.evaluates r (cup.withLimit none)).withLimit rfl limit

end Term

theorem Visit.Exceeds.of_le {max : UInt64} (hle : ∀ m ∈ limit, max ≤ m) (h : v.Exceeds limit) :
    v.Exceeds (some max) := by
  obtain ⟨hd, m, hm, habove⟩ := h
  have := UInt64.le_iff_toNat_le.1 (hle m hm)
  exact ⟨hd, max, rfl, by omega⟩

/-- **A limit can only refuse.** Where evaluation without a limit comes to no leaf that exceeds
`max`, evaluation within `max` has the same outcome and leaves the same count of dice, the same state
of the roller and the same dice drawn. Otherwise it is refused, once it has drawn the dice that are
drawn without a limit before the first such leaf, and no more. So a higher limit, or none, changes no
outcome but a refusal. -/
theorem limit_only_refuses (r : Roller σ) (term : Term) (cup : Cup (σ × List Draw))
    (max : UInt64) :
    (∀ c : Cup (σ × List Draw), term.eval r c.unrecorded =
        ((term.eval r.recorded c).1, (term.eval r.recorded c).2.unrecorded)) ∧
      ((∀ v ∈ term.visits r.recorded (cup.withLimit none), ¬ v.Exceeds (some max)) →
        term.evalWithin r.recorded (some max) cup =
          ((term.evalWithin r.recorded none cup).1,
            (term.evalWithin r.recorded none cup).2.withLimit (some max))) ∧
      ((∃ v ∈ term.visits r.recorded (cup.withLimit none), v.Exceeds (some max)) →
        ∃ before v after, term.visits r.recorded (cup.withLimit none) = before ++ v :: after ∧
          (∀ u ∈ before, ¬ u.Exceeds (some max)) ∧ v.Exceeds (some max) ∧
          (term.evalWithin r.recorded (some max) cup).1 = .error .tooManyRolls ∧
          (term.evalWithin r.recorded (some max) cup).2.dice = v.cup.dice ∧
          v.cup.dice.2 <+: (term.evalWithin r.recorded none cup).2.dice.2) ∧
      ∀ limit, (∀ m ∈ limit, max ≤ m) →
        (term.evalWithin r.recorded (some max) cup).1 ≠ .error .tooManyRolls →
        term.evalWithin r.recorded limit cup =
          ((term.evalWithin r.recorded (some max) cup).1,
            (term.evalWithin r.recorded (some max) cup).2.withLimit limit) := by
  have hcapped (limit : Option UInt64) := term.evalWithin_eq_capped r.recorded limit cup
  refine ⟨term.eval_recorded r, fun h => ?_, fun h => ?_, fun limit hle hne => ?_⟩
  · rw [hcapped (some max), capped_of_forall h]
  · obtain ⟨before, v, after, hvisits, hbefore, hv, hrefused⟩ := capped_of_exists h
    have hdice := (term.evaluates r.recorded (cup.withLimit none)).dice_visits v
    rw [hcapped (some max), hrefused]
    exact ⟨before, v, after, hvisits, hbefore, hv, rfl, rfl, hdice (by simp [hvisits])⟩
  · by_cases h : ∃ v ∈ term.visits r.recorded (cup.withLimit none), v.Exceeds (some max)
    · obtain ⟨_, v, _, _, _, _, hrefused⟩ := capped_of_exists h
      rw [hcapped (some max), hrefused] at hne
      exact absurd rfl hne
    · have hmax : ∀ v ∈ term.visits r.recorded (cup.withLimit none), ¬ v.Exceeds (some max) :=
        fun v hv hx => h ⟨v, hv, hx⟩
      rw [hcapped limit, hcapped (some max), capped_of_forall hmax,
        capped_of_forall fun v hv hx => hmax v hv (hx.of_le hle)]
      rfl

/-- A limit of eleven dice changes nothing about `2d6+9d6`, nor does one above it. With a limit of
ten the second leaf is refused: the dice of the first have fallen, and none of its own. -/
theorem limits_of_ten_and_eleven :
    let term := Term.binary (.dice 2 6) .add (.dice 9 6)
    let cup : Cup (Unit × List Draw) := .fresh none ((), [])
    let within (limit : Option UInt64) := term.evalWithin Roller.highest.recorded limit cup
    (∀ v ∈ term.visits Roller.highest.recorded (cup.withLimit none), ¬ v.Exceeds (some 11)) ∧
      within (some 11) = ((within none).1, (within none).2.withLimit (some 11)) ∧
      within (some 12) = ((within (some 11)).1, (within (some 11)).2.withLimit (some 12)) ∧
      (∃ v ∈ term.visits Roller.highest.recorded (cup.withLimit none), v.Exceeds (some 10)) ∧
      (within (some 10)).1 = .error .tooManyRolls ∧
      (within (some 10)).2.dice.2 = [⟨6, 6⟩, ⟨6, 6⟩] := by
  intro term cup within
  have heleven : ∀ v ∈ term.visits Roller.highest.recorded (cup.withLimit none),
      ¬ v.Exceeds (some 11) := by decide +kernel
  have hten : ∃ v ∈ term.visits Roller.highest.recorded (cup.withLimit none),
      v.Exceeds (some 10) := by decide +kernel
  have haccepted : (within (some 11)).1 ≠ .error .tooManyRolls := by decide +kernel
  have hle : ∀ m ∈ some (12 : UInt64), 11 ≤ m := by
    rintro m ⟨⟩
    decide
  obtain ⟨-, hfree, -, hhigher⟩ := limit_only_refuses Roller.highest term cup 11
  obtain ⟨-, -, hrefused, -⟩ := limit_only_refuses Roller.highest term cup 10
  obtain ⟨_, _, _, _, _, _, herror, _⟩ := hrefused hten
  refine ⟨heleven, hfree heleven, hhigher (some 12) hle haccepted, hten, herror, ?_⟩
  decide +kernel

end DiceNotation
