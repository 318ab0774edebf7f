/-
What a limit is worth. Over whole games, no more dice fall from a cup than its
limit, unless that is the largest word; a cup that has refused a roll refuses
every other until it is cleared, and then it is as good as fresh (`budget`). Its
count is that of the dice asked for, which are those that have fallen only as long
as no roll was refused or ended early (`rolls_eq_drawn_iff`): a refused roll is
charged all the same, and with it the room that was left (`rolls_ne_drawn`).
-/
import DiceNotation.Proofs.Watch
import DiceNotation.Roller.Loaded

namespace DiceNotation

variable {σ : Type}

theorem limit_play (r : Roller σ) (limit : Option UInt64) (dice : σ) (moves : List Move) :
    (play r moves (.fresh limit dice)).2.limit = limit := by
  have hs := (Watch.sound_play r limit dice moves).limit_eq
  rw [Watch.cup_play] at hs
  have hc := play_counted r moves (Watch.fresh limit dice).cup
  exact (congrArg (fun result => result.2.limit) hc).trans hs

theorem uncounted_play (r : Roller σ) (limit : Option UInt64) (dice : σ) (moves : List Move) :
    ((Watch.fresh limit dice).play r moves).cup.uncounted =
      (play r moves (.fresh limit dice)).2 := by
  rw [Watch.cup_play]
  exact (congrArg Prod.snd (play_counted r moves (Watch.fresh limit dice).cup)).symm

/-- **The limit holds over whole games.** -/
theorem budget (max : UInt64) (hmax : max.toNat < 2 ^ 64 - 1) (r : Roller σ) (dice : σ)
    (moves : List Move) :
    let w := (Watch.fresh (some max) dice).play r moves
    let cup := (play r moves (.fresh (some max) dice)).2
    w.cup.uncounted = cup ∧
    w.drawn ≤ max.toNat ∧
    cup.rolls.toNat = min (2 ^ 64 - 1) (asked w.throws) ∧
    (∀ move : Move, (move.perform r cup).1.refused ↔ ∃ t ∈ move.throws r w.cup, t.refused) ∧
    (∀ before t later, w.throws = before ++ t :: later → t.refused →
      ∀ u ∈ later, Cup.Demand u.count u.faces → u.refused ∧ u.drawn = 0) ∧
    ∀ more, play r more (Move.clear.perform r cup).2 =
      play r more (.fresh (some max) cup.dice) := by
  intro w cup
  have hs : w.Sound (some max) := Watch.sound_play r (some max) dice moves
  have hcup : w.cup.uncounted = cup := uncounted_play r (some max) dice moves
  refine ⟨hcup, ?_, ?_, fun move => ?_, ?_, fun more => ?_⟩
  · rw [hs.drawn]
    exact hs.settled.drawn_le hmax
  · rw [← hcup]
    exact hs.rolls
  · rw [← hcup, move.perform_counted]
    exact move.refused_iff r w.cup
  · intro before t later hsplit ht u hu hd
    exact hs.settled.refused_of_refused hsplit ht hu hd
  · have hlimit : cup.limit = some max := limit_play r (some max) dice moves
    rw [Move.perform, Cup.clear, hlimit]

/-- A game with a roll that fits, one that does not, and one of no dice at all. -/
def crowdedGame : List Move := [.roll 6 6, .roll 6 6, .roll 0 6]

theorem budget_of_ten : (10 : UInt64).toNat < 2 ^ 64 - 1 ∧
    ((Watch.fresh (some 10) ()).play Roller.highest crowdedGame).drawn = 6 ∧
    ((Watch.fresh (some 10) ()).play Roller.highest crowdedGame).drawn ≤ (10 : UInt64).toNat := by
  have hmax : (10 : UInt64).toNat < 2 ^ 64 - 1 := by decide
  exact ⟨hmax, by decide, (budget 10 hmax Roller.highest () crowdedGame).2.1⟩

/-! ## The count and the dice -/

/-- **When the count is that of the dice that have fallen**: as long as every throw has had all the
dice it asked for. A throw that is refused or whose sum is too large is charged for the dice it has
not had, and they count against the limit like the others. -/
theorem rolls_eq_drawn_iff (limit : Option UInt64) (r : Roller σ) (dice : σ) (moves : List Move) :
    let w := (Watch.fresh limit dice).play r moves
    let cup := (play r moves (.fresh limit dice)).2
    w.cup.uncounted = cup ∧
    cup.rolls.toNat = min (2 ^ 64 - 1) (w.drawn + undrawn w.throws) ∧
    (w.drawn < 2 ^ 64 - 1 →
      (cup.rolls.toNat = w.drawn ↔ ∀ t ∈ w.throws, t.drawn = t.asked)) ∧
    (∀ t ∈ w.throws, t.drawn ≠ t.asked → t.refused ∨ t.outcome = .error .overflow) ∧
    ∀ count faces, Cup.Demand count faces →
      ((cup.roll r count faces).1 = .error .tooManyRolls ↔
        Above limit (min (2 ^ 64 - 1) (w.drawn + undrawn w.throws + count.toInt.toNat))) := by
  intro w cup
  have hs : w.Sound limit := Watch.sound_play r limit dice moves
  have hcup : w.cup.uncounted = cup := uncounted_play r limit dice moves
  have hasked : w.drawn + undrawn w.throws = asked w.throws := by
    rw [hs.drawn, hs.settled.drawn_add_undrawn]
  have hrolls : cup.rolls.toNat = min (2 ^ 64 - 1) (w.drawn + undrawn w.throws) := by
    rw [← hcup, hasked]
    exact hs.rolls
  refine ⟨hcup, hrolls, fun hlt => ?_, fun t ht hne => ?_, fun count faces hd => ?_⟩
  · rw [← hs.settled.undrawn_eq_zero_iff, hrolls]
    omega
  · exact (hs.settled.after_of_mem ht).elim fun _ ha => ha.drawn_eq.resolve_left hne
  · have hb := (w.cup.rolled r.counted count faces).booked
    have hdemanded : demanded count faces = count.toInt.toNat := if_pos hd
    have hcharged : (w.cup.roll r.counted count faces).2.rolls.toNat =
        min (2 ^ 64 - 1) (w.drawn + undrawn w.throws + count.toInt.toNat) := by
      have := hb.rolls
      have := hs.rolls
      omega
    rw [← hcup, Cup.roll_counted, hb.refused_iff, hcharged, hs.limit_eq]
    exact and_iff_right hd

/-- With room for 10 dice, a second roll of 6 is refused, and after it a roll of 2, though only 6
have fallen. -/
theorem rolls_ne_drawn :
    let w := (Watch.fresh (some 10) ()).play Roller.highest [.roll 6 6, .roll 6 6]
    w.drawn = 6 ∧ w.cup.rolls = 12 ∧
      (w.cup.uncounted.roll Roller.highest 2 6).1 = .error .tooManyRolls := by
  refine ⟨by decide, by decide, rfl⟩

end DiceNotation
