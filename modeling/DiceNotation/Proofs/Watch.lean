/-
A cup that is watched: beside it stand the throws since it was last cleared and
the number of dice that had fallen by then. Its books stay sound whatever is done
with it (`Watch.sound_play`), and in sound books no more dice fall than the limit
allows (`Settled.drawn_le`), and a throw that is refused has every later one refused
(`Settled.refused_of_refused`).
-/
import DiceNotation.Proofs.Throws

namespace DiceNotation

variable {σ : Type}

/-- A cup whose dice are counted, the throws since it was last cleared, and the dice that had fallen
when it was. -/
structure Watch (σ : Type) where
  cup : Cup (σ × Nat)
  throws : List Throw
  start : Nat

namespace Watch

/-- A fresh cup with nothing thrown from it. -/
def fresh (limit : Option UInt64) (dice : σ) : Watch σ := ⟨.fresh limit (dice, 0), [], 0⟩

/-- The dice that have fallen since the cup was last cleared. -/
def drawn (w : Watch σ) : Nat := w.cup.dice.2 - w.start

def perform (r : Roller σ) (w : Watch σ) : Move → Watch σ
  | .clear => ⟨w.cup.clear, [], w.cup.dice.2⟩
  | move => { w with
    cup := (move.perform r.counted w.cup).2
    throws := w.throws ++ move.throws r w.cup }

def play (r : Roller σ) (moves : List Move) (w : Watch σ) : Watch σ := moves.foldl (perform r) w

theorem perform_of_ne_clear (r : Roller σ) (w : Watch σ) {move : Move} (hm : move ≠ .clear) :
    w.perform r move = { w with
      cup := (move.perform r.counted w.cup).2
      throws := w.throws ++ move.throws r w.cup } := by
  cases move with
  | eval | roll | respond | evaluate => rfl
  | clear => exact absurd rfl hm

theorem cup_perform (r : Roller σ) (w : Watch σ) (move : Move) :
    (w.perform r move).cup = (move.perform r.counted w.cup).2 := by
  cases move with
  | eval | roll | respond | evaluate | clear => rfl

/-- To watch a cup is to leave it as it is. -/
theorem cup_play (r : Roller σ) (moves : List Move) (w : Watch σ) :
    (w.play r moves).cup = (DiceNotation.play r.counted moves w.cup).2 := by
  induction moves generalizing w with
  | nil => rfl
  | cons move moves ih => exact (ih (w.perform r move)).trans (by rw [cup_perform]; rfl)

/-! ## Sound books -/

/-- The count of the cup is that of the dice asked for, the dice that have fallen are those of the
throws, and each throw is settled by those before it. -/
structure Sound (limit : Option UInt64) (w : Watch σ) : Prop where
  limit_eq : w.cup.limit = limit
  rolls : w.cup.rolls.toNat = min (2 ^ 64 - 1) (asked w.throws)
  dice : w.cup.dice.2 = w.start + DiceNotation.drawn w.throws
  settled : Settled limit w.throws

theorem sound_fresh (limit : Option UInt64) (dice : σ) : Sound limit (fresh limit dice) :=
  ⟨rfl, rfl, rfl, .nil⟩

theorem Sound.drawn {limit : Option UInt64} {w : Watch σ} (h : Sound limit w) :
    w.drawn = DiceNotation.drawn w.throws := by
  rw [Watch.drawn, h.dice, Nat.add_sub_cancel_left]

theorem Sound.roll {r : Roller σ} {limit : Option UInt64} {w : Watch σ} (h : Sound limit w)
    (count faces : Int64) : Sound limit { w with
      cup := (w.cup.roll r.counted count faces).2
      throws := w.throws ++ [w.cup.throw r count faces] } := by
  have hb := (w.cup.rolled r.counted count faces).booked
  have hthrow := w.cup.add_drawn_throw r count faces
  have hasked : (w.cup.throw r count faces).asked = demanded count faces := rfl
  refine ⟨?_, ?_, ?_, ?_⟩
  · exact (Cup.limit_roll r.counted count faces w.cup).trans h.limit_eq
  · have hrolls := hb.rolls
    have hbefore := h.rolls
    simp only [asked_append, asked_cons, asked_nil]
    omega
  · have hdice := h.dice
    simp only [drawn_append, drawn_cons, drawn_nil]
    omega
  · exact .concat h.settled (h.limit_eq ▸ Cup.throw_after h.rolls)

theorem Sound.thrown {r : Roller σ} {limit : Option UInt64} {w : Watch σ} (h : Sound limit w)
    {ts : List Throw} {cup : Cup (σ × Nat)} (ht : Thrown r w.cup ts cup) :
    Sound limit { w with cup, throws := w.throws ++ ts } := by
  obtain ⟨before, throws, start⟩ := w
  dsimp only at ht
  induction ht generalizing throws with
  | nil => simpa using h
  | @cons before after count faces ts _ ih =>
    have hroll := Sound.roll (r := r) h count faces
    simpa using ih _ hroll

theorem Sound.perform {r : Roller σ} {limit : Option UInt64} {w : Watch σ} (h : Sound limit w)
    (move : Move) : Sound limit (w.perform r move) := by
  by_cases hm : move = .clear
  · subst hm
    exact ⟨h.limit_eq, rfl, rfl, .nil⟩
  · rw [perform_of_ne_clear r w hm]
    exact h.thrown (move.thrown r hm w.cup)

/-- **Books stay sound**, whatever is done. -/
theorem sound_play (r : Roller σ) (limit : Option UInt64) (dice : σ) (moves : List Move) :
    Sound limit ((fresh limit dice).play r moves) := by
  have hrun : ∀ w : Watch σ, Sound limit w → Sound limit (w.play r moves) := by
    induction moves with
    | nil => exact fun w h => h
    | cons move moves ih => exact fun w h => ih _ (h.perform move)
  exact hrun _ (sound_fresh limit dice)

end Watch

/-! ## What sound books say -/

/-- All dice that throws ask for and that do not fall. -/
def undrawn (ts : List Throw) : Nat := (ts.map fun t => t.asked - t.drawn).sum

namespace Settled

variable {limit : Option UInt64} {ts before later : List Throw} {t u : Throw}

theorem after (h : Settled limit ts) (hs : ts = before ++ t :: later) : t.After limit before := by
  induction h generalizing later with
  | nil => simp at hs
  | @concat ts u hts hu ih =>
    rcases List.eq_nil_or_concat later with rfl | ⟨later, v, rfl⟩
    · obtain ⟨rfl, hut⟩ := List.append_inj' hs rfl
      cases hut
      exact hu
    · rw [List.concat_eq_append, ← List.cons_append, ← List.append_assoc] at hs
      exact ih (List.append_inj' hs rfl).1

theorem after_of_mem (h : Settled limit ts) (ht : t ∈ ts) :
    ∃ before, t.After limit before := by
  obtain ⟨before, later, hs⟩ := List.append_of_mem ht
  exact ⟨before, h.after hs⟩

theorem drawn_le_asked (h : Settled limit ts) : drawn ts ≤ asked ts := by
  induction h with
  | nil => exact Nat.le_refl _
  | concat _ ht ih =>
    have := ht.drawn_le
    simp only [drawn_append, drawn_cons, drawn_nil, asked_append, asked_cons, asked_nil]
    omega

theorem drawn_add_undrawn (h : Settled limit ts) : drawn ts + undrawn ts = asked ts := by
  induction h with
  | nil => rfl
  | @concat ts t _ ht ih =>
    have := ht.drawn_le
    simp only [undrawn, List.map_append, List.sum_append, drawn_append, drawn_cons, drawn_nil,
      asked_append, asked_cons, asked_nil] at ih ⊢
    simp only [List.map_cons, List.map_nil, List.sum_cons, List.sum_nil]
    omega

theorem undrawn_eq_zero_iff (h : Settled limit ts) :
    undrawn ts = 0 ↔ ∀ t ∈ ts, t.drawn = t.asked := by
  rw [undrawn, List.sum_eq_zero_iff_forall_eq_nat, List.forall_mem_map]
  refine forall₂_congr fun t ht => ?_
  obtain ⟨before, ha⟩ := h.after_of_mem ht
  have := ha.drawn_le
  omega

/-- No more dice fall than the limit allows, unless the limit is the largest word. -/
theorem drawn_le {max : UInt64} (hmax : max.toNat < 2 ^ 64 - 1) (h : Settled (some max) ts) :
    drawn ts ≤ max.toNat := by
  induction h with
  | nil => exact Nat.zero_le _
  | @concat ts t hts ht ih =>
    have hle := hts.drawn_le_asked
    have hdrawn := ht.drawn_le
    simp only [drawn_append, drawn_cons, drawn_nil]
    -- A throw that draws has room under the limit for all that has been asked for.
    by_cases hroom : Above (some max) (min (2 ^ 64 - 1) (asked ts + t.asked))
    · have hzero : t.drawn = 0 := by
        by_cases hd : Cup.Demand t.count t.faces
        · exact ht.drawn_of_refused (ht.refused_iff.2 ⟨hd, hroom⟩)
        · have : t.asked = 0 := if_neg hd
          omega
      omega
    · simp only [Above, Option.mem_some_iff, exists_eq_left'] at hroom
      omega

/-- Once a throw is refused, every later throw is whose demand could be met. -/
theorem refused_of_refused (h : Settled limit ts) (hs : ts = before ++ t :: later)
    (ht : t.refused) (hu : u ∈ later) (hd : Cup.Demand u.count u.faces) :
    u.refused ∧ u.drawn = 0 := by
  obtain ⟨between, rest, rfl⟩ := List.append_of_mem hu
  have hafter : u.After limit (before ++ t :: between) :=
    h.after (by rw [hs, List.append_assoc, List.cons_append])
  obtain ⟨-, max, hmax, hlt⟩ := (h.after hs).refused_iff.1 ht
  have hrefused : u.refused := by
    refine hafter.refused_iff.2 ⟨hd, max, hmax, ?_⟩
    simp only [asked_append, asked_cons]
    omega
  exact ⟨hrefused, hafter.drawn_of_refused hrefused⟩

end Settled

end DiceNotation
