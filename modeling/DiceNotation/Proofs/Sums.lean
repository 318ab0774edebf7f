/-
Sums of dice. A sum has a value exactly if all its dice together are in range,
and is that value after all of them; otherwise it ends at the die with which the
dice so far leave the range, and no other falls (`Roller.sum_recorded`). So a sum
of more dice is a sum of some and then of the others (`Roller.sum_add_eq_some_iff`).
Where dice show one of their faces, a roll is between its count and its count times
its faces, and nothing but a product out of range makes it too large
(`Cup.roll_within`); dice made of random words do (`WordSource.showsFace`).
-/
import DiceNotation.Proofs.Draws
import DiceNotation.Roller.Words

namespace DiceNotation

variable {σ : Type}

theorem points_nonneg (draws : List Draw) : 0 ≤ points draws := by
  induction draws with
  | nil => exact Int.le_refl 0
  | cons d draws ih =>
    rw [points_cons]
    omega

theorem points_append (draws draws' : List Draw) :
    points (draws ++ draws') = points draws + points draws' := by
  rw [points, List.map_append, List.sum_append]
  rfl

namespace Roller

/-- The next `count` dice one after the other, behind the state after the last of them. -/
def inRow (r : Roller σ) (faces : UInt64) : (count : Nat) → σ → σ × List Draw
  | 0, s => (s, [])
  | count + 1, s =>
    let (die, s) := r.die faces s
    let (s, draws) := inRow r faces count s
    (s, ⟨faces, die⟩ :: draws)

/-- A die with so many faces shows one of them, in every state. -/
def ShowsFace (r : Roller σ) (faces : UInt64) : Prop :=
  ∀ s, 1 ≤ (r.die faces s).1 ∧ (r.die faces s).1 ≤ faces

variable {r : Roller σ} {faces : UInt64} {count : Nat} {s : σ}

theorem inRow_succ (r : Roller σ) (faces : UInt64) (count : Nat) (s : σ) :
    r.inRow faces (count + 1) s =
      ((r.inRow faces count (r.die faces s).2).1,
        ⟨faces, (r.die faces s).1⟩ :: (r.inRow faces count (r.die faces s).2).2) := rfl

theorem inRow_add (r : Roller σ) (faces : UInt64) (a b : Nat) (s : σ) :
    r.inRow faces (a + b) s =
      ((r.inRow faces b (r.inRow faces a s).1).1,
        (r.inRow faces a s).2 ++ (r.inRow faces b (r.inRow faces a s).1).2) := by
  induction a generalizing s with
  | zero => rw [Nat.zero_add]; rfl
  | succ a ih => rw [Nat.succ_add, inRow_succ, ih, inRow_succ]; rfl

theorem length_inRow (r : Roller σ) (faces : UInt64) (count : Nat) (s : σ) :
    (r.inRow faces count s).2.length = count := by
  induction count generalizing s with
  | zero => rfl
  | succ count ih => rw [inRow_succ, List.length_cons, ih]

theorem exactSum_eq (r : Roller σ) (faces : UInt64) (count : Nat) (s : σ) :
    ((r.exactSum faces count s).1 : Int) = points (r.inRow faces count s).2 ∧
      (r.exactSum faces count s).2 = (r.inRow faces count s).1 := by
  induction count generalizing s with
  | zero => exact ⟨rfl, rfl⟩
  | succ count ih =>
    obtain ⟨hpoints, hstate⟩ := ih (r.die faces s).2
    rw [exactSum_succ, inRow_succ, points_cons, ← hpoints]
    exact ⟨Int.natCast_add _ _, hstate⟩

theorem sum_eq_some_iff {x : Int64} {s' : σ} : r.sum faces count s = (some x, s') ↔
    x.toInt = points (r.inRow faces count s).2 ∧ s' = (r.inRow faces count s).1 := by
  obtain ⟨hpoints, hstate⟩ := r.exactSum_eq faces count s
  constructor
  · intro h
    obtain ⟨hx, hs⟩ := exactSum_of_sum h
    exact ⟨by rw [← hx, hpoints], by rw [← hs, hstate]⟩
  · rintro ⟨hx, rfl⟩
    have hsome : (r.sum faces count s).1 = some x := by
      rw [sum_eq_fit?, Arithmetic.fit?_eq_some_iff, hpoints, hx]
    exact Prod.ext hsome ((sumFrom_dice hsome).trans hstate)

theorem exists_sum_iff : (∃ x, (r.sum faces count s).1 = some x) ↔
    points (r.inRow faces count s).2 ≤ 2 ^ 63 - 1 := by
  have hnonneg := points_nonneg (r.inRow faces count s).2
  rw [← Option.isSome_iff_exists, Option.isSome_iff_ne_none, sum_eq_fit?,
    (r.exactSum_eq faces count s).1, ne_eq, Arithmetic.fit?_eq_none_iff]
  omega

/-! ## The dice that fall for a sum -/

theorem sumFrom_recorded (r : Roller σ) (faces : UInt64) (total : Int64) (count : Nat)
    (s : σ × List Draw) : ∃ n, (r.recorded.sumFrom faces total count s).2 =
      ((r.inRow faces n s.1).1, s.2 ++ (r.inRow faces n s.1).2) := by
  induction count generalizing total s with
  | zero => exact ⟨0, by rw [inRow, List.append_nil]; rfl⟩
  | succ count ih =>
    have hdie : (r.recorded.die faces s).2 =
        ((r.die faces s.1).2, s.2 ++ [⟨faces, (r.die faces s.1).1⟩]) := rfl
    rw [sumFrom_succ]
    split
    next => exact ⟨1, hdie⟩
    next total' _ =>
      obtain ⟨n, hn⟩ := ih total' (r.recorded.die faces s).2
      refine ⟨n + 1, ?_⟩
      rw [hn, hdie, inRow_succ, List.append_assoc]
      rfl

/-- What comes of a sum of `count` dice, with the dice that fall for it behind the state after
them: the exact sum of them all, or nothing, up to the first die with which the sum is too large. -/
inductive Sums (r : Roller σ) (faces : UInt64) (count : Nat) (s : σ) :
    Option Int64 → σ × List Draw → Prop
  | total {x : Int64} : x.toInt = points (r.inRow faces count s).2 →
    Sums r faces count s (some x) (r.inRow faces count s)
  | tooLarge {n : Nat} : n < count → points (r.inRow faces n s).2 ≤ 2 ^ 63 - 1 →
    2 ^ 63 - 1 < points (r.inRow faces (n + 1) s).2 →
    Sums r faces count s none (r.inRow faces (n + 1) s)

/-- **A sum ends where it leaves the range.** -/
theorem sum_recorded (r : Roller σ) (faces : UInt64) (count : Nat) (s : σ) :
    Sums r faces count s (r.recorded.sum faces count (s, [])).1
      (r.recorded.sum faces count (s, [])).2 := by
  obtain ⟨draws, hdraws, hsum⟩ := r.summed faces 0 count (s, [])
  obtain ⟨n, hn⟩ := r.sumFrom_recorded faces 0 count (s, [])
  rw [← sum] at hdraws hsum hn
  rw [List.nil_append] at hdraws hn
  rw [hn] at hdraws ⊢
  have hlen : draws.length = n := by rw [← hdraws, length_inRow]
  generalize hout : (r.recorded.sum faces count (s, [])).1 = out at hsum
  cases hsum with
  | inRange hcount =>
    obtain rfl : n = count := hlen.symm.trans hcount
    have hs : r.sum faces n s = (_, _) := r.recorded_follows.sum (Prod.ext hout rfl)
    exact .total (sum_eq_some_iff.1 hs).1
  | @outOfRange before last hcount _ hin hlast =>
    obtain rfl : n = before.length + 1 := by simpa using hlen.symm
    -- The dice in front of the last are a row themselves.
    have hbefore : (r.inRow faces before.length s).2 = before := by
      rw [inRow_add] at hdraws
      exact (List.append_inj hdraws (length_inRow ..)).1
    rw [Int64.toInt_zero, Int.zero_add] at hin hlast
    have hnonneg := points_nonneg (before ++ [last])
    refine .tooLarge hcount ?_ ?_
    · rw [hbefore]
      exact Int.le_sub_one_of_lt hin.2
    · rw [hdraws]
      unfold Fits at hlast
      omega

/-! ## Sums of more dice -/

theorem sum_add_eq_some_iff {a b : Nat} {z : Int64} {s'' : σ} :
    r.sum faces (a + b) s = (some z, s'') ↔ ∃ x y s', r.sum faces a s = (some x, s') ∧
      r.sum faces b s' = (some y, s'') ∧ z.toInt = x.toInt + y.toInt := by
  simp only [sum_eq_some_iff, inRow_add, points_append]
  constructor
  · rintro ⟨hz, rfl⟩
    have ha := points_nonneg (r.inRow faces a s).2
    have hb := points_nonneg (r.inRow faces b (r.inRow faces a s).1).2
    have hlt : z.toInt < 2 ^ 63 := z.toInt_lt
    have hword (n : Int) (h : 0 ≤ n) (hn : n < 2 ^ 63) : (Int64.ofInt n).toInt = n :=
      Int64.toInt_ofInt_of_le (by omega) hn
    -- Neither part is negative, so both are in range where their sum is.
    have hx := hword _ ha (by omega)
    have hy := hword _ hb (by omega)
    exact ⟨_, _, _, ⟨hx, rfl⟩, ⟨hy, rfl⟩, by rw [hx, hy, hz]⟩
  · rintro ⟨x, y, _, ⟨hx, rfl⟩, ⟨hy, rfl⟩, hz⟩
    exact ⟨by rw [hz, hx, hy], rfl⟩

/-! ## Bounds -/

theorem points_inRow_bounds (h : r.ShowsFace faces) (count : Nat) (s : σ) :
    (count : Int) ≤ points (r.inRow faces count s).2 ∧
      points (r.inRow faces count s).2 ≤ count * faces.toNat := by
  induction count generalizing s with
  | zero => simp [inRow, points]
  | succ count ih =>
    obtain ⟨hl, hu⟩ := ih (r.die faces s).2
    obtain ⟨hone, hfaces⟩ := h s
    rw [UInt64.le_iff_toNat_le] at hone hfaces
    rw [UInt64.toNat_one] at hone
    rw [inRow_succ, points_cons, Int.natCast_add, Int.add_mul]
    dsimp only
    omega

end Roller

/-- There is room for the roll within the limit of the cup. -/
def Cup.HasRoom (cup : Cup σ) (count : Int64) : Prop :=
  ¬ Above cup.limit (min (2 ^ 64 - 1) (cup.rolls.toNat + count.toInt.toNat))

/-- **What a roll comes to.** Where dice show one of their faces and there is room for the roll, it
is between its count and its count times its faces, or this product is out of range. -/
theorem Cup.roll_within {r : Roller σ} {count faces : Int64} {cup : Cup σ}
    (hr : r.ShowsFace faces.toUInt64) (hd : Demand count faces) (hroom : cup.HasRoom count) :
    (∃ t, (cup.roll r count faces).1 = .ok t ∧ count.toInt ≤ t.toInt ∧
        t.toInt ≤ count.toInt * faces.toInt) ∨
      (cup.roll r count faces).1 = .error .overflow ∧ 2 ^ 63 - 1 < count.toInt * faces.toInt := by
  have hcount := hd.toNat_count
  have hfaces : (faces.toUInt64.toNat : Int) = faces.toInt := by
    rw [Int64.toNat_toUInt64_of_le (Int64.le_iff_toInt_le.2 (Int.le_of_lt hd.1))]
    exact Int.toNat_of_nonneg (Int.le_of_lt hd.1)
  obtain ⟨hl, hu⟩ := Roller.points_inRow_bounds hr count.toUInt64.toNat cup.dice
  rw [hcount, Int.toNat_of_nonneg hd.2] at hl hu
  rw [hfaces] at hu
  have h := cup.rolled r count faces
  generalize cup.roll r count faces = result at h ⊢
  obtain ⟨outcome, after⟩ := result
  cases h with
  | invalidFaces hf => exact absurd hd.1 (Int.not_lt.2 hf)
  | negativeCount _ hc => exact absurd hd.2 (Int.not_le.2 hc)
  | refused _ habove =>
    rw [overdrawn_iff, hd.rolls_charge] at habove
    exact absurd habove hroom
  | overflow _ _ hs =>
    have hnone : ¬ ∃ x, (r.sum faces.toUInt64 count.toUInt64.toNat cup.dice).1 = some x := by
      rw [hs]
      nofun
    rw [Roller.exists_sum_iff, hcount, Int.not_le] at hnone
    exact .inr ⟨rfl, Int.lt_of_lt_of_le hnone hu⟩
  | total _ _ hs =>
    rw [Roller.sum_eq_some_iff, hcount] at hs
    rw [← hs.1] at hl hu
    exact .inl ⟨_, rfl, hl, hu⟩

namespace WordSource

theorem face_of_lt {q : Nat} {faces : UInt64} (hq : q < faces.toNat) :
    1 ≤ UInt64.ofNat q + 1 ∧ UInt64.ofNat q + 1 ≤ faces := by
  have hlt : faces.toNat < UInt64.size := faces.toNat_lt
  have hface : (UInt64.ofNat q + 1).toNat = q + 1 := by
    rw [UInt64.toNat_add, UInt64.toNat_ofNat_of_lt' (by omega), UInt64.toNat_one,
      Nat.mod_eq_of_lt (by simp only [UInt64.size] at hlt; omega)]
  rw [UInt64.le_iff_toNat_le, UInt64.le_iff_toNat_le, hface, UInt64.toNat_one]
  exact ⟨Nat.succ_pos q, hq⟩

/-- **Dice made of random words show one of their faces.** -/
theorem showsFace (w : WordSource σ) {faces : UInt64} (hf : faces ≠ 0) :
    w.roller.ShowsFace faces := by
  have hpos : 0 < faces.toNat := by
    rw [Nat.pos_iff_ne_zero, ne_eq, ← UInt64.toNat_zero, UInt64.toNat_inj]
    exact hf
  intro s
  change 1 ≤ (w.faceWithin faces attempts s).1 ∧ (w.faceWithin faces attempts s).1 ≤ faces
  generalize attempts = n
  induction n generalizing s with
  | zero => exact face_of_lt hpos
  | succ n ih =>
    rw [faceWithin]
    dsimp only
    split
    next =>
      refine face_of_lt ?_
      rw [Nat.div_lt_iff_lt_mul (by decide), Nat.mul_comm faces.toNat]
      exact Nat.mul_lt_mul_of_pos_right (w.next s).1.toNat_lt hpos
    next => exact ih _

end WordSource

/-- **Sums are exact, and bounded where dice show their faces.** A sum has a value exactly if all
its dice together are in range; it is their exact sum then, after all of them, and otherwise the
last die that falls is the first with which it is too large. A sum of dice and of more dice is the
sum of both sums. With dice that show one of their faces, such as those made of random words, a roll
for which there is room is never too large unless its count times its faces is, and never below its
count or above that product. -/
theorem sum_exact_bounded (r : Roller σ) :
    (∀ faces count s,
      r.sum faces count s = ((r.recorded.sum faces count (s, [])).1,
        (r.recorded.sum faces count (s, [])).2.1) ∧
      r.Sums faces count s (r.recorded.sum faces count (s, [])).1
        (r.recorded.sum faces count (s, [])).2 ∧
      (r.inRow faces count s).2.length = count ∧
      ((∃ x, (r.sum faces count s).1 = some x) ↔
        points (r.inRow faces count s).2 ≤ 2 ^ 63 - 1)) ∧
    (∀ faces a b s z s'', r.sum faces (a + b) s = (some z, s'') ↔
      ∃ x y s', r.sum faces a s = (some x, s') ∧ r.sum faces b s' = (some y, s'') ∧
        z.toInt = x.toInt + y.toInt) ∧
    (∀ (count faces : Int64) (cup : Cup σ), r.ShowsFace faces.toUInt64 →
      Cup.Demand count faces → cup.HasRoom count →
      (∃ t, (cup.roll r count faces).1 = .ok t ∧ count.toInt ≤ t.toInt ∧
          t.toInt ≤ count.toInt * faces.toInt) ∨
        (cup.roll r count faces).1 = .error .overflow ∧
          2 ^ 63 - 1 < count.toInt * faces.toInt) ∧
    ∀ (w : WordSource σ) faces, faces ≠ 0 → w.roller.ShowsFace faces := by
  refine ⟨fun faces count s => ?_, fun _ _ _ _ _ _ => Roller.sum_add_eq_some_iff,
    fun _ _ _ => Cup.roll_within, fun w _ => w.showsFace⟩
  have hrecorded := r.recorded_follows.sumFrom faces 0 count (s, [])
  exact ⟨hrecorded, r.sum_recorded faces count s, r.length_inRow faces count s,
    Roller.exists_sum_iff⟩

/-- Three dice with six faces, made of random words, come to three at least and to eighteen at
most. -/
theorem three_dice_between :
    let words : List UInt64 := [0x6E789E6AA1B965F4, 0x06C45D188009454F, 0xF88BB8A8724C81EC]
    (6 : UInt64) ≠ 0 ∧ Cup.Demand 3 6 ∧ (Cup.fresh (some 3) words).HasRoom 3 ∧
      ∃ total, ((Cup.fresh (some 3) words).roll WordSource.listed.roller 3 6).1 = .ok total ∧
        3 ≤ total.toInt ∧ total.toInt ≤ 18 := by
  intro words
  have hfaces : (6 : UInt64) ≠ 0 := by decide
  have hdemand : Cup.Demand 3 6 := ⟨by decide, by decide⟩
  have hroom : (Cup.fresh (some 3) words).HasRoom 3 := by
    unfold Cup.HasRoom
    decide
  obtain ⟨-, -, hroll, hshows⟩ := sum_exact_bounded WordSource.listed.roller
  rcases hroll 3 6 (.fresh (some 3) words) (hshows .listed 6 hfaces) hdemand hroom with
    h | ⟨-, hlarge⟩
  · exact ⟨hfaces, hdemand, hroom, h⟩
  · exact absurd hlarge (by decide)

end DiceNotation
