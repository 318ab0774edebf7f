/-
Classes of characters given by ranges of code points, both ends included. A
look-up ends at the first range that starts above the code point asked for, so a
class is written with its ranges in ascending order. Two classes have no
character in common when their ranges are `Apart`, which is decided range by
range.
-/

namespace DiceNotation.Text

/-- Whether `n` lies in one of the ascending `ranges`. -/
def inRanges : List (Nat × Nat) → Nat → Bool
  | [], _ => false
  | (first, last) :: ranges, n =>
    if n < first then false else if n ≤ last then true else inRanges ranges n

theorem exists_of_inRanges {n : Nat} : ∀ {ranges : List (Nat × Nat)}, inRanges ranges n = true →
    ∃ r ∈ ranges, r.1 ≤ n ∧ n ≤ r.2
  | [], h => by simp [inRanges] at h
  | (first, last) :: ranges, h => by
    simp only [inRanges] at h
    split at h
    · simp at h
    · split at h
      · exact ⟨(first, last), by simp, by omega, by assumption⟩
      · obtain ⟨r, hr, hn⟩ := exists_of_inRanges h
        exact ⟨r, by simp [hr], hn⟩

/-- No two of the ranges, one from each list, have a code point in common. -/
def Apart (xs ys : List (Nat × Nat)) : Prop :=
  ∀ r ∈ xs, ∀ s ∈ ys, r.2 < s.1 ∨ s.2 < r.1

instance (xs ys : List (Nat × Nat)) : Decidable (Apart xs ys) :=
  inferInstanceAs (Decidable (∀ _ ∈ _, ∀ _ ∈ _, _))

theorem Apart.not_inRanges {xs ys : List (Nat × Nat)} {n : Nat} (h : Apart xs ys)
    (hx : inRanges xs n = true) : inRanges ys n = false := by
  rw [← Bool.not_eq_true]
  intro hy
  obtain ⟨r, hr, hn⟩ := exists_of_inRanges hx
  obtain ⟨s, hs, hm⟩ := exists_of_inRanges hy
  rcases h r hr s hs with h | h
  · omega
  · omega

end DiceNotation.Text
