/-
The written form read again. A formula is read back from its written form as it
is exactly if its names are made of words, its numbers have tokens and its terms
fit inside the limits (`parse_text_iff`). Of a formula that has itself been read
only the depth of its terms is in question (`reparse_iff`): a row of operators
is read on one level and written on as many as it has operators, so what is
read can be too deep when it is written (`reparse_fails`).
-/
import Mathlib.Control.Monad.Basic
import DiceNotation.Proofs.Sound

namespace DiceNotation

theorem Formula.parse_ofText_eq_ok_iff {text : String} {f : Formula} :
    Formula.parse (.ofText text) = .ok f ↔
      ∃ r, Reading.run (.atMost 64 1000) .start (spelled text.toList) = .ok r ∧
        f.equations = r.done.reverse := by
  have hrun : ∀ r, Reading.run .standard .start (Source.ofText text).tokens = .ok r ↔
      Reading.run (.atMost 64 1000) .start (spelled text.toList) = .ok r := by
    intro r
    rw [← tokens_ofText_bare]
    exact Reading.run_bare_eq_ok_iff.symm
  rw [Formula.parse, Formula.ofSource, Formula.ofTokens_eq_ok_iff]
  exact exists_congr fun r => and_congr_left' (hrun r)

theorem Formula.parse_text_of_spellable {f : Formula} (hs : ∀ e ∈ f.equations, e.Spellable) :
    Formula.parse (.ofText f.text) = .ok f ↔
      ∀ e ∈ f.equations, e.term.nest ≤ 64 ∧ e.term.operators ≤ 1000 := by
  obtain ⟨es⟩ := f
  have hw := spelled_formula hs
  rw [parse_ofText_eq_ok_iff]
  refine ⟨fun h => ?_, fun h => ?_⟩
  · obtain ⟨r, hr, -⟩ := h
    exact ((Reading.run_written hw hs).1 hr).1
  · exact ⟨⟨es.reverse, .equation⟩, (Reading.run_written hw hs).2 ⟨h, by simp⟩, by simp⟩

/-- **Which formulas are read back** from their written form as they are. -/
theorem parse_text_iff (f : Formula) :
    Formula.parse (.ofText f.text) = .ok f ↔ ∀ e ∈ f.equations, IsName e.name ∧ e.term.Spellable ∧
      e.term.operators ≤ 1000 ∧ e.term.nest ≤ 64 := by
  constructor
  · intro h e he
    have hsound := Formula.sound_of_parse h
    have hspell : ∀ e ∈ f.equations, e.Spellable := fun e he => (hsound e he).1
    obtain ⟨hnest, hops⟩ := (Formula.parse_text_of_spellable hspell).1 h e he
    exact ⟨(hspell e he).1, (hspell e he).2, hops, hnest⟩
  · intro h
    have hspell : ∀ e ∈ f.equations, e.Spellable := fun e he => ⟨(h e he).1, (h e he).2.1⟩
    refine (Formula.parse_text_of_spellable hspell).2 fun e he => ?_
    obtain ⟨-, -, hops, hnest⟩ := h e he
    exact ⟨hnest, hops⟩

/-- **What has been read is read back** from its written form exactly if none of its terms is too
deep there. -/
theorem reparse_iff (bytes : List UInt8) (f : Formula)
    (h : Formula.parse (.ofBytes bytes) = .ok f) :
    Formula.parse (.ofText f.text) = .ok f ↔ ∀ e ∈ f.equations, e.term.nest ≤ 64 := by
  have hsound := Formula.sound_of_parse h
  rw [Formula.parse_text_of_spellable fun e he => (hsound e he).1]
  exact forall₂_congr fun e he => and_iff_left (hsound e he).2

/-- A power of 2 to a power of 2, and so on. -/
def tower : Nat → Term
  | 0 => .int 2
  | n + 1 => .binary (.int 2) .pow (tower n)

/-- The formula that is a tower and nothing else. -/
def Formula.tower (n : Nat) : Formula := ⟨[⟨"", DiceNotation.tower n⟩]⟩

/-- A tower as it is typed, `2^2^2`, without parentheses. -/
def typedTower (n : Nat) : List UInt8 := (List.replicate n [50, 94]).flatten ++ [50]

/-- With 32 operators a tower is as deep as one can be that is read back. -/
theorem reparse_tower : Formula.parse (.ofBytes (typedTower 32)) = .ok (.tower 32) ∧
    (Formula.parse (.ofText (Formula.tower 32).text) = .ok (.tower 32) ↔
      ∀ e ∈ (Formula.tower 32).equations, e.term.nest ≤ 64) := by
  have hparse : Formula.parse (.ofBytes (typedTower 32)) = .ok (.tower 32) := by
    decide +kernel
  exact ⟨hparse, reparse_iff (typedTower 32) (.tower 32) hparse⟩

/-- With 33 it is read, and refused when it is read from its written form. -/
theorem reparse_fails : Formula.parse (.ofBytes (typedTower 33)) = .ok (.tower 33) ∧
    Formula.parse (.ofText (Formula.tower 33).text) =
      .error (.unexpected ⟨⟨1, 161⟩, .leftParen, "("⟩ (.nestingAtMost 64) []) := by
  constructor
  · decide +kernel
  · decide +kernel

end DiceNotation
