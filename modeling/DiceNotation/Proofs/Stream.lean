/-
The tokens of a source as a stream, one taken after the other: what holds of
every next token holds of them all (`Lexer.forall_mem_tokens`), and positions go
forward from token to token (`Lexer.tokens_pairwise`), so none occurs twice.
-/
import DiceNotation.Token.Lexer

namespace DiceNotation

/-- The position comes first in the source. -/
def Position.Before (p q : Position) : Prop :=
  p.line < q.line ∨ p.line = q.line ∧ p.column < q.column

namespace Position

variable {p q r : Position}

theorem Before.trans (h : p.Before q) (h' : q.Before r) : p.Before r := by
  unfold Before at *
  omega

theorem Before.ne (h : p.Before q) : p ≠ q := by
  rintro rfl
  unfold Before at h
  omega

theorem before_after (p : Position) (i : Item) : p.Before (p.after i) := by
  unfold after Before
  split <;> simp

theorem afterAll_eq_or_before (p : Position) (is : List Item) :
    p = p.afterAll is ∨ p.Before (p.afterAll is) := by
  induction is generalizing p with
  | nil => exact .inl rfl
  | cons i is ih =>
    right
    rcases ih (p.after i) with h | h
    · rw [afterAll_cons, ← h]
      exact p.before_after i
    · exact (p.before_after i).trans h

theorem before_of_afterAll_before {is : List Item} (h : (p.afterAll is).Before q) : p.Before q := by
  rcases p.afterAll_eq_or_before is with hp | hp
  · rwa [hp]
  · exact hp.trans h

end Position

namespace Lexer

variable {lx lx' : Lexer} {p : Position}

theorem tokens_of_end (h : lx.nextToken.1.kind = .endOfInput) : lx.tokens = [lx.nextToken.1] := by
  rw [tokens, if_pos h]

theorem tokens_of_not_end (h : lx.nextToken.1.kind ≠ .endOfInput) :
    lx.tokens = lx.nextToken.1 :: lx.nextToken.2.tokens := by
  rw [tokens, if_neg h]

/-- Whatever comes behind it, the next token is the first. -/
theorem exists_tokens_eq_cons (lx : Lexer) : ∃ after, lx.tokens = lx.nextToken.1 :: after := by
  by_cases h : lx.nextToken.1.kind = .endOfInput
  · exact ⟨[], tokens_of_end h⟩
  · exact ⟨_, tokens_of_not_end h⟩

/-- Nothing counts but the next token and the place after it. -/
theorem tokens_congr (h : lx.nextToken = lx'.nextToken) : lx.tokens = lx'.tokens := by
  rw [tokens, tokens.eq_def lx', h]

theorem forall_mem_tokens {p : Token → Prop} (h : ∀ lx : Lexer, p lx.nextToken.1) (lx : Lexer) :
    ∀ t ∈ lx.tokens, p t := by
  fun_induction Lexer.tokens lx with
  | case1 lx next hend => exact List.forall_mem_singleton.2 (h lx)
  | case2 lx next hend ih => exact List.forall_mem_cons.2 ⟨h lx, ih⟩

theorem tokenAt_before {start : Position} {finished : Bool} {items : List Item}
    (h : (tokenAt start finished items).1.kind ≠ .endOfInput) :
    start.Before (tokenAt start finished items).1.position ∧
      ((tokenAt start finished items).2.position.Before p →
        (tokenAt start finished items).1.position.Before p) := by
  cases items with
  | nil => simp [tokenAt] at h
  | cons i items =>
    cases i with
    | byte b => exact ⟨start.before_after _, id⟩
    | char c => exact ⟨start.before_after _, Position.before_of_afterAll_before⟩

/-- A token stands behind the place before it, and not behind the place after it. -/
theorem nextToken_before (h : lx.nextToken.1.kind ≠ .endOfInput) :
    lx.position.Before lx.nextToken.1.position ∧
      (lx.nextToken.2.position.Before p → lx.nextToken.1.position.Before p) := by
  obtain ⟨hb, ha⟩ := tokenAt_before (p := p) h
  exact ⟨Position.before_of_afterAll_before hb, ha⟩

theorem before_tokens (lx : Lexer) :
    ∀ t ∈ lx.tokens, t.kind = .endOfInput ∨ lx.position.Before t.position := by
  fun_induction Lexer.tokens lx with
  | case1 lx next h => simpa using .inl h
  | case2 lx next h ih =>
    intro t ht
    rcases List.mem_cons.1 ht with rfl | ht
    · exact .inr (nextToken_before (p := lx.position) h).1
    · refine (ih t ht).imp_right fun hb => ?_
      obtain ⟨hl, hn⟩ := nextToken_before h
      exact hl.trans (hn hb)

/-- Positions go forward, up to the end of the input. -/
theorem tokens_pairwise (lx : Lexer) : lx.tokens.Pairwise fun a b =>
    a.kind ≠ .endOfInput ∧ (b.kind = .endOfInput ∨ a.position.Before b.position) := by
  fun_induction Lexer.tokens lx with
  | case1 lx next h => exact List.pairwise_singleton _ _
  | case2 lx next h ih =>
    refine List.pairwise_cons.2 ⟨fun t ht => ⟨h, ?_⟩, ih⟩
    exact (before_tokens _ t ht).imp_right (nextToken_before h).2

theorem tokens_nodup (lx : Lexer) : lx.tokens.Nodup := by
  refine lx.tokens_pairwise.imp ?_
  rintro a b ⟨ha, hb⟩ rfl
  rcases hb with hb | hb
  · exact ha hb
  · exact hb.ne rfl

end Lexer

end DiceNotation
