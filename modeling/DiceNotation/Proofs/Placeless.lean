/-
Tokens apart from their places. What a lexer gives of the items to come does
not depend on where they stand (`Lexer.tokens_bare`), and what the reader makes
of tokens depends on their kinds and texts alone: with other places it takes
the same steps and fails with the same errors, but for the places in them
(`Reading.run_bare`).
-/
import DiceNotation.Proofs.Run
import DiceNotation.Proofs.Stream

namespace DiceNotation

/-- The token as if it stood at the start of a source. -/
def Token.bare (t : Token) : Token := { t with position := .start }

/-- The error as if the token it is about stood at the start of a source. -/
def SyntaxError.bare (e : SyntaxError) : SyntaxError :=
  { e with position := .start, received := e.received.bare }

theorem Terminated.map_bare {ts : List Token} (h : Terminated ts) :
    Terminated (ts.map Token.bare) := by
  induction h with
  | last ht => exact .last ht
  | cons ht _ ih => exact .cons ht ih

/-! ## The reader -/

theorem Limits.checkNesting_bare (limits : Limits) (depth : Nat) (t : Token) :
    limits.checkNesting depth t.bare = (limits.checkNesting depth t).mapError SyntaxError.bare := by
  unfold checkNesting
  split
  · rfl
  · split <;> rfl

theorem Limits.checkOperators_bare (limits : Limits) (count : Nat) (t : Token) :
    limits.checkOperators count t.bare =
      (limits.checkOperators count t).mapError SyntaxError.bare := by
  unfold checkOperators
  split
  · rfl
  · split <;> rfl

theorem mapError_bind {x : Except SyntaxError α} {f g : α → Except SyntaxError β}
    (h : ∀ a, f a = (g a).mapError SyntaxError.bare) :
    x.mapError SyntaxError.bare >>= f = (x >>= g).mapError SyntaxError.bare := by
  cases x with
  | error e => rfl
  | ok a => exact h a

namespace Stage

variable {limits : Limits} {d : Draft} {t : Token}

theorem readUnit_bare :
    readUnit limits d t.bare = (readUnit limits d t).mapError SyntaxError.bare := by
  obtain ⟨position, kind, text⟩ := t
  cases kind
  case leftParen =>
    have hc := limits.checkNesting_bare d.depth ⟨position, .leftParen, text⟩
    exact (congrArg (· >>= fun _ => pure (unit d.openGroup)) hc).trans (mapError_bind fun _ => rfl)
  all_goals rfl

theorem readEquation_bare :
    readEquation limits t.bare = (readEquation limits t).mapError SyntaxError.bare := by
  by_cases hend : t.kind = .endOfInput
  · obtain ⟨position, kind, text⟩ := t
    obtain rfl : kind = .endOfInput := hend
    rfl
  · by_cases hword : t.kind = .word
    · obtain ⟨position, kind, text⟩ := t
      obtain rfl : kind = .word := hword
      rfl
    · rw [readEquation_eq_readUnit (t := t) hend hword,
        readEquation_eq_readUnit (t := t.bare) hend hword]
      exact readUnit_bare

theorem readOperator_bare {operand : Term} :
    readOperator limits operand d t.bare =
      (readOperator limits operand d t).mapError SyntaxError.bare := by
  have hk : t.bare.kind = t.kind := rfl
  have hops := limits.checkOperators_bare d.operators t
  simp only [readOperator, hk]
  cases t.kind.operator? with
  | some op =>
    dsimp only
    split
    · rw [limits.checkNesting_bare, hops]
      exact mapError_bind fun _ => mapError_bind fun _ => rfl
    · rw [hops]
      exact mapError_bind fun _ => rfl
  | none =>
    cases d.outer with
    | nil => exact readEquation_bare
    | cons level outer =>
      dsimp only
      split <;> rfl

/-- A step depends on the kind and the text of the token alone. -/
theorem next_bare (limits : Limits) (stage : Stage) (t : Token) :
    stage.next limits t.bare = (stage.next limits t).mapError SyntaxError.bare := by
  cases stage with
  | equation => exact readEquation_bare
  | unit d => exact readUnit_bare
  | operator operand d => exact readOperator_bare
  | name words | signed negative d | faces count d =>
    obtain ⟨position, kind, text⟩ := t
    cases kind <;> rfl
  | integer value d =>
    by_cases ht : t.kind = .dice
    · obtain ⟨position, kind, text⟩ := t
      obtain rfl : kind = .dice := ht
      rfl
    · rw [next_integer (t := t) ht, next_integer (t := t.bare) ht]
      exact readOperator_bare

theorem completed_bare (stage : Stage) (t : Token) : stage.completed t.bare = stage.completed t :=
  rfl

end Stage

/-- **The reader is blind to places.** -/
theorem Reading.run_bare {limits : Limits} {r : Reading} {ts : List Token} :
    run limits r (ts.map Token.bare) = (run limits r ts).mapError SyntaxError.bare := by
  induction ts generalizing r with
  | nil => rfl
  | cons t ts ih =>
    simp only [List.map_cons, run_cons, step, Stage.next_bare, Stage.completed_bare]
    cases r.stage.next limits t with
    | error e => rfl
    | ok stage => exact ih

theorem Reading.run_bare_eq_ok_iff {limits : Limits} {r r' : Reading} {ts : List Token} :
    run limits r (ts.map Token.bare) = .ok r' ↔ run limits r ts = .ok r' := by
  rw [run_bare]
  cases run limits r ts with
  | error e =>
    refine ⟨fun h => ?_, fun h => ?_⟩
    · cases h
    · cases h
  | ok r => exact Iff.rfl

/-! ## The lexer -/

theorem Lexer.tokenAt_bare {p q : Position} {b b' : Bool} (items : List Item) :
    (tokenAt p b items).1.bare = (tokenAt q b' items).1.bare ∧
      (tokenAt p b items).2.rest = (tokenAt q b' items).2.rest := by
  cases items with
  | nil => exact ⟨rfl, rfl⟩
  | cons i items => cases i <;> exact ⟨rfl, rfl⟩

theorem Lexer.nextToken_bare {lx lx' : Lexer} (h : lx.rest = lx'.rest) :
    lx.nextToken.1.bare = lx'.nextToken.1.bare ∧ lx.nextToken.2.rest = lx'.nextToken.2.rest := by
  unfold nextToken
  rw [h]
  exact tokenAt_bare _

/-- The tokens that items spell, apart from their places. -/
def bareTokens (items : List Item) : List Token :=
  (Lexer.tokens ⟨items, .start, false⟩).map Token.bare

theorem Lexer.tokens_bare_eq {lx lx' : Lexer} (h : lx.rest = lx'.rest) :
    lx.tokens.map Token.bare = lx'.tokens.map Token.bare := by
  obtain ⟨ht, hr⟩ := nextToken_bare h
  have hk : lx.nextToken.1.bare.kind = lx'.nextToken.1.bare.kind := congrArg Token.kind ht
  by_cases hend : lx.nextToken.1.kind = .endOfInput
  · have hend' : lx'.nextToken.1.kind = .endOfInput := hk.symm.trans hend
    rw [tokens_of_end hend, tokens_of_end hend', List.map_singleton, List.map_singleton, ht]
  · have hend' : lx'.nextToken.1.kind ≠ .endOfInput := fun he => hend (hk.trans he)
    rw [tokens_of_not_end hend, tokens_of_not_end hend', List.map_cons, List.map_cons, ht,
      tokens_bare_eq hr]
termination_by lx.rest.length
decreasing_by exact nextToken_rest_lt hend

theorem Lexer.tokens_bare (lx : Lexer) : lx.tokens.map Token.bare = bareTokens lx.rest :=
  tokens_bare_eq rfl

end DiceNotation
