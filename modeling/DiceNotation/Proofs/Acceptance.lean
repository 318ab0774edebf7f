/-
What bytes spell, and where they stop spelling it. The formula that is read is
the greedy derivation of the tokens, and tokens with any derivation are read
unless a limit is reached (`parse_grammar`). An error other than a limit stands
at the first token that no sentence goes on with, and all that it expects there
would do (`error_at_first_unviable`).
-/
import Mathlib.Control.Monad.Basic
import DiceNotation.Proofs.Stream
import DiceNotation.Proofs.Viable

namespace DiceNotation

theorem Formula.spells_of_parse {s : Source} {f : Formula} (h : Formula.parse s = .ok f)
    {es : List Equation} : Spells .greedy s.tokens es ↔ es = f.equations := by
  obtain ⟨r, hr, hf⟩ := Formula.ofTokens_eq_ok_iff.1 h
  have hu : Formula.ofTokens .unlimited s.tokens = .ok f :=
    Formula.ofTokens_eq_ok_iff.2 ⟨r, Reading.run_ok_unlimited hr, hf⟩
  rw [← ofTokens_unlimited_iff (f := ⟨es⟩) s.tokens_terminated, hu]
  obtain ⟨equations⟩ := f
  simp [eq_comm]

/-- **The grammar.** What is read from bytes has a derivation, and is what its only greedy
derivation spells; and bytes whose tokens have any derivation are read, or one of the limits is
reached. -/
theorem parse_grammar (bytes : List UInt8) :
    (∀ f, Formula.parse (.ofBytes bytes) = .ok f →
      Spells .free (Source.ofBytes bytes).tokens f.equations ∧
      ∀ es, Spells .greedy (Source.ofBytes bytes).tokens es ↔ es = f.equations) ∧
    (Sentence (Source.ofBytes bytes).tokens →
      (∃ f, Formula.parse (.ofBytes bytes) = .ok f) ∨
      ∃ e, Formula.parse (.ofBytes bytes) = .error e ∧
        (e.expected = [.nestingAtMost 64] ∨ e.expected = [.operatorsAtMost 1000])) := by
  constructor
  · intro f h
    exact ⟨((Formula.spells_of_parse h).2 rfl).free, fun es => Formula.spells_of_parse h⟩
  · intro h
    obtain ⟨-, r, hr⟩ := Outline.run_of_accepts .equation [] (sentence_iff_accepts.1 h)
    rcases Reading.run_of_unlimited .standard hr with hs | ⟨e, he, hl⟩
    · exact .inl ⟨⟨r.done.reverse⟩, Formula.ofTokens_eq_ok_iff.2 ⟨r, hs, rfl⟩⟩
    · refine .inr ⟨e, Formula.ofTokens_eq_error_iff.2 he, ?_⟩
      simpa [Limits.Reached, Limits.standard] using hl

theorem Formula.error_of_parse {s : Source} {e : SyntaxError} (h : Formula.parse s = .error e)
    (he : ¬ Limits.standard.Reached e) : ∃ before after o,
      s.tokens = before ++ e.received :: after ∧ e.position = e.received.position ∧
        before.foldlM Outline.next .equation = some o ∧ o.next e.received = none ∧
          e.expected = o.expected := by
  have hr := Reading.run_error_unlimited (Formula.ofTokens_eq_error_iff.1 h) he
  obtain ⟨before, t, after, r, hs, hb, hn⟩ := Reading.run_eq_error_iff.1 hr
  obtain ⟨rfl, hp, hx⟩ := Stage.next_error hn
  exact ⟨before, after, _, hs, hp, Outline.run_outline hb, Stage.outline_next_of_error hn, hx⟩

/-- The error stands at place `k` of the tokens, the first that no sentence goes on with, and is
right about what could stand there. -/
structure FirstUnviable (tokens : List Token) (e : SyntaxError) (k : Nat) : Prop where
  received : ∀ j, tokens[j]? = some e.received ↔ j = k
  position : e.position = e.received.position
  viable : Viable (tokens.take k)
  not_viable : ¬ Viable (tokens.take (k + 1))
  /-- The tokens in front of the end of the input are no formula. -/
  unfinished : e.received.kind = .endOfInput → ∀ t : Token, t.kind = .endOfInput →
    ¬ Sentence (tokens.take k ++ [t])
  expected : ∀ x ∈ e.expected, (∃ t, x.Describes t) ∧
    ∀ t, x.Describes t → Viable (tokens.take k ++ [t])

/-- **Errors stand at the first token that cannot be continued**, where bytes are refused for
another reason than a limit. -/
theorem error_at_first_unviable (bytes : List UInt8) (e : SyntaxError)
    (h : Formula.parse (.ofBytes bytes) = .error e)
    (hn : e.expected ≠ [.nestingAtMost 64]) (ho : e.expected ≠ [.operatorsAtMost 1000]) :
    ∃ k, FirstUnviable (Source.ofBytes bytes).tokens e k := by
  obtain ⟨before, after, o, hs, hp, hb, hr, hx⟩ := Formula.error_of_parse h
    (by simpa [Limits.Reached, Limits.standard] using ⟨hn, ho⟩)
  have hends : ∀ b ∈ before, b.kind ≠ .endOfInput :=
    (hs ▸ (Source.ofBytes bytes).tokens_terminated).not_end
  have hnodup : (before ++ e.received :: after).Nodup := hs ▸ (Lexer.ofSource _).tokens_nodup
  have htake : (before ++ e.received :: after).take before.length = before := List.take_left
  have htake' : (before ++ e.received :: after).take (before.length + 1) =
      before ++ [e.received] := by
    rw [List.take_length_add_append]
    rfl
  refine ⟨before.length, ?_⟩
  rw [hs]
  constructor
  case received =>
    refine fun j => ⟨fun hj => ?_, ?_⟩
    · obtain ⟨hlt, -⟩ := List.getElem?_eq_some_iff.1 hj
      exact (List.getElem?_inj hlt hnodup).1 (by simp [hj])
    · rintro rfl
      simp
  case position => exact hp
  case viable =>
    rw [htake]
    exact (Outline.viable_iff hends).2 ⟨o, hb⟩
  case not_viable =>
    rw [htake']
    exact Outline.not_viable hends hb hr
  case unfinished =>
    intro hkind t ht hsentence
    have hnext : o.next t = none := Outline.next_endOfInput hkind ht ▸ hr
    rw [htake] at hsentence
    exact Outline.not_viable hends hb hnext ⟨[], by simpa using hsentence⟩
  case expected =>
    intro x hxe
    rw [hx] at hxe
    refine ⟨Outline.exists_describes hxe, fun t ht => ?_⟩
    obtain ⟨o', ho', hkind⟩ := Outline.next_of_expected hxe ht
    have hends' : ∀ b ∈ before ++ [t], b.kind ≠ .endOfInput := by
      simpa [or_imp, forall_and] using ⟨hends, hkind⟩
    rw [htake]
    exact (Outline.viable_iff hends').2 ⟨o', by simp [List.foldlM_append, hb, ho']⟩

/-- In `(1 2)` the second number stands where only a right parenthesis could. -/
theorem error_at_second_number :
    Formula.parse (.ofBytes [40, 49, 32, 50, 41]) =
        .error (.unexpected ⟨⟨1, 4⟩, .integer, "2"⟩ .rightParen []) ∧
      ∃ k, FirstUnviable (Source.ofBytes [40, 49, 32, 50, 41]).tokens
        (.unexpected ⟨⟨1, 4⟩, .integer, "2"⟩ .rightParen []) k :=
  ⟨by decide +kernel, error_at_first_unviable _ _ (by decide +kernel) (by decide) (by decide)⟩

end DiceNotation
