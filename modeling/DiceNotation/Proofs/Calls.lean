/-
Two ways of asking one lexer, mixed. However calls of `nextToken` and of `next?`
follow each other, each hands out the token that is next in the stream, and once the
stream is at its end the end of the input again and again (`answered`). Only one of
the two sets the flag by which `next?` gives nothing: it is set when `next?` itself
has given the end of the input (`getElem?_answers_eq_none_iff`).
-/
import DiceNotation.Proofs.MaximalMunch

namespace DiceNotation

namespace Lexer

/-- A way of asking for a token. -/
inductive Call
  | nextToken
  | next
  deriving DecidableEq, Repr

/-- What a call gives, and the place after it. -/
def answer (lx : Lexer) : Call → Option Token × Lexer
  | .nextToken => (some lx.nextToken.1, lx.nextToken.2)
  | .next =>
    match lx.next? with
    | none => (none, lx)
    | some (t, lx) => (some t, lx)

/-- What calls give, one after the other. -/
def answers (lx : Lexer) : List Call → List (Option Token)
  | [] => []
  | call :: calls => (lx.answer call).1 :: answers (lx.answer call).2 calls

/-- `next?` gives the end of the input at the call in place `i`. -/
def EndsAt (calls : List Call) (answers : List (Option Token)) (i : Nat) : Prop :=
  calls[i]? = some .next ∧ ∃ e, answers[i]? = some (some e) ∧ e.kind = .endOfInput

/-- The ways in which a call can go. The stream loses its first token or is at its end, where the
end of the input stays. -/
inductive Answered (lx : Lexer) (call : Call) : Option Token × Lexer → Prop
  | nothing : call = .next → lx.finished = true → Answered lx call (none, lx)
  | token : (call = .next → lx.finished = false) → t.kind ≠ .endOfInput →
      lx.tokens = t :: lx'.tokens → lx'.finished = lx.finished → Answered lx call (some t, lx')
  | last : (call = .next → lx.finished = false) → e.kind = .endOfInput →
      lx.tokens = [e] → lx'.tokens = [e] →
      (lx'.finished = true ↔ lx.finished = true ∨ call = .next) →
      Answered lx call (some e, lx')

variable {lx : Lexer} {calls : List Call} {i j : Nat} {e t : Token}

/-! ## One call -/

theorem token_nextToken (lx : Lexer) (b : Bool) :
    (nextToken { lx with finished := b }).1 = lx.nextToken.1 := by
  simp only [nextToken]
  cases lx.rest.dropWhile (·.satisfies Text.isSeparator) with
  | nil => rfl
  | cons i items => cases i <;> rfl

theorem tokens_nextToken_of_end (h : lx.nextToken.1.kind = .endOfInput) (b : Bool) :
    tokens { lx.nextToken.2 with finished := b } = [lx.nextToken.1] := by
  have ht : (nextToken { lx.nextToken.2 with finished := b }).1 = lx.nextToken.1 := by
    rw [token_nextToken, nextToken_of_end h]
  rw [tokens_of_end (ht ▸ h), ht]

/-- **One call** gives the next token of the stream, or nothing if it is one of `next?` and this has
given the end of the input. -/
theorem answered (lx : Lexer) (call : Call) : lx.Answered call (lx.answer call) := by
  cases call with
  | nextToken =>
    by_cases hend : lx.nextToken.1.kind = .endOfInput
    · refine .last nofun hend (tokens_of_end hend) (tokens_nextToken_of_end hend _) ?_
      simp [finished_nextToken]
    · exact .token nofun hend (tokens_of_not_end hend) (finished_nextToken lx)
  | next =>
    cases hf : lx.finished with
    | true =>
      have hnone : lx.next? = none := by simp [next?, hf]
      rw [answer, hnone]
      exact .nothing rfl hf
    | false =>
      by_cases hend : lx.nextToken.1.kind = .endOfInput
      · rw [answer, next?_of_end hf hend]
        exact .last (fun _ => hf) hend (tokens_of_end hend) (tokens_nextToken_of_end hend _)
          (by simp)
      · rw [answer, next?_of_not_end hf hend]
        exact .token (fun _ => hf) hend (tokens_of_not_end hend) (finished_nextToken lx)

/-! ## All calls -/

theorem length_answers (lx : Lexer) (calls : List Call) :
    (lx.answers calls).length = calls.length := by
  induction calls generalizing lx with
  | nil => rfl
  | cons call calls ih => simp [answers, ih]

theorem answers_isPrefix (he : lx.tokens.getLast? = some e) (calls : List Call) :
    ∃ n, (lx.answers calls).reduceOption <+: lx.tokens ++ List.replicate n e := by
  induction calls generalizing lx with
  | nil => exact ⟨0, List.nil_prefix⟩
  | cons call calls ih =>
    rw [answers]
    have hcall := lx.answered call
    generalize lx.answer call = given at hcall
    cases hcall with
    | nothing => exact ih he
    | @token t lx' _ _ htokens _ =>
      have hne : lx'.tokens ≠ [] := (tokens_terminated lx').ne_nil
      rw [htokens, List.getLast?_cons_of_ne_nil hne] at he
      obtain ⟨n, hn⟩ := ih he
      refine ⟨n, ?_⟩
      rw [htokens]
      exact (List.prefix_cons_inj t).2 hn
    | @last e' lx' _ _ htokens htokens' _ =>
      rw [htokens] at he
      obtain rfl : e' = e := by simpa using he
      have he' : lx'.tokens.getLast? = some e' := by
        rw [htokens']
        rfl
      obtain ⟨n, hn⟩ := ih he'
      refine ⟨n + 1, ?_⟩
      rw [htokens'] at hn
      rw [htokens]
      exact (List.prefix_cons_inj e').2 hn

theorem exists_answer_of_nextToken (h : calls[i]? = some .nextToken) :
    ∃ t, (lx.answers calls)[i]? = some (some t) := by
  induction calls generalizing lx i with
  | nil => simp at h
  | cons call calls ih =>
    cases i with
    | zero =>
      obtain rfl : call = .nextToken := by simpa using h
      exact ⟨_, rfl⟩
    | succ i => exact ih (by simpa using h)

theorem eq_of_tokens_eq (hlast : lx.tokens = [e])
    (h : (lx.answers calls)[i]? = some (some t)) : t = e := by
  induction calls generalizing lx i with
  | nil => simp [answers] at h
  | cons call calls ih =>
    rw [answers] at h
    have hcall := lx.answered call
    generalize lx.answer call = given at h hcall
    cases hcall with
    | nothing =>
      cases i with
      | zero => simp at h
      | succ i => exact ih hlast (by simpa using h)
    | token _ _ htokens =>
      rw [htokens] at hlast
      exact absurd (List.cons.inj hlast).2 (tokens_terminated _).ne_nil
    | last _ _ htokens htokens' =>
      obtain ⟨rfl, -⟩ := List.cons.inj (htokens.symm.trans hlast)
      cases i with
      | zero => simpa using h.symm
      | succ i => exact ih htokens' (by simpa using h)

theorem eq_of_end (hij : i < j) (hi : (lx.answers calls)[i]? = some (some e))
    (he : e.kind = .endOfInput) (hj : (lx.answers calls)[j]? = some (some t)) : t = e := by
  induction calls generalizing lx i j with
  | nil => simp [answers] at hi
  | cons call calls ih =>
    obtain ⟨j, rfl⟩ : ∃ k, j = k + 1 := ⟨j - 1, by omega⟩
    rw [answers] at hi hj
    rw [List.getElem?_cons_succ] at hj
    cases i with
    | succ i => exact ih (Nat.lt_of_succ_lt_succ hij) (by simpa using hi) hj
    | zero =>
      have hcall := lx.answered call
      generalize lx.answer call = given at hi hj hcall
      cases hcall with
      | nothing => simp at hi
      | token _ hk =>
        obtain rfl : _ = e := by simpa using hi
        exact absurd he hk
      | last _ _ _ htokens' =>
        obtain rfl : _ = e := by simpa using hi
        exact eq_of_tokens_eq htokens' hj

theorem finished_answer_iff (lx : Lexer) (call : Call) (calls : List Call) :
    (lx.answer call).2.finished = true ↔
      lx.finished = true ∨ EndsAt (call :: calls) (lx.answers (call :: calls)) 0 := by
  rw [answers, EndsAt]
  have hcall := lx.answered call
  generalize lx.answer call = given at hcall
  cases hcall with
  | nothing hc hf => simp [hf]
  | token _ hk _ hf => simp [hf, hk]
  | last _ hk _ _ hf => simp [hf, hk]

theorem answer_next_eq_none_iff (lx : Lexer) : (lx.answer .next).1 = none ↔ lx.finished = true := by
  have hcall := lx.answered .next
  generalize lx.answer .next = given at hcall
  cases hcall with
  | nothing _ hf => simp [hf]
  | token hf => simp [hf rfl]
  | last hf => simp [hf rfl]

/-- **A call of `next?` gives nothing** exactly if the flag is set from the start or an earlier one
has given the end of the input. -/
theorem getElem?_answers_eq_none_iff (h : calls[i]? = some .next) :
    (lx.answers calls)[i]? = some none ↔
      lx.finished = true ∨ ∃ j < i, EndsAt calls (lx.answers calls) j := by
  induction calls generalizing lx i with
  | nil => simp at h
  | cons call calls ih =>
    cases i with
    | zero =>
      obtain rfl : call = .next := by simpa using h
      simp [answers, answer_next_eq_none_iff]
    | succ i =>
      have hlater : (lx.answers (call :: calls))[i + 1]? = some none ↔
          (lx.answer call).2.finished = true ∨
            ∃ j < i, EndsAt calls ((lx.answer call).2.answers calls) j := by
        rw [answers, List.getElem?_cons_succ]
        exact ih (by simpa using h)
      rw [hlater, finished_answer_iff lx call calls, Nat.exists_lt_succ_left, or_assoc]
      rfl

/-- **Mixing the two ways of asking loses nothing.** Whatever the bytes and however calls of
`nextToken` and of `next?` follow each other, the tokens that are handed out are the tokens of the
source in order and then the end of the input over and over, always the same. `nextToken` never
fails to give one. `next?` gives none exactly if it has itself given the end of the input, so that
it gives the end of the input once more where `nextToken` alone has come to it. -/
theorem calls_lose_nothing (bytes : List UInt8) (calls : List Call) :
    let s := Source.ofBytes bytes
    let answers := (ofSource s).answers calls
    answers.length = calls.length ∧ Terminated s.tokens ∧
    (∃ last n, s.tokens.getLast? = some last ∧
      answers.reduceOption <+: s.tokens ++ List.replicate n last) ∧
    (∀ i : Nat, calls[i]? = some .nextToken → ∃ t, answers[i]? = some (some t)) ∧
    (∀ (i j : Nat) (e t : Token), i < j → answers[i]? = some (some e) → e.kind = .endOfInput →
      answers[j]? = some (some t) → t = e) ∧
    (∀ i : Nat, calls[i]? = some .next →
      (answers[i]? = some none ↔ ∃ j < i, EndsAt calls answers j)) ∧
    ∀ (i j : Nat) (e : Token), j < i → answers[j]? = some (some e) → e.kind = .endOfInput →
      calls[i]? = some .next → (∀ k < i, calls[k]? ≠ some .next) →
        answers[i]? = some (some e) := by
  intro s answers
  have hnone (i : Nat) (h : calls[i]? = some .next) :
      answers[i]? = some none ↔ ∃ j < i, EndsAt calls answers j := by
    rw [getElem?_answers_eq_none_iff h]
    exact or_iff_right nofun
  obtain ⟨last, hlast, -⟩ := s.tokens_terminated.exists_eq_append
  have hget : s.tokens.getLast? = some last := by
    rw [hlast]
    exact List.getLast?_concat
  obtain ⟨n, hn⟩ := answers_isPrefix hget calls
  refine ⟨length_answers _ _, s.tokens_terminated, ⟨last, n, hget, hn⟩,
    fun i => exists_answer_of_nextToken, fun i j e t => eq_of_end, hnone, ?_⟩
  intro i j e hji hj he hi hfirst
  have hlt : i < answers.length := by
    rw [length_answers]
    exact (List.getElem?_eq_some_iff.1 hi).1
  obtain ⟨given, hgiven⟩ : ∃ given, answers[i]? = some given := ⟨_, List.getElem?_eq_getElem hlt⟩
  cases given with
  | none =>
    obtain ⟨k, hk, hnext, -⟩ := (hnone i hi).1 hgiven
    exact absurd hnext (hfirst k hk)
  | some t =>
    obtain rfl : t = e := eq_of_end hji hj he hgiven
    exact hgiven

/-- Asked on by `next?` at the end of `7`, the lexer gives the end of the input once more. -/
example : ((ofSource (.ofText "7")).answers [.nextToken, .nextToken, .next, .next]).map
    (·.map Token.kind) = [some .integer, some .endOfInput, some .endOfInput, none] := by
  decide +kernel

end Lexer

end DiceNotation
