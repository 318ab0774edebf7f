/-
The reader is one token ahead of the equations that it completes, and no
further. Here it takes the tokens off the lexer itself, each once the one before
it is read (`Reading.pull`), so that its notes tell what was lexed and in which
order. An equation is noted at the token behind it, when the tokens in front
spell it and the equations before it (`Reading.completed_iff`), and where a
reading fails the lexer stands behind the token in error (`one_token_ahead`).
-/
import DiceNotation.Record
import DiceNotation.Proofs.Outline
import DiceNotation.Proofs.Stream

namespace DiceNotation

variable {σ : Type}

/-! ## What cannot be completed -/

/-- What is demanded takes more than `n` tokens. -/
def Demand.Above (K : Demand) (n : Nat) : Prop :=
  ∀ input es, input.length ≤ n → ¬ K input es

section Above

variable {K : Demand} {n : Nat} {input : List Token} {es : List Equation}

theorem not_closes (hK : K.Above n) {name : String} {outer : List Level} {t : Term}
    (hi : input.length ≤ n) : ¬ Closes K name outer t input es := by
  induction outer generalizing input t with
  | nil =>
    rintro ⟨es', h, -⟩
    exact hK _ _ hi h
  | cons level outer ih =>
    rintro ⟨_, _, rest, _, rfl, -, hl, h⟩
    have := hl.suffix.length_le
    rw [List.length_cons] at hi
    exact ih (by omega) h

theorem Draft.not_completes (hK : K.Above n) {d : Draft} {operand : Term}
    (hi : input.length ≤ n) : ¬ d.Completes K operand input es := by
  rintro ⟨rest, _, hl, h⟩
  exact not_closes hK (Nat.le_trans hl.suffix.length_le hi) h

theorem Draft.not_continues (hK : K.Above n) {d : Draft} (hi : input.length ≤ n + 1) :
    ¬ d.Continues K input es := by
  rintro ⟨rest, _, hu, h⟩
  have := hu.length_le
  rw [Phrase.least] at this
  exact not_completes hK (by omega) h

end Above

/-! ## The token behind an equation -/

section Boundary

variable {K : Demand} {t : Token} {ts : List Token} {es : List Equation} {d : Draft}

theorem Draft.completes_at (hK : K.Above ts.length) (ht : ∀ es, K (t :: ts) es ↔ es = [])
    {operand : Term} :
    d.Completes K operand (t :: ts) es ↔ ∃ e, d.completed operand t = some e ∧ es = [e] := by
  unfold Draft.completed
  cases ho : t.kind.operator? with
  | some op =>
    refine iff_of_false ?_ (by simp)
    rintro ⟨_, _, hl, h⟩
    obtain ⟨mid, right, hu, hw⟩ := (Level.completes_operator ho).1 hl
    exact Draft.not_continues (d := d.withOperator (d.level.waiting operand op)) hK (by omega)
      ⟨mid, right, hu, _, _, hw, h⟩
  | none =>
    rw [Stage.completes_of_no_operator ho]
    cases hd : d.outer with
    | nil => simp [Closes, ht]
    | cons level outer =>
      refine iff_of_false ?_ (by simp)
      rintro ⟨_, _, rest, _, hr, -, hl, h⟩
      obtain ⟨rfl, rfl⟩ := List.cons.inj hr
      exact not_closes hK hl.suffix.length_le h

/-- **The token behind an equation shows it to be complete**: where nothing is demanded at `t`, a
stage is done there if it is between equations, or if `t` completes the one being read. -/
theorem Stage.completes_at (hK : K.Above ts.length) (ht : ∀ es, K (t :: ts) es ↔ es = [])
    {stage : Stage} : stage.Completes K (t :: ts) es ↔
      stage = .equation ∧ es = [] ∨ ∃ e, stage.completed t = some e ∧ es = [e] := by
  -- A stage in the middle of an equation has a token to take at least, and there is none to spare.
  cases stage with
  | equation => simp [Completes, ht, completed]
  | name words =>
    refine iff_of_false ?_ (by simp [completed])
    rintro ⟨more, e, mid, hi, -, -, h⟩
    have hl : mid.length ≤ ts.length := by
      have := congrArg List.length hi
      simp only [List.length_cons, List.length_append] at this
      omega
    exact Draft.not_continues hK (by omega) h
  | unit d =>
    exact iff_of_false (Draft.not_continues hK (Nat.le_refl _)) (by simp [completed])
  | signed negative d | faces count d =>
    refine iff_of_false ?_ (by simp [completed])
    rintro ⟨_, rest, hr, -, h⟩
    obtain ⟨rfl, rfl⟩ := List.cons.inj hr
    exact Draft.not_completes hK (Nat.le_refl _) h
  | integer value d =>
    by_cases hk : t.kind = .dice
    · rw [integer_completes_dice hk]
      refine iff_of_false ?_ (by simp [completed, hk])
      rintro ⟨rest, faces, hf, h⟩
      have := hf.length_lt
      rw [List.length_cons] at this
      exact Draft.not_completes hK (by omega) h
    · rw [integer_completes_operand hk, Draft.completes_at hK ht]
      simp [completed, hk]
  | operator operand d =>
    simp only [Completes, completed, reduceCtorEq, false_and, false_or]
    exact Draft.completes_at hK ht

end Boundary

/-! ## Between equations -/

namespace Outline

variable {groups : Nat} {t : Token}

theorem afterDice_ne_equation : afterDice groups t ≠ .equation := by
  unfold afterDice
  split <;> nofun

theorem readUnit_ne_equation : readUnit groups t ≠ some .equation := by
  unfold readUnit
  split
  · simpa using afterDice_ne_equation
  all_goals nofun

theorem readEquation_eq_equation (h : readEquation t = some .equation) :
    t.kind = .endOfInput := by
  unfold readEquation at h
  split at h
  next hk => exact hk
  next => cases h
  next => exact absurd h readUnit_ne_equation

theorem readOperator_eq_equation (h : readOperator groups t = some .equation) :
    t.kind = .endOfInput := by
  unfold readOperator at h
  split at h
  next => cases h
  next => split at h <;> cases h
  next => exact readEquation_eq_equation h

theorem next_eq_equation {o : Outline} (h : o.next t = some .equation) : t.kind = .endOfInput := by
  cases o with
  | equation => exact readEquation_eq_equation h
  | name =>
    simp only [next] at h
    split at h <;> cases h
  | unit groups => exact absurd h readUnit_ne_equation
  | number groups =>
    simp only [next] at h
    split at h <;> cases h
  | integer groups =>
    simp only [next] at h
    split at h
    · exact absurd (Option.some.inj h) afterDice_ne_equation
    · exact readOperator_eq_equation h
  | operator groups => exact readOperator_eq_equation h

end Outline

namespace Reading

variable {t : Token} {ts before : List Token} {es : List Equation}

theorem equations_takes {b : Token} (hb : b.kind ≠ .endOfInput) :
    Demand.Takes (Equations .greedy · (t :: ts)) b (before ++ t :: ts) := by
  intro es
  refine ⟨fun h => ?_, fun h => ?_⟩
  · generalize hbs : b :: (before ++ t :: ts) = input at h
    cases h with
    | nil =>
      have := congrArg List.length hbs
      simp at this
      omega
    | cons hn hd hs =>
      subst hbs
      exact (Stage.named_cons (K := (Equations .greedy · (t :: ts))).1
        ⟨_, _, _, _, _, hn, hd, hs, rfl⟩).2
  · obtain ⟨_, _, _, _, _, hn, hd, hs, rfl⟩ := Stage.named_cons.2 ⟨hb, h⟩
    exact .cons hn hd hs

theorem run_cons_apart {limits : Limits} {stage : Stage} {b : Token} {bs : List Token}
    {r : Reading} : run limits ⟨[], stage⟩ (b :: bs) = .ok r ↔ ∃ next r',
      stage.next limits b = .ok next ∧ run limits ⟨[], next⟩ bs = .ok r' ∧
        r = ⟨r'.done ++ (stage.completed b).toList, r'.stage⟩ := by
  have hb (next : Stage) : run limits ⟨(stage.completed b).toList, next⟩ bs =
      (run limits ⟨[], next⟩ bs).map fun r => ⟨r.done ++ (stage.completed b).toList, r.stage⟩ :=
    run_behind [] _
  simp only [run_cons_eq_ok_iff, List.append_nil, hb]
  refine ⟨fun h => ?_, fun h => ?_⟩
  · obtain ⟨next, hn, h⟩ := h
    cases hr : run limits ⟨[], next⟩ bs with
    | error e => simp [hr, Except.map] at h
    | ok r' =>
      rw [hr] at h
      cases h
      exact ⟨next, r', hn, hr, rfl⟩
  · obtain ⟨next, r', hn, hr, rfl⟩ := h
    exact ⟨next, hn, by rw [hr]; rfl⟩

/-- The equations that end in front of `t` are those that the reader has completed by then, and one
more if `t` shows it to be complete. -/
theorem completes_iff_run (hb : ∀ b ∈ before, b.kind ≠ .endOfInput) {stage : Stage} :
    stage.Completes (Equations .greedy · (t :: ts)) (before ++ t :: ts) es ↔
      ∃ r, run .unlimited ⟨[], stage⟩ before = .ok r ∧
        ∃ es', r.stage.Completes (Equations .greedy · (t :: ts)) (t :: ts) es' ∧
          es = r.done.reverse ++ es' := by
  induction before generalizing stage es with
  | nil => simp
  | cons b before ih =>
    obtain ⟨hk, hb⟩ := List.forall_mem_cons.1 hb
    rw [List.cons_append, Stage.completes_cons (equations_takes hk)]
    simp only [run_cons_apart, ih hb]
    refine ⟨fun h => ?_, fun h => ?_⟩
    · obtain ⟨next, _, hn, ⟨r, hr, es', h, rfl⟩, rfl⟩ := h
      exact ⟨_, ⟨next, r, hn, hr, rfl⟩, es', h, by simp [reverse_toList]⟩
    · obtain ⟨_, ⟨next, r, hn, hr, rfl⟩, es', h, rfl⟩ := h
      exact ⟨next, _, hn, ⟨r, hr, es', h, rfl⟩, by simp [reverse_toList]⟩

theorem stage_ne_equation {r r' : Reading} (hb : ∀ b ∈ before, b.kind ≠ .endOfInput)
    (hne : before ≠ []) (hr : run .unlimited r before = .ok r') : r'.stage ≠ .equation := by
  intro he
  induction before generalizing r with
  | nil => exact hne rfl
  | cons b before ih =>
    obtain ⟨hk, hb⟩ := List.forall_mem_cons.1 hb
    obtain ⟨stage, hs, hr⟩ := run_cons_eq_ok_iff.1 hr
    by_cases hbefore : before = []
    · subst hbefore
      cases hr
      obtain rfl : stage = .equation := he
      have ho := Stage.outline_next r.stage b
      rw [hs] at ho
      exact hk (Outline.next_eq_equation ho.symm)
    · exact ih hb hbefore hr

/-- **An equation is complete at the token behind it**: the one that `t` shows to be complete is the
last of those that stand in front of `t`. -/
theorem completed_iff {r : Reading} {e : Equation} (hb : ∀ b ∈ before, b.kind ≠ .endOfInput)
    (hr : run .unlimited .start before = .ok r) : r.stage.completed t = some e ↔
      ∃ es, Equations .greedy (before ++ t :: ts) (t :: ts) (es ++ [e]) := by
  have hstart {es : List Equation} :
      Stage.equation.Completes (Equations .greedy · (t :: ts)) (before ++ t :: ts) es ↔
        Equations .greedy (before ++ t :: ts) (t :: ts) es := by
    cases before <;> exact Iff.rfl
  have hK : Demand.Above (Equations .greedy · (t :: ts)) ts.length := by
    intro input es hi h
    have := h.length_le
    rw [List.length_cons] at this
    omega
  have hat {es : List Equation} :
      r.stage.Completes (Equations .greedy · (t :: ts)) (t :: ts) es ↔
        r.stage = .equation ∧ es = [] ∨ ∃ e, r.stage.completed t = some e ∧ es = [e] :=
    Stage.completes_at hK fun _ => Equations.self_iff
  simp only [← hstart, completes_iff_run hb]
  refine ⟨fun h => ?_, fun h => ?_⟩
  · exact ⟨r.done.reverse, r, hr, [e], hat.2 (.inr ⟨e, h, rfl⟩), rfl⟩
  · obtain ⟨es, r', hr', es', h, he⟩ := h
    cases hr.symm.trans hr'
    rcases hat.1 h with ⟨hs, rfl⟩ | ⟨e', hc, rfl⟩
    · by_cases hne : before = []
      · subst hne
        cases hr
        simp [start] at he
      · exact absurd hs (stage_ne_equation hb hne hr)
    · obtain ⟨-, he⟩ := List.append_inj' he rfl
      cases he
      exact hc

end Reading

/-! ## Tokens on demand -/

/-- A token as it is lexed, with the equation that it shows to be complete. -/
structure Note where
  token : Token
  completed : Option Equation
  deriving DecidableEq, Repr

/-- What a record says of the note. -/
def Note.entries (n : Note) : List Entry := .token n.token :: n.completed.toList.map .equation

/-- What comes of a reading that lexes as it goes: how it ends, a note for each token that it took
off the lexer, and the lexer as it leaves it. -/
structure Readout where
  outcome : Except SyntaxError Reading
  notes : List Note
  lexer : Lexer

namespace Reading

/-- The notes of a reading through `tokens`, the last of them at the token that cannot be taken, if
there is one. -/
def notes (limits : Limits) (r : Reading) : List Token → List Note
  | [] => []
  | t :: ts =>
    ⟨t, r.stage.completed t⟩ ::
      match r.step limits t with
      | .error _ => []
      | .ok r' => notes limits r' ts

/-- Reads on, taking each token off the lexer when the one before it is read. -/
def pull (limits : Limits) (r : Reading) (lx : Lexer) : Readout :=
  let next := lx.nextToken
  let note : Note := ⟨next.1, r.stage.completed next.1⟩
  match r.step limits next.1 with
  | .error e => ⟨.error e, [note], next.2⟩
  | .ok r' =>
    if next.1.kind = .endOfInput then ⟨.ok r', [note], next.2⟩
    else
      let out := pull limits r' next.2
      ⟨out.outcome, note :: out.notes, out.lexer⟩
termination_by lx.rest.length
decreasing_by exact Lexer.nextToken_rest_lt (by assumption)

variable {limits : Limits} {r r' : Reading} {ts : List Token} {e : SyntaxError}

theorem notes_of_error {t : Token} (h : r.step limits t = .error e) :
    notes limits r (t :: ts) = [⟨t, r.stage.completed t⟩] := by
  rw [notes, h]

theorem notes_of_ok {t : Token} (h : r.step limits t = .ok r') :
    notes limits r (t :: ts) = ⟨t, r.stage.completed t⟩ :: notes limits r' ts := by
  rw [notes, h]

theorem pull_eq (limits : Limits) (r : Reading) (lx : Lexer) :
    (pull limits r lx).outcome = run limits r lx.tokens ∧
      (pull limits r lx).notes = notes limits r lx.tokens := by
  fun_induction pull limits r lx with
  | case1 r lx next note e hs =>
    obtain ⟨after, ha⟩ := lx.exists_tokens_eq_cons
    rw [ha, run_cons, hs, notes_of_error hs]
    exact ⟨rfl, rfl⟩
  | case2 r lx next note r' hs hend =>
    rw [Lexer.tokens_of_end hend, run_cons, hs, notes_of_ok hs]
    exact ⟨rfl, rfl⟩
  | case3 r lx next note r' hs hend out ih =>
    rw [Lexer.tokens_of_not_end hend, run_cons, hs, notes_of_ok hs]
    exact ⟨ih.1, congrArg (note :: ·) ih.2⟩

theorem pull_take (limits : Limits) (r : Reading) (lx : Lexer) :
    lx.take (pull limits r lx).notes.length =
      ((pull limits r lx).notes.map Note.token, (pull limits r lx).lexer) := by
  fun_induction pull limits r lx with
  | case1 r lx next note e hs => rfl
  | case2 r lx next note r' hs hend => rfl
  | case3 r lx next note r' hs hend out ih =>
    simp only [List.length_cons, Lexer.take]
    rw [ih]
    rfl

theorem notes_entries : (notes limits r ts).flatMap Note.entries = r.stage.entries limits ts := by
  induction ts generalizing r with
  | nil => rfl
  | cons t ts ih =>
    cases hs : r.step limits t with
    | error e =>
      rw [notes_of_error hs, Stage.entries, step_eq_error_iff.1 hs]
      simp [Note.entries]
    | ok r' =>
      obtain ⟨stage, hn, rfl⟩ := step_eq_ok_iff.1 hs
      rw [notes_of_ok hs, Stage.entries, hn, List.flatMap_cons, ih]
      rfl

theorem notes_reached {k : Nat} {n : Note} (h : (notes limits r ts)[k]? = some n) :
    ∃ before after r', ts = before ++ n.token :: after ∧ before.length = k ∧
      run limits r before = .ok r' ∧ n.completed = r'.stage.completed n.token := by
  induction ts generalizing r k with
  | nil => cases h
  | cons t ts ih =>
    cases k with
    | zero =>
      cases h
      exact ⟨[], ts, r, rfl, rfl, rfl, rfl⟩
    | succ k =>
      cases hs : r.step limits t with
      | error e => simp [notes_of_error hs] at h
      | ok r₁ =>
        rw [notes_of_ok hs, List.getElem?_cons_succ] at h
        obtain ⟨before, after, r', rfl, rfl, hr, hc⟩ := ih h
        refine ⟨t :: before, after, r', rfl, rfl, ?_, hc⟩
        rw [run_cons, hs]
        exact hr

theorem notes_of_run_ok (h : run limits r ts = .ok r') :
    (notes limits r ts).map Note.token = ts ∧
      r'.done.reverse = r.done.reverse ++ (notes limits r ts).filterMap Note.completed := by
  induction ts generalizing r with
  | nil =>
    cases h
    exact ⟨rfl, (List.append_nil _).symm⟩
  | cons t ts ih =>
    obtain ⟨stage, hn, h⟩ := run_cons_eq_ok_iff.1 h
    obtain ⟨ht, hd⟩ := ih h
    rw [notes_of_ok (step_eq_ok_iff.2 ⟨stage, hn, rfl⟩)]
    refine ⟨by rw [List.map_cons, ht], ?_⟩
    rw [hd]
    cases r.stage.completed t <;> simp

theorem notes_of_run_error (h : run limits r ts = .error e) : ∃ before after,
    ts = before ++ e.received :: after ∧
      (notes limits r ts).map Note.token = before ++ [e.received] := by
  obtain ⟨before, after, r', rfl, hr, hn, -⟩ := run_error_received h
  refine ⟨before, after, rfl, ?_⟩
  clear h
  induction before generalizing r with
  | nil =>
    cases hr
    rw [List.nil_append, notes_of_error (step_eq_error_iff.2 hn)]
    rfl
  | cons t before ih =>
    obtain ⟨stage, hs, hr⟩ := run_cons_eq_ok_iff.1 hr
    rw [List.cons_append, notes_of_ok (step_eq_ok_iff.2 ⟨stage, hs, rfl⟩), List.map_cons, ih hr]
    rfl

theorem notes_completed_iff (ht : Terminated ts) {k : Nat} {n : Note}
    (h : (notes limits .start ts)[k]? = some n) {e : Equation} :
    n.completed = some e ↔ ∃ es, Equations .greedy ts (ts.drop k) (es ++ [e]) := by
  obtain ⟨before, after, r, rfl, rfl, hr, hc⟩ := notes_reached h
  rw [hc, List.drop_left, completed_iff ht.not_end (run_ok_unlimited hr)]

end Reading

/-- In `1 2` the first equation is noted with the second number, and the second with the end. -/
example : (Reading.notes .standard .start (Source.ofText "1 2").tokens).map Note.completed =
    [none, some ⟨"", .int 1⟩, some ⟨"", .int 2⟩] := by
  decide +kernel

end DiceNotation
