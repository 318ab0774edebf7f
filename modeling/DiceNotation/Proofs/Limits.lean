/-
What the limits cut off. The reader without limits leaves a trail: the stage it
is in and the tokens of the equation at hand. A token that it takes oversteps a
limit if it opens a group or a power too many, or is an operator too many, as
the tokens of its own equation tell (`Trail.Over`). Within limits a text is read
as it is without them unless some token oversteps, and then the first that does
is the error (`Reading.run_atMost`); the equations before it have no part in that
(`Stage.next_of_starts`).
-/
import DiceNotation.Proofs.Nesting

namespace DiceNotation

/-- The token is the first of an equation: none is being read, or the one that is is complete. -/
def Stage.starts (stage : Stage) (t : Token) : Bool :=
  stage = .equation || (stage.completed t).isSome

/-- How far the reader has come without limits: its stage and the tokens of the equation at hand,
the last first. -/
structure Trail where
  stage : Stage
  own : List Token
  deriving DecidableEq

namespace Trail

def start : Trail := ⟨.equation, []⟩

/-- The tokens in front of `t` in its equation, the last first. -/
def before (trail : Trail) (t : Token) : List Token :=
  if trail.stage.starts t then [] else trail.own

/-- The trail once `t` is taken, if it can be taken without limits. -/
def step (trail : Trail) (t : Token) : Option Trail :=
  match trail.stage.next .unlimited t with
  | .error _ => none
  | .ok stage => some ⟨stage, t :: trail.before t⟩

/-- The trail once all of `tokens` are taken. -/
def through (trail : Trail) (tokens : List Token) : Option Trail := tokens.foldlM step trail

/-- The token can be taken without limits and is the first over one of them: it opens a group or the
right operand of a power inside `nesting` others, or it is an operator behind `operators` others of
its equation. Nesting goes first. -/
inductive Over (nesting operators : Nat) (trail : Trail) (t : Token) : Expectation → Prop
  | nesting : (trail.step t).isSome → t.opens = true → nesting ≤ openIn 0 (trail.before t) →
    Over nesting operators trail t (.nestingAtMost nesting)
  | operators : (trail.step t).isSome →
    ¬ (t.opens = true ∧ nesting ≤ openIn 0 (trail.before t)) →
    t.joins (trail.before t) = true → operators ≤ operatorsIn (trail.before t) →
    Over nesting operators trail t (.operatorsAtMost operators)

/-- Behind the tokens `passed`, all of which can be taken, `t` oversteps the limit `x`. -/
def Oversteps (nesting operators : Nat) (trail : Trail) (passed : List Token) (t : Token)
    (x : Expectation) : Prop :=
  ∃ reached, trail.through passed = some reached ∧ reached.Over nesting operators t x

end Trail

/-! ## Single tokens -/

/-- The stage, unless `t` behind the tokens `before` of its equation oversteps a limit. -/
def guarded (nesting operators : Nat) (before : List Token) (t : Token) (stage : Stage) :
    Except SyntaxError Stage :=
  if t.opens = true ∧ nesting ≤ openIn 0 before then
    .error (.unexpected t (.nestingAtMost nesting) [])
  else if t.joins before = true ∧ operators ≤ operatorsIn before then
    .error (.unexpected t (.operatorsAtMost operators) [])
  else .ok stage

variable {nesting operators : Nat} {before : List Token} {t : Token} {stage : Stage} {d : Draft}

theorem guarded_of_plain (ho : t.opens = false) (hj : t.joins before = false) :
    guarded nesting operators before t stage = .ok stage := by
  simp [guarded, ho, hj]

theorem guarded_of_mem (ht : t.kind ∈ [Kind.word, .equal, .dice, .integer]) :
    guarded nesting operators before t stage = .ok stage := by
  obtain ⟨ho, -, hop⟩ := Token.plain_of_mem ht
  exact guarded_of_plain ho (Token.joins_of_no_operator hop)

theorem Limits.checkNesting_atMost {depth : Nat} :
    (Limits.atMost nesting operators).checkNesting depth t =
      if nesting ≤ depth then .error (.unexpected t (.nestingAtMost nesting) []) else .ok () := by
  by_cases h : nesting ≤ depth <;> simp [checkNesting, atMost, h, Nat.not_lt.2, Nat.not_le.1]

theorem Limits.checkOperators_atMost {count : Nat} :
    (Limits.atMost nesting operators).checkOperators count t =
      if operators ≤ count then .error (.unexpected t (.operatorsAtMost operators) [])
      else .ok () := by
  by_cases h : operators ≤ count <;> simp [checkOperators, atMost, h, Nat.not_lt.2, Nat.not_le.1]

theorem ok_bind {ε α β : Type} {x : α} {f : α → Except ε β} : (Except.ok x >>= f) = f x := rfl

namespace Stage

theorem readUnit_atMost (h : d.Told before) (he : before.head?.any Token.endsOperand = false) :
    readUnit (.atMost nesting operators) d t =
      readUnit .unlimited d t >>= guarded nesting operators before t := by
  have hj : t.joins before = false := Token.joins_of_no_operand he
  by_cases ht : t.kind = .leftParen
  · have hfree : readUnit .unlimited d t = .ok (.unit d.openGroup) := by
      simp only [readUnit, ht]
      rfl
    have hlimited : readUnit (.atMost nesting operators) d t =
        (do (Limits.atMost nesting operators).checkNesting d.depth t; .ok (.unit d.openGroup)) := by
      simp only [readUnit, ht]
      rfl
    have ho : t.opens = true := by simp [Token.opens, ht]
    rw [hfree, hlimited, Limits.checkNesting_atMost, ok_bind, guarded, h.openIn_zero]
    by_cases hn : nesting ≤ d.depth <;> simp [hn, ho, hj, bind, Except.bind]
  · unfold readUnit
    split
    case h_5 hk => exact absurd hk ht
    case h_6 => rfl
    all_goals
      rename_i hk
      exact (guarded_of_plain (by simp [Token.opens, hk]) hj).symm

theorem readEquation_atMost : readEquation (.atMost nesting operators) t =
    readEquation .unlimited t >>= guarded nesting operators [] t := by
  have hj : t.joins [] = false := Token.joins_of_no_operand rfl
  unfold readEquation
  split
  next ht => exact (guarded_of_plain (by simp [Token.opens, ht]) hj).symm
  next ht => exact (guarded_of_plain (by simp [Token.opens, ht]) hj).symm
  next => exact readUnit_atMost (Draft.named_told "") rfl

theorem readOperator_atMost {operand : Term} (h : d.Told before)
    (he : before.head?.any Token.endsOperand = true) (hc : d.completed operand t = none) :
    readOperator (.atMost nesting operators) operand d t =
      readOperator .unlimited operand d t >>= guarded nesting operators before t := by
  cases hop : t.kind.operator? with
  | some op =>
    have hj : t.joins before = true := by simp [Token.joins, hop, he]
    have ho : t.opens = decide (op = .pow) := Token.opens_of_operator hop
    have hlimited : readOperator (.atMost nesting operators) operand d t = (do
        if op = .pow then (Limits.atMost nesting operators).checkNesting d.depth t
        (Limits.atMost nesting operators).checkOperators d.operators t
        .ok (.unit (d.withOperator (d.level.waiting operand op)))) := by
      simp only [readOperator, hop]
      rfl
    rw [readOperator_operator hop, hlimited, Limits.checkNesting_atMost,
      Limits.checkOperators_atMost, ok_bind, guarded, h.openIn_zero, h.operators]
    by_cases hpow : op = .pow <;> by_cases hn : nesting ≤ d.depth <;>
      by_cases hm : operators ≤ d.operators <;> simp [ho, hj, hpow, hn, hm, bind, Except.bind]
  | none =>
    have hj : t.joins before = false := Token.joins_of_no_operator hop
    have hd : d.outer ≠ [] := by
      intro hd
      simp [Draft.completed, hop, hd] at hc
    obtain ⟨level, outer, hd⟩ := List.exists_cons_of_ne_nil hd
    simp only [readOperator, hop, hd]
    split
    next ht => exact (guarded_of_plain (by simp [Token.opens, ht]) hj).symm
    next => rfl

theorem next_atMost (h : stage.Told before) (he : stage ≠ .equation)
    (hc : stage.completed t = none) : stage.next (.atMost nesting operators) t =
      stage.next .unlimited t >>= guarded nesting operators before t := by
  cases stage with
  | equation => exact absurd rfl he
  | name words =>
    simp only [next]
    split
    next ht =>
      exact (guarded_of_mem (by simp [ht])).symm
    next ht =>
      exact (guarded_of_mem (by simp [ht])).symm
    next => rfl
  | unit d => exact readUnit_atMost h.1 h.2
  | signed | faces =>
    simp only [next]
    split
    next ht =>
      exact (guarded_of_mem (by simp [ht])).symm
    next => rfl
  | integer value d =>
    simp only [next]
    split
    next ht =>
      exact (guarded_of_mem (by simp [ht])).symm
    next ht =>
      have hc' : d.completed (.int value) t = none := by rwa [completed, if_neg ht] at hc
      exact readOperator_atMost h.1 h.2 hc'
  | operator operand d => exact readOperator_atMost h.1 h.2 hc

theorem completed_isSome_iff {operand : Term} :
    (d.completed operand t).isSome = true ↔ t.kind.operator? = none ∧ d.outer = [] := by
  unfold Draft.completed
  split
  next h => exact iff_of_true rfl h
  next h => exact iff_of_false Bool.false_ne_true h

theorem readOperator_of_completed {limits : Limits} {operand : Term}
    (hc : (d.completed operand t).isSome = true) :
    readOperator limits operand d t = readEquation limits t := by
  obtain ⟨ho, hd⟩ := completed_isSome_iff.1 hc
  simp only [readOperator, ho, hd]

/-- **What starts an equation is read as if nothing stood before it.** -/
theorem next_of_starts {limits : Limits} (hs : stage.starts t = true) :
    stage.next limits t = readEquation limits t := by
  have hs' : stage = .equation ∨ (stage.completed t).isSome = true := by
    simpa [starts] using hs
  rcases hs' with rfl | hc
  · rfl
  cases stage with
  | equation | name | unit | signed | faces => cases hc
  | integer value d =>
    by_cases ht : t.kind = .dice
    · rw [completed, if_pos ht] at hc
      cases hc
    · rw [completed, if_neg ht] at hc
      rw [next_integer ht, readOperator_of_completed hc]
  | operator operand d => exact readOperator_of_completed hc

theorem not_starts_iff : stage.starts t = false ↔
    stage ≠ .equation ∧ stage.completed t = none := by
  simp [starts]

end Stage

namespace Trail

variable {trail trail' : Trail}

/-- The trail tells what is open and how many operators there are. -/
def Told (trail : Trail) : Prop := trail.stage.Told trail.own

theorem start_told : start.Told := trivial

theorem step_eq_some_iff : trail.step t = some trail' ↔ ∃ stage,
    trail.stage.next .unlimited t = .ok stage ∧ trail' = ⟨stage, t :: trail.before t⟩ := by
  unfold step
  cases trail.stage.next .unlimited t <;> simp [eq_comm]

theorem step_told (h : trail.Told) (hs : trail.step t = some trail') : trail'.Told := by
  obtain ⟨stage, hn, rfl⟩ := step_eq_some_iff.1 hs
  by_cases hstarts : trail.stage.starts t = true
  · rw [Stage.next_of_starts hstarts] at hn
    rw [before, if_pos hstarts]
    exact Stage.readEquation_told hn
  · obtain ⟨he, hc⟩ := Stage.not_starts_iff.1 (eq_false_of_ne_true hstarts)
    rw [before, if_neg hstarts]
    exact Stage.next_told h he hc hn

/-- **A step within limits** is the step without them, guarded. -/
theorem next_atMost (h : trail.Told) : trail.stage.next (.atMost nesting operators) t =
    trail.stage.next .unlimited t >>= guarded nesting operators (trail.before t) t := by
  by_cases hstarts : trail.stage.starts t = true
  · rw [Stage.next_of_starts hstarts, Stage.next_of_starts hstarts, before, if_pos hstarts]
    exact Stage.readEquation_atMost
  · obtain ⟨he, hc⟩ := Stage.not_starts_iff.1 (eq_false_of_ne_true hstarts)
    rw [before, if_neg hstarts]
    obtain ⟨stage, own⟩ := trail
    exact Stage.next_atMost h he hc

theorem next_of_over {x : Expectation} (h : trail.Told) (hx : trail.Over nesting operators t x) :
    trail.stage.next (.atMost nesting operators) t = .error (.unexpected t x []) := by
  rw [next_atMost h]
  have hnext (ht : (trail.step t).isSome = true) :
      ∃ stage, trail.stage.next .unlimited t = .ok stage := by
    obtain ⟨trail', hs⟩ := Option.isSome_iff_exists.1 ht
    obtain ⟨stage, hn, -⟩ := step_eq_some_iff.1 hs
    exact ⟨stage, hn⟩
  cases hx with
  | nesting ht ho hd =>
    obtain ⟨stage, hn⟩ := hnext ht
    rw [hn, ok_bind, guarded, if_pos ⟨ho, hd⟩]
  | operators ht hd hj hc =>
    obtain ⟨stage, hn⟩ := hnext ht
    rw [hn, ok_bind, guarded, if_neg hd, if_pos ⟨hj, hc⟩]

theorem next_of_not_over (h : trail.Told) (hx : ∀ x, ¬ trail.Over nesting operators t x) :
    trail.stage.next (.atMost nesting operators) t = trail.stage.next .unlimited t := by
  rw [next_atMost h]
  cases hn : trail.stage.next .unlimited t with
  | error e => rfl
  | ok stage =>
    have ht : (trail.step t).isSome = true := by
      rw [step_eq_some_iff.2 ⟨stage, hn, rfl⟩]
      rfl
    have hd : ¬ (t.opens = true ∧ nesting ≤ openIn 0 (trail.before t)) :=
      fun hd => hx _ (.nesting ht hd.1 hd.2)
    have hc : ¬ (t.joins (trail.before t) = true ∧ operators ≤ operatorsIn (trail.before t)) :=
      fun hc => hx _ (.operators ht hd hc.1 hc.2)
    rw [ok_bind, guarded, if_neg hd, if_neg hc]

/-! ## Runs -/

theorem oversteps_nil {x : Expectation} :
    trail.Oversteps nesting operators [] t x ↔ trail.Over nesting operators t x := by
  simp [Oversteps, through]

theorem oversteps_cons {u : Token} {passed : List Token} {x : Expectation} :
    trail.Oversteps nesting operators (u :: passed) t x ↔ ∃ next, trail.step u = some next ∧
      next.Oversteps nesting operators passed t x := by
  simp only [Oversteps, through, List.foldlM_cons, Option.bind_eq_bind, Option.bind_eq_some_iff]
  constructor
  · rintro ⟨reached, ⟨next, hs, hr⟩, hx⟩
    exact ⟨next, hs, reached, hr, hx⟩
  · rintro ⟨next, hs, reached, hr, hx⟩
    exact ⟨reached, ⟨next, hs, hr⟩, hx⟩

/-- Among `tokens`, `t` is the first to overstep a limit. -/
structure First (nesting operators : Nat) (trail : Trail) (tokens passed : List Token) (t : Token)
    (x : Expectation) : Prop where
  here : ∃ later, tokens = passed ++ t :: later
  oversteps : trail.Oversteps nesting operators passed t x
  none_before : ∀ p u q y, passed = p ++ u :: q → ¬ trail.Oversteps nesting operators p u y

/-- None of `tokens` oversteps a limit. -/
def Within (nesting operators : Nat) (trail : Trail) (tokens : List Token) : Prop :=
  ∀ passed t later x, tokens = passed ++ t :: later →
    ¬ trail.Oversteps nesting operators passed t x

theorem first_of_over {ts : List Token} {x : Expectation}
    (hx : trail.Over nesting operators t x) : trail.First nesting operators (t :: ts) [] t x where
  here := ⟨ts, rfl⟩
  oversteps := oversteps_nil.2 hx
  none_before := by
    intro p u q y hp
    simp at hp

theorem First.cons {u : Token} {ts passed : List Token} {x : Expectation}
    (hu : ∀ y, ¬ trail.Over nesting operators u y) (hs : trail.step u = some trail')
    (h : trail'.First nesting operators ts passed t x) :
    trail.First nesting operators (u :: ts) (u :: passed) t x where
  here := by
    obtain ⟨later, rfl⟩ := h.here
    exact ⟨later, rfl⟩
  oversteps := oversteps_cons.2 ⟨trail', hs, h.oversteps⟩
  none_before := by
    intro p v q y hp hv
    cases p with
    | nil =>
      obtain ⟨rfl, rfl⟩ := List.cons.inj hp
      exact hu y (oversteps_nil.1 hv)
    | cons w p =>
      obtain ⟨rfl, rfl⟩ := List.cons.inj hp
      obtain ⟨next, hn, hv⟩ := oversteps_cons.1 hv
      obtain rfl : trail' = next := Option.some.inj (hs.symm.trans hn)
      exact h.none_before p v q y rfl hv

theorem within_nil : trail.Within nesting operators [] := by
  intro passed t later x hts
  simp at hts

theorem within_cons {u : Token} {ts : List Token} (hu : ∀ y, ¬ trail.Over nesting operators u y)
    (h : ∀ trail', trail.step u = some trail' → trail'.Within nesting operators ts) :
    trail.Within nesting operators (u :: ts) := by
  intro passed t later x hts ht
  cases passed with
  | nil =>
    obtain ⟨rfl, rfl⟩ := List.cons.inj hts
    exact hu x (oversteps_nil.1 ht)
  | cons w passed =>
    obtain ⟨rfl, rfl⟩ := List.cons.inj hts
    obtain ⟨next, hn, ht⟩ := oversteps_cons.1 ht
    exact h next hn passed t later x rfl ht

end Trail

namespace Reading

/-- **A run within limits** is the run without them if no token oversteps one, and otherwise fails
at the first token that does. -/
theorem run_atMost {trail : Trail} (h : trail.Told) (done : List Equation) (tokens : List Token) :
    trail.Within nesting operators tokens ∧
        run (.atMost nesting operators) ⟨done, trail.stage⟩ tokens =
          run .unlimited ⟨done, trail.stage⟩ tokens ∨
      ∃ passed t x, trail.First nesting operators tokens passed t x ∧
        run (.atMost nesting operators) ⟨done, trail.stage⟩ tokens =
          .error (.unexpected t x []) := by
  induction tokens generalizing trail done with
  | nil => exact .inl ⟨Trail.within_nil, rfl⟩
  | cons t ts ih =>
    by_cases hx : ∃ x, trail.Over nesting operators t x
    · obtain ⟨x, hx⟩ := hx
      refine .inr ⟨[], t, x, Trail.first_of_over hx, ?_⟩
      rw [run_cons, step_eq_error_iff.2 (Trail.next_of_over h hx)]
      rfl
    rw [not_exists] at hx
    have hnext : trail.stage.next (.atMost nesting operators) t =
        trail.stage.next .unlimited t := Trail.next_of_not_over h hx
    rw [run_cons, run_cons, step, step, hnext]
    cases hs : trail.stage.next .unlimited t with
    | error e =>
      refine .inl ⟨Trail.within_cons hx fun trail' ht => ?_, rfl⟩
      obtain ⟨stage, hn, -⟩ := Trail.step_eq_some_iff.1 ht
      cases hs.symm.trans hn
    | ok stage =>
      have hstep : trail.step t = some ⟨stage, t :: trail.before t⟩ :=
        Trail.step_eq_some_iff.2 ⟨stage, hs, rfl⟩
      have hrest := ih (Trail.step_told h hstep) ((trail.stage.completed t).toList ++ done)
      rcases hrest with ⟨hw, hr⟩ | ⟨passed, u, x, hf, hr⟩
      · refine .inl ⟨Trail.within_cons hx fun trail' ht => ?_, hr⟩
        obtain rfl : _ = trail' := Option.some.inj (hstep.symm.trans ht)
        exact hw
      · exact .inr ⟨t :: passed, u, x, hf.cons hx hstep, hr⟩

/-- Whether and where a run fails does not depend on the equations before it. -/
theorem run_error_congr {limits : Limits} {e : SyntaxError} {tokens : List Token}
    (done done' : List Equation) (h : run limits ⟨done, stage⟩ tokens = .error e) :
    run limits ⟨done', stage⟩ tokens = .error e := by
  rw [← List.nil_append done, run_behind] at h
  rw [← List.nil_append done', run_behind]
  cases hr : run limits ⟨[], stage⟩ tokens with
  | error e' =>
    rw [hr] at h
    exact h
  | ok r =>
    rw [hr] at h
    cases h

/-- What starts an equation completes the one in front of it. -/
theorem run_of_starts {limits : Limits} {ts : List Token} (done : List Equation)
    (hs : stage.starts t = true) : run limits ⟨done, stage⟩ (t :: ts) =
      run limits ⟨(stage.completed t).toList ++ done, .equation⟩ (t :: ts) := by
  rw [run_cons, run_cons, step, step, Stage.next_of_starts hs]
  rfl

/-- What starts an equation is read the same behind all equations. -/
theorem run_error_of_starts {limits : Limits} {e : SyntaxError} {p p' ts : List Token}
    {r r' : Reading} (hp : run limits .start p = .ok r) (hp' : run limits .start p' = .ok r')
    (hr : r.stage.starts t = true) (hr' : r'.stage.starts t = true)
    (h : run limits .start (p ++ t :: ts) = .error e) :
    run limits .start (p' ++ t :: ts) = .error e := by
  rw [run_append, hp] at h
  rw [run_append, hp']
  change run limits ⟨r.done, r.stage⟩ (t :: ts) = .error e at h
  change run limits ⟨r'.done, r'.stage⟩ (t :: ts) = .error e
  rw [run_of_starts r.done hr] at h
  rw [run_of_starts r'.done hr']
  exact run_error_congr _ _ h

end Reading

/-- **The limits cut off what they say and nothing else.** Unless some token oversteps a limit, a
source is read as it is without limits, and otherwise the first token that does is the error. So no
term that is read has more than 1000 operators, and what comes of an equation, if it is an error, is
the same behind all equations that are read. -/
theorem parse_limits (s : Source) :
    (Trail.start.Within 64 1000 s.tokens ∧ Formula.parse s = Formula.ofSource .unlimited s ∨
      ∃ passed t x, Trail.start.First 64 1000 s.tokens passed t x ∧
        Formula.parse s = .error (.unexpected t x [])) ∧
    (∀ f, Formula.parse s = .ok f → ∀ e ∈ f.equations, e.term.operators ≤ 1000) ∧
    ∀ p p' r r' t ts e, Reading.run .standard .start p = .ok r →
      Reading.run .standard .start p' = .ok r' → r.stage.starts t = true →
      r'.stage.starts t = true → (Formula.ofTokens .standard (p ++ t :: ts) = .error e ↔
        Formula.ofTokens .standard (p' ++ t :: ts) = .error e) := by
  refine ⟨?_, ?_, ?_⟩
  · have hrun : Reading.run .standard .start s.tokens = Reading.run .unlimited .start s.tokens →
        Formula.parse s = Formula.ofSource .unlimited s := by
      intro hr
      exact congrArg (Except.map fun r : Reading => (⟨r.done.reverse⟩ : Formula)) hr
    rcases Reading.run_atMost Trail.start_told [] s.tokens with ⟨hw, hr⟩ | ⟨passed, t, x, hf, hr⟩
    · exact .inl ⟨hw, hrun hr⟩
    · exact .inr ⟨passed, t, x, hf, Formula.ofTokens_eq_error_iff.2 hr⟩
  · intro f hf e he
    exact (Formula.sound_of_parse hf e he).2
  · intro p p' r r' t ts e hp hp' hr hr'
    rw [Formula.ofTokens_eq_error_iff, Formula.ofTokens_eq_error_iff]
    exact ⟨Reading.run_error_of_starts hp hp' hr hr', Reading.run_error_of_starts hp' hp hr' hr⟩

end DiceNotation
