/-
Runs of the reader over tokens: one token after the other (`run_cons`,
`run_append`), up to the token that it cannot take (`run_eq_error_iff`). A run
within limits is the run without them unless a limit ends it
(`run_ok_unlimited`, `run_error_unlimited`, `run_of_unlimited`).
-/
import DiceNotation.Formula.Reader

namespace DiceNotation

/-- The tokens end with the end of the input, which stands nowhere else among them. -/
inductive Terminated : List Token → Prop
  | last : t.kind = .endOfInput → Terminated [t]
  | cons : t.kind ≠ .endOfInput → Terminated ts → Terminated (t :: ts)

theorem Terminated.not_end {before after : List Token} {t : Token}
    (h : Terminated (before ++ t :: after)) : ∀ b ∈ before, b.kind ≠ .endOfInput := by
  induction before with
  | nil => nofun
  | cons b before ih =>
    rw [List.cons_append] at h
    generalize hts : before ++ t :: after = ts at h
    cases h with
    | last => simp at hts
    | cons hb h => simpa using ⟨hb, ih (hts ▸ h)⟩

theorem Terminated.ne_nil {ts : List Token} (h : Terminated ts) : ts ≠ [] := by
  cases h <;> nofun

theorem Terminated.exists_eq_append {ts : List Token} (h : Terminated ts) :
    ∃ e, ts = ts.dropLast ++ [e] ∧ e.kind = .endOfInput := by
  induction h with
  | @last t ht => exact ⟨t, rfl, ht⟩
  | cons _ h ih =>
    obtain ⟨e, he, hk⟩ := ih
    refine ⟨e, ?_, hk⟩
    rw [List.dropLast_cons_of_ne_nil h.ne_nil, List.cons_append, ← he]

theorem Lexer.tokens_terminated (lx : Lexer) : Terminated lx.tokens := by
  fun_induction Lexer.tokens lx with
  | case1 lx next h => exact .last h
  | case2 lx next h ih => exact .cons h ih

theorem Source.tokens_terminated (s : Source) : Terminated s.tokens :=
  (Lexer.ofSource s).tokens_terminated

/-- An equation without a name starts with a unit. -/
theorem Stage.readEquation_eq_readUnit {limits : Limits} {t : Token} (ht : t.kind ≠ .endOfInput)
    (hw : t.kind ≠ .word) : readEquation limits t = readUnit limits (.named "") t := by
  simp only [readEquation]

/-- An integer that no dice token follows is an operand. -/
theorem Stage.next_integer {limits : Limits} {value : Int64} {d : Draft} {t : Token}
    (ht : t.kind ≠ .dice) :
    (Stage.integer value d).next limits t = readOperator limits (.int value) d t := by
  simp only [next]

theorem Stage.signed_next_eq_ok_iff {limits : Limits} {negative : Bool} {d : Draft} {t : Token}
    {stage : Stage} : (Stage.signed negative d).next limits t = .ok stage ↔
      t.kind = .integer ∧ stage = .operator (.int (if negative then -t.int else t.int)) d := by
  by_cases ht : t.kind = .integer <;> simp [next, ht, eq_comm]

theorem Stage.faces_next_eq_ok_iff {limits : Limits} {count : Int64} {d : Draft} {t : Token}
    {stage : Stage} : (Stage.faces count d).next limits t = .ok stage ↔
      t.kind = .integer ∧ stage = .operator (.dice count t.int) d := by
  by_cases ht : t.kind = .integer <;> simp [next, ht, eq_comm]

/-! ## What errors are about -/

/-- If there is an error, it is about the token and stands at its place. -/
def About (t : Token) (x : Except SyntaxError α) : Prop :=
  ∀ e, x = .error e → e.received = t ∧ e.position = t.position

theorem About.ok {t : Token} {a : α} : About t (.ok a) := nofun

theorem About.unexpected {t : Token} {x : Expectation} {xs : List Expectation} :
    About t (.error (.unexpected t x xs) : Except SyntaxError α) := by
  rintro _ ⟨⟩
  exact ⟨rfl, rfl⟩

theorem About.bind {t : Token} {x : Except SyntaxError α} {f : α → Except SyntaxError β}
    (h : About t x) (hf : ∀ a, About t (f a)) : About t (x >>= f) := by
  cases x with
  | error e =>
    rintro _ ⟨⟩
    exact h e rfl
  | ok a => exact hf a

theorem Limits.checkNesting_about (limits : Limits) (depth : Nat) (t : Token) :
    About t (limits.checkNesting depth t) := by
  unfold checkNesting
  split
  · exact .ok
  · split
    · exact .ok
    · exact .unexpected

theorem Limits.checkOperators_about (limits : Limits) (count : Nat) (t : Token) :
    About t (limits.checkOperators count t) := by
  unfold checkOperators
  split
  · exact .ok
  · split
    · exact .ok
    · exact .unexpected

namespace Stage

variable {limits : Limits} {d : Draft} {t : Token}

theorem readUnit_about : About t (readUnit limits d t) := by
  unfold readUnit
  split
  case h_5 => exact (limits.checkNesting_about d.depth t).bind fun _ => .ok
  case h_6 => exact .unexpected
  all_goals exact .ok

theorem readEquation_about : About t (readEquation limits t) := by
  unfold readEquation
  split
  · exact .ok
  · exact .ok
  · exact readUnit_about

theorem readOperator_about {operand : Term} : About t (readOperator limits operand d t) := by
  have hops := limits.checkOperators_about d.operators t
  unfold readOperator
  split
  · split
    · exact (limits.checkNesting_about d.depth t).bind fun _ => hops.bind fun _ => .ok
    · exact hops.bind fun _ => .ok
  · split
    · split
      · exact .ok
      · exact .unexpected
    · exact readEquation_about

/-- **An error of a step is about its token**, whatever the limits are. -/
theorem next_about (limits : Limits) (stage : Stage) (t : Token) :
    About t (stage.next limits t) := by
  cases stage with
  | equation => exact readEquation_about
  | name words =>
    simp only [next]
    split
    · exact .ok
    · exact .ok
    · exact .unexpected
  | unit d => exact readUnit_about
  | signed negative d | faces count d =>
    simp only [next]
    split
    · exact .ok
    · exact .unexpected
  | integer value d =>
    simp only [next]
    split
    · exact .ok
    · exact readOperator_about
  | operator operand d => exact readOperator_about

end Stage

namespace Reading

/-- Reads all of `tokens`, from the left. -/
def run (limits : Limits) (r : Reading) (tokens : List Token) : Except SyntaxError Reading :=
  tokens.foldlM (Reading.step limits) r

variable {limits : Limits} {r r' : Reading} {e : SyntaxError} {t : Token}
  {ts before after : List Token}

@[simp] theorem run_nil : run limits r [] = .ok r := rfl

theorem run_cons : run limits r (t :: ts) = (step limits r t).bind (run limits · ts) := rfl

theorem run_append :
    run limits r (before ++ after) = (run limits r before).bind (run limits · after) := by
  simp only [run, List.foldlM_append]
  rfl

theorem step_eq_ok_iff : step limits r t = .ok r' ↔ ∃ stage,
    r.stage.next limits t = .ok stage ∧ r' = ⟨(r.stage.completed t).toList ++ r.done, stage⟩ := by
  unfold step
  cases h : r.stage.next limits t <;> simp [eq_comm]

theorem step_eq_error_iff : step limits r t = .error e ↔ r.stage.next limits t = .error e := by
  unfold step
  cases h : r.stage.next limits t <;> simp

theorem run_cons_eq_ok_iff : run limits r (t :: ts) = .ok r' ↔ ∃ stage,
    r.stage.next limits t = .ok stage ∧
      run limits ⟨(r.stage.completed t).toList ++ r.done, stage⟩ ts = .ok r' := by
  rw [run_cons, step]
  cases h : r.stage.next limits t with
  | error e => simp [Except.bind]
  | ok stage => simp [Except.bind]

/-- A run fails at the first token that cannot be taken. -/
theorem run_eq_error_iff : run limits r ts = .error e ↔ ∃ before t after r',
    ts = before ++ t :: after ∧ run limits r before = .ok r' ∧
      r'.stage.next limits t = .error e := by
  refine ⟨fun h => ?_, fun h => ?_⟩
  · induction ts generalizing r with
    | nil => cases h
    | cons t ts ih =>
      rw [run_cons] at h
      cases hs : step limits r t with
      | error e' =>
        rw [hs] at h
        cases h
        exact ⟨[], t, ts, r, rfl, rfl, step_eq_error_iff.1 hs⟩
      | ok r₁ =>
        rw [hs] at h
        obtain ⟨before, t', after, r', rfl, hr, he⟩ := ih h
        exact ⟨t :: before, t', after, r', rfl, by rw [run_cons, hs]; exact hr, he⟩
  · obtain ⟨before, t, after, r', rfl, hr, he⟩ := h
    rw [run_append, hr]
    simp only [Except.bind, run_cons, step_eq_error_iff.2 he]

/-- A run fails at the token that its error is about. -/
theorem run_error_received (h : run limits r ts = .error e) : ∃ before after r',
    ts = before ++ e.received :: after ∧ run limits r before = .ok r' ∧
      r'.stage.next limits e.received = .error e ∧ e.position = e.received.position := by
  obtain ⟨before, t, after, r', rfl, hr, hn⟩ := run_eq_error_iff.1 h
  obtain ⟨rfl, hp⟩ := Stage.next_about limits r'.stage t e hn
  exact ⟨before, after, r', rfl, hr, hn, hp⟩

/-- The equations read before have no part in those to come. -/
theorem run_behind {stage : Stage} (done earlier : List Equation) :
    run limits ⟨done ++ earlier, stage⟩ ts =
      (run limits ⟨done, stage⟩ ts).map fun r => ⟨r.done ++ earlier, r.stage⟩ := by
  induction ts generalizing done stage with
  | nil => rfl
  | cons t ts ih =>
    rw [run_cons, run_cons, step, step]
    cases hn : stage.next limits t with
    | error e => rfl
    | ok stage' =>
      have hdone : (stage.completed t).toList ++ (done ++ earlier) =
          (stage.completed t).toList ++ done ++ earlier := (List.append_assoc ..).symm
      dsimp only
      rw [hdone]
      exact ih _

end Reading

/-! ## What limits change -/

/-- The error says that one of the limits is reached. -/
def Limits.Reached (limits : Limits) (e : SyntaxError) : Prop :=
  (∃ most, limits.nesting = some most ∧ e.expected = [.nestingAtMost most]) ∨
    ∃ most, limits.operators = some most ∧ e.expected = [.operatorsAtMost most]

/-- A result within limits is the one without them, or the error that a limit is reached. -/
def Agrees (limits : Limits) (limited free : Except SyntaxError α) : Prop :=
  limited = free ∨ ∃ e, limited = .error e ∧ limits.Reached e

theorem Agrees.bind {limits : Limits} {x y : Except SyntaxError α}
    {f g : α → Except SyntaxError β} (h : Agrees limits x y)
    (hfg : ∀ a, Agrees limits (f a) (g a)) : Agrees limits (x >>= f) (y >>= g) := by
  rcases h with rfl | ⟨e, rfl, he⟩
  · cases x with
    | error e => exact .inl rfl
    | ok a => exact hfg a
  · exact .inr ⟨e, rfl, he⟩

theorem Limits.checkNesting_agrees (limits : Limits) (depth : Nat) (t : Token) :
    Agrees limits (limits.checkNesting depth t) (unlimited.checkNesting depth t) := by
  unfold Limits.checkNesting
  split
  next => exact .inl rfl
  next most h =>
    split
    · exact .inl rfl
    · exact .inr ⟨_, rfl, .inl ⟨most, h, rfl⟩⟩

theorem Limits.checkOperators_agrees (limits : Limits) (count : Nat) (t : Token) :
    Agrees limits (limits.checkOperators count t) (unlimited.checkOperators count t) := by
  unfold Limits.checkOperators
  split
  next => exact .inl rfl
  next most h =>
    split
    · exact .inl rfl
    · exact .inr ⟨_, rfl, .inr ⟨most, h, rfl⟩⟩

namespace Stage

variable {limits : Limits} {d : Draft} {t : Token}

theorem readUnit_agrees : Agrees limits (readUnit limits d t) (readUnit .unlimited d t) := by
  unfold readUnit
  split
  case h_5 => exact (limits.checkNesting_agrees d.depth t).bind fun _ => .inl rfl
  all_goals exact .inl rfl

theorem readEquation_agrees :
    Agrees limits (readEquation limits t) (readEquation .unlimited t) := by
  unfold readEquation
  split
  · exact .inl rfl
  · exact .inl rfl
  · exact readUnit_agrees

theorem readOperator_agrees {operand : Term} :
    Agrees limits (readOperator limits operand d t) (readOperator .unlimited operand d t) := by
  unfold readOperator
  split
  next op ho =>
    have hops := limits.checkOperators_agrees d.operators t
    split
    · exact (limits.checkNesting_agrees d.depth t).bind fun _ => hops.bind fun _ => .inl rfl
    · exact hops.bind fun _ => .inl rfl
  next =>
    split
    · exact .inl rfl
    · exact readEquation_agrees

theorem next_agrees (limits : Limits) (stage : Stage) (t : Token) :
    Agrees limits (stage.next limits t) (stage.next .unlimited t) := by
  cases stage with
  | equation => exact readEquation_agrees
  | name words => exact .inl rfl
  | unit d => exact readUnit_agrees
  | signed negative d => exact .inl rfl
  | faces count d => exact .inl rfl
  | integer value d =>
    simp only [next]
    split
    · exact .inl rfl
    · exact readOperator_agrees
  | operator operand d => exact readOperator_agrees

end Stage

namespace Reading

variable {limits : Limits} {r r' : Reading} {e : SyntaxError} {ts : List Token}

/-- A run that ends within the limits ends so without them. -/
theorem run_ok_unlimited (h : run limits r ts = .ok r') : run .unlimited r ts = .ok r' := by
  induction ts generalizing r with
  | nil => exact h
  | cons t ts ih =>
    obtain ⟨stage, hs, hr⟩ := run_cons_eq_ok_iff.1 h
    rcases Stage.next_agrees limits r.stage t with ha | ⟨e, he, -⟩
    · exact run_cons_eq_ok_iff.2 ⟨stage, ha ▸ hs, ih hr⟩
    · cases hs.symm.trans he

/-- A run that fails at no limit fails so without them. -/
theorem run_error_unlimited (h : run limits r ts = .error e) (he : ¬ limits.Reached e) :
    run .unlimited r ts = .error e := by
  obtain ⟨before, t, after, r', rfl, hr, hn⟩ := run_eq_error_iff.1 h
  refine run_eq_error_iff.2 ⟨before, t, after, r', rfl, run_ok_unlimited hr, ?_⟩
  rcases Stage.next_agrees limits r'.stage t with ha | ⟨e', he', hl⟩
  · exact ha ▸ hn
  · cases hn.symm.trans he'
    exact absurd hl he

/-- A run that ends without limits ends so within them, or fails at one. -/
theorem run_of_unlimited (limits : Limits) (h : run .unlimited r ts = .ok r') :
    run limits r ts = .ok r' ∨ ∃ e, run limits r ts = .error e ∧ limits.Reached e := by
  cases hl : run limits r ts with
  | ok r'' =>
    cases h.symm.trans (run_ok_unlimited hl)
    exact .inl rfl
  | error e =>
    by_cases he : limits.Reached e
    · exact .inr ⟨e, rfl, he⟩
    · cases h.symm.trans (run_error_unlimited hl he)

end Reading

theorem Formula.ofTokens_eq_ok_iff {limits : Limits} {tokens : List Token} {f : Formula} :
    ofTokens limits tokens = .ok f ↔
      ∃ r, Reading.run limits .start tokens = .ok r ∧ f.equations = r.done.reverse := by
  unfold ofTokens
  change Except.map _ (Reading.run limits .start tokens) = _ ↔ _
  cases Reading.run limits .start tokens with
  | error e => simp [Except.map]
  | ok r =>
    obtain ⟨equations⟩ := f
    simp [Except.map, eq_comm]

theorem Formula.ofTokens_eq_error_iff {limits : Limits} {tokens : List Token} {e : SyntaxError} :
    ofTokens limits tokens = .error e ↔ Reading.run limits .start tokens = .error e := by
  unfold ofTokens
  change Except.map _ (Reading.run limits .start tokens) = _ ↔ _
  cases Reading.run limits .start tokens <;> simp [Except.map]

end DiceNotation
