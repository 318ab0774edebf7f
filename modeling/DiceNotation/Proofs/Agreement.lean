/-
A response and an evaluation agree. A response goes on past an equation without a
value and an evaluation ends there; up to there both give the same labels and
values with the same dice (`agreement`), so an evaluation fails exactly if
something is wrong with the response (`evaluate_fails_iff`). This is shown for
whoever writes the response down, and from it for the text that the program
prints (`text_evaluate_agree`).
-/
import DiceNotation.Response.Scribe

namespace DiceNotation

variable {σ τ : Type}

/-- The cup after the terms of equations one after the other, whatever comes of them. -/
def Cup.after (r : Roller σ) (equations : List Equation) (cup : Cup σ) : Cup σ :=
  equations.foldl (fun cup equation => (equation.term.eval r cup).2) cup

/-- At place `i` there is an error, and at all places before it a value. -/
def FirstError (outcomes : List (String × Outcome)) (i : Nat) (label : String) (e : DomainError) :
    Prop :=
  outcomes[i]? = some (label, .error e) ∧ ∀ o ∈ outcomes.take i, ∃ x, o.2 = .ok x

/-- Values as outcomes. -/
def outcomesOf (values : List (String × Int64)) : List (String × Outcome) :=
  values.map fun v => (v.1, .ok v.2)

/-- What a response and an evaluation make of the same equations with the same cup. -/
structure Agreement (r : Roller σ) (equations : List Equation) (cup : Cup σ)
    (responded : List (String × Outcome) × Cup σ)
    (evaluated : Except Failure (List (String × Int64)) × Cup σ) : Prop where
  /-- Each equation has one outcome, in its place, with the dice that those before it have left. -/
  outcome : ∀ i, responded.1[i]? = equations[i]?.map fun e =>
    (label e.name i, (e.term.eval r (cup.after r (equations.take i))).1)
  after : responded.2 = cup.after r equations
  values : ∀ values cup', evaluated = (.ok values, cup') ↔ responded = (outcomesOf values, cup')
  all_values : (∃ values, evaluated.1 = .ok values) ↔ ∀ o ∈ responded.1, ∃ x, o.2 = .ok x
  /-- A failure is the first error, and the cup is left as it was after that equation. -/
  failure : ∀ failure cup', evaluated = (.error failure, cup') ↔ ∃ i label e,
    FirstError responded.1 i label e ∧ failure = .domainError label e ∧
      cup' = cup.after r (equations.take (i + 1))
  some_error : (∃ failure, evaluated.1 = .error failure) ↔ ∃ o ∈ responded.1, ∃ e, o.2 = .error e

/-! ## Outcomes -/

variable {r : Roller σ} {index : Nat} {equation : Equation} {equations : List Equation}
  {cup cup' : Cup σ} {l label : String} {e e' : DomainError} {x : Int64}
  {outcomes : List (String × Outcome)} {values : List (String × Int64)} {failure : Failure}

theorem Cup.after_cons : cup.after r (equation :: equations) =
    (equation.term.eval r cup).2.after r equations := rfl

theorem outcomesFrom_cons : outcomesFrom r index (equation :: equations) cup =
    ((DiceNotation.label equation.name index, (equation.term.eval r cup).1) ::
        (outcomesFrom r (index + 1) equations (equation.term.eval r cup).2).1,
      (outcomesFrom r (index + 1) equations (equation.term.eval r cup).2).2) := rfl

theorem outcomesFrom_after (r : Roller σ) (index : Nat) (equations : List Equation) (cup : Cup σ) :
    (outcomesFrom r index equations cup).2 = cup.after r equations := by
  induction equations generalizing index cup with
  | nil => rfl
  | cons equation equations ih =>
    rw [outcomesFrom_cons, Cup.after_cons]
    exact ih _ _

theorem getElem?_outcomesFrom (r : Roller σ) (index : Nat) (equations : List Equation)
    (cup : Cup σ) (i : Nat) : (outcomesFrom r index equations cup).1[i]? =
      equations[i]?.map fun e => (DiceNotation.label e.name (index + i),
        (e.term.eval r (cup.after r (equations.take i))).1) := by
  induction equations generalizing index cup i with
  | nil => rfl
  | cons equation equations ih =>
    rw [outcomesFrom_cons]
    cases i with
    | zero => rfl
    | succ i =>
      rw [List.getElem?_cons_succ, List.getElem?_cons_succ, ih, Nat.add_right_comm, Nat.add_assoc]
      rfl

theorem outcomesOf_cons {v : String × Int64} :
    outcomesOf (v :: values) = (v.1, .ok v.2) :: outcomesOf values := rfl

theorem exists_value_of_mem {o : String × Outcome} (ho : o ∈ outcomesOf values) :
    ∃ x, o.2 = .ok x := by
  obtain ⟨v, -, rfl⟩ := List.mem_map.1 ho
  exact ⟨v.2, rfl⟩

theorem outcomesOf_inj {values' : List (String × Int64)} :
    outcomesOf values = outcomesOf values' ↔ values = values' := by
  refine List.map_inj_right ?_
  rintro ⟨label, x⟩ ⟨label', x'⟩ h
  cases h
  rfl

/-! ## The first error -/

namespace FirstError

variable {i j : Nat}

theorem here : FirstError ((l, .error e) :: outcomes) 0 l e := ⟨rfl, nofun⟩

theorem later (h : FirstError outcomes i label e) :
    FirstError ((l, .ok x) :: outcomes) (i + 1) label e := by
  refine ⟨h.1, ?_⟩
  rw [List.take_succ_cons, List.forall_mem_cons]
  exact ⟨⟨x, rfl⟩, h.2⟩

theorem mem (h : FirstError outcomes i label e) : (label, .error e) ∈ outcomes :=
  List.mem_of_getElem? h.1

/-- No error stands in front of the first. -/
theorem le (h : FirstError outcomes i label e) (h' : FirstError outcomes j l e') : i ≤ j := by
  refine Nat.le_of_not_lt fun hij => ?_
  have hmem : (l, .error e') ∈ outcomes.take i :=
    List.mem_of_getElem? ((List.getElem?_take_of_lt hij).trans h'.1)
  obtain ⟨x, hx⟩ := h.2 _ hmem
  cases hx

theorem unique (h : FirstError outcomes i label e) (h' : FirstError outcomes j l e') :
    i = j ∧ label = l ∧ e = e' := by
  obtain rfl : i = j := Nat.le_antisymm (h.le h') (h'.le h)
  have heq := h.1.symm.trans h'.1
  cases heq
  exact ⟨rfl, rfl, rfl⟩

theorem not_outcomesOf : ¬ FirstError (outcomesOf values) i label e := by
  intro h
  obtain ⟨x, hx⟩ := exists_value_of_mem h.mem
  cases hx

end FirstError

/-! ## Values -/

theorem valuesFrom_of_error (he : equation.term.eval r cup = (.error e, cup')) :
    valuesFrom r index (equation :: equations) cup =
      (.error (.domainError (DiceNotation.label equation.name index) e), cup') := by
  rw [valuesFrom, he]

theorem valuesFrom_of_ok_of_error {cup'' : Cup σ} (he : equation.term.eval r cup = (.ok x, cup'))
    (hv : valuesFrom r (index + 1) equations cup' = (.error failure, cup'')) :
    valuesFrom r index (equation :: equations) cup = (.error failure, cup'') := by
  rw [valuesFrom, he]
  dsimp only
  rw [hv]

theorem valuesFrom_of_ok_of_ok {cup'' : Cup σ} (he : equation.term.eval r cup = (.ok x, cup'))
    (hv : valuesFrom r (index + 1) equations cup' = (.ok values, cup'')) :
    valuesFrom r index (equation :: equations) cup =
      (.ok ((DiceNotation.label equation.name index, x) :: values), cup'') := by
  rw [valuesFrom, he]
  dsimp only
  rw [hv]

/-- What comes of an evaluation beside what comes of a response: the same values, or its first
error. -/
inductive Evaluated (r : Roller σ) (equations : List Equation) (cup : Cup σ)
    (responded : List (String × Outcome) × Cup σ) :
    Except Failure (List (String × Int64)) × Cup σ → Prop
  | values {values : List (String × Int64)} {cup' : Cup σ} :
    responded = (outcomesOf values, cup') →
    Evaluated r equations cup responded (.ok values, cup')
  | failure {i : Nat} {label : String} {e : DomainError} :
    FirstError responded.1 i label e →
    Evaluated r equations cup responded
      (.error (.domainError label e), cup.after r (equations.take (i + 1)))

theorem evaluated (r : Roller σ) (index : Nat) (equations : List Equation) (cup : Cup σ) :
    Evaluated r equations cup (outcomesFrom r index equations cup)
      (valuesFrom r index equations cup) := by
  induction equations generalizing index cup with
  | nil => exact .values rfl
  | cons equation equations ih =>
    have htake (i : Nat) : cup.after r ((equation :: equations).take (i + 1)) =
        (equation.term.eval r cup).2.after r (equations.take i) := rfl
    rw [outcomesFrom_cons]
    rcases he : equation.term.eval r cup with ⟨e | x, cup'⟩
    · have hcup : cup' = cup.after r ((equation :: equations).take (0 + 1)) := by
        rw [htake, he]
        rfl
      rw [valuesFrom_of_error he, hcup]
      exact .failure .here
    · have hrest := ih (index + 1) cup'
      generalize hv : valuesFrom r (index + 1) equations cup' = result at hrest
      cases hrest with
      | values ho =>
        rw [valuesFrom_of_ok_of_ok he hv]
        exact .values (by rw [ho, outcomesOf_cons])
      | @failure i label e hf =>
        have hcup : cup'.after r (equations.take (i + 1)) =
            cup.after r ((equation :: equations).take (i + 1 + 1)) := by
          rw [htake, he]
        rw [valuesFrom_of_ok_of_error he hv, hcup]
        exact .failure hf.later

namespace Evaluated

variable {responded : List (String × Outcome) × Cup σ}
  {result : Except Failure (List (String × Int64)) × Cup σ}

theorem eq_values_iff (h : Evaluated r equations cup responded result) :
    result = (.ok values, cup') ↔ responded = (outcomesOf values, cup') := by
  cases h with
  | values ho =>
    subst ho
    simp [outcomesOf_inj]
  | failure hf =>
    refine iff_of_false nofun ?_
    rintro rfl
    exact FirstError.not_outcomesOf hf

theorem eq_failure_iff (h : Evaluated r equations cup responded result) :
    result = (.error failure, cup') ↔ ∃ i label e, FirstError responded.1 i label e ∧
      failure = .domainError label e ∧ cup' = cup.after r (equations.take (i + 1)) := by
  cases h with
  | values ho =>
    subst ho
    refine iff_of_false nofun ?_
    rintro ⟨i, label, e, hf, -⟩
    exact FirstError.not_outcomesOf hf
  | failure hf =>
    constructor
    · intro heq
      cases heq
      exact ⟨_, _, _, hf, rfl, rfl⟩
    · rintro ⟨j, l, e', hf', rfl, rfl⟩
      obtain ⟨rfl, rfl, rfl⟩ := hf.unique hf'
      rfl

theorem exists_values_iff (h : Evaluated r equations cup responded result) :
    (∃ values, result.1 = .ok values) ↔ ∀ o ∈ responded.1, ∃ x, o.2 = .ok x := by
  cases h with
  | values ho =>
    subst ho
    exact iff_of_true ⟨_, rfl⟩ fun o ho => exists_value_of_mem ho
  | failure hf =>
    refine iff_of_false nofun fun hall => ?_
    obtain ⟨x, hx⟩ := hall _ hf.mem
    cases hx

theorem exists_failure_iff (h : Evaluated r equations cup responded result) :
    (∃ failure, result.1 = .error failure) ↔ ∃ o ∈ responded.1, ∃ e, o.2 = .error e := by
  cases h with
  | values ho =>
    subst ho
    refine iff_of_false nofun ?_
    rintro ⟨o, ho, e, he⟩
    obtain ⟨x, hx⟩ := exists_value_of_mem ho
    cases he.symm.trans hx
  | failure hf => exact iff_of_true ⟨_, rfl⟩ ⟨_, hf.mem, _, rfl⟩

end Evaluated

/-- A response and an evaluation of the same equations agree. -/
theorem agreement (r : Roller σ) (equations : List Equation) (cup : Cup σ) :
    Agreement r equations cup (outcomesFrom r 0 equations cup) (valuesFrom r 0 equations cup) where
  outcome := by
    intro i
    rw [getElem?_outcomesFrom, Nat.zero_add]
  after := outcomesFrom_after r 0 equations cup
  values := fun _ _ => (evaluated r 0 equations cup).eq_values_iff
  all_values := (evaluated r 0 equations cup).exists_values_iff
  failure := fun _ _ => (evaluated r 0 equations cup).eq_failure_iff
  some_error := (evaluated r 0 equations cup).exists_failure_iff

theorem Agreement.length_eq {responded : List (String × Outcome) × Cup σ}
    {result : Except Failure (List (String × Int64)) × Cup σ}
    (h : Agreement r equations cup responded result) : responded.1.length = equations.length := by
  have hnone (i : Nat) : responded.1.length ≤ i ↔ equations.length ≤ i := by
    rw [← List.getElem?_eq_none_iff, h.outcome, Option.map_eq_none_iff, List.getElem?_eq_none_iff]
  exact Nat.le_antisymm ((hnone _).2 (Nat.le_refl _)) ((hnone _).1 (Nat.le_refl _))

/-! ## Whole inputs -/

/-- Something is wrong with the input: it is no formula, or an equation has no value. -/
def Response.Failed (response : Response) : Prop :=
  (∃ e, response.results = .error e) ∨
    ∃ outcomes, response.results = .ok outcomes ∧ ∃ o ∈ outcomes, ∃ e, o.2 = .error e

theorem respond_of_error {s : Source} {e : SyntaxError} (h : Formula.parse s = .error e)
    (r : Roller σ) (cup : Cup σ) : respond r s cup = (⟨s.text, .error e⟩, cup) := by
  rw [respond, h]

theorem respond_of_ok {s : Source} {f : Formula} (h : Formula.parse s = .ok f)
    (r : Roller σ) (cup : Cup σ) : respond r s cup =
      (⟨s.text, .ok (outcomesFrom r 0 f.equations cup).1⟩,
        (outcomesFrom r 0 f.equations cup).2) := by
  rw [respond, h]

theorem evaluate_of_error {s : Source} {e : SyntaxError} (h : Formula.parse s = .error e)
    (r : Roller σ) (cup : Cup σ) : evaluate r s cup = (.error (.syntaxError e), cup) := by
  rw [evaluate, h]

theorem evaluate_of_ok {s : Source} {f : Formula} (h : Formula.parse s = .ok f)
    (r : Roller σ) (cup : Cup σ) : evaluate r s cup = valuesFrom r 0 f.equations cup := by
  rw [evaluate, h]

/-- **An evaluation fails** exactly if something is wrong with the response. -/
theorem evaluate_fails_iff (r : Roller σ) (s : Source) (cup : Cup σ) :
    (∃ failure, (evaluate r s cup).1 = .error failure) ↔ (respond r s cup).1.Failed := by
  cases hs : Formula.parse s with
  | error e =>
    rw [evaluate_of_error hs, respond_of_error hs]
    exact iff_of_true ⟨_, rfl⟩ (.inl ⟨e, rfl⟩)
  | ok f =>
    rw [evaluate_of_ok hs, respond_of_ok hs, (agreement r f.equations cup).some_error]
    simp [Response.Failed]

/-- **Responses and evaluations agree**, whoever writes the response down. -/
theorem respond_evaluate_agree (r : Roller σ) (s : Source) (cup : Cup σ) (w : Scribe τ)
    (mind : τ) :
    (∀ e, Formula.parse s = .error e →
      evaluate r s cup = (.error (.syntaxError e), cup) ∧ (respond r s cup).2 = cup ∧
      (w.write (respond r s cup).1 mind).1 = (w.echo s.text mind).1 ++ "\n" ++
        (w.syntaxError e (w.echo s.text mind).2).1) ∧
    ∀ f, Formula.parse s = .ok f → ∃ outcomes lines,
      Agreement r f.equations cup (outcomes, (respond r s cup).2) (evaluate r s cup) ∧
      (w.write (respond r s cup).1 mind).1 =
        "\n".intercalate ((w.echo s.text mind).1 :: lines) ∧
      lines.length = f.equations.length ∧
      ∀ i, lines[i]? = outcomes[i]?.map fun o => (w.result o.1 o.2
        (w.results (outcomes.take i) (w.echo s.text mind).2).2).1 := by
  constructor
  · intro e hs
    rw [evaluate_of_error hs, respond_of_error hs]
    exact ⟨rfl, rfl, w.write_of_error s.text e mind⟩
  · intro f hs
    rw [evaluate_of_ok hs, respond_of_ok hs]
    have hagree := agreement r f.equations cup
    refine ⟨(outcomesFrom r 0 f.equations cup).1,
      (w.results (outcomesFrom r 0 f.equations cup).1 (w.echo s.text mind).2).1,
      hagree, w.write_of_ok s.text _ mind, ?_, w.getElem?_results _ _⟩
    rw [w.length_results, hagree.length_eq]

/-- **The text of a response agrees with an evaluation**, in every style, so in plain text and in
Markdown: what the program prints is written by the scribe that keeps nothing in mind. -/
theorem text_evaluate_agree (r : Roller σ) (s : Source) (cup : Cup σ) (style : Style) :
    (∀ e, Formula.parse s = .error e →
      evaluate r s cup = (.error (.syntaxError e), cup) ∧ (respond r s cup).2 = cup ∧
      (respond r s cup).1.text style = style.echo s.text ++ "\n" ++ style.syntaxError e) ∧
    ∀ f, Formula.parse s = .ok f → ∃ outcomes,
      Agreement r f.equations cup (outcomes, (respond r s cup).2) (evaluate r s cup) ∧
      (respond r s cup).1.text style =
        "\n".intercalate (style.echo s.text :: outcomes.map fun o => style.result o.1 o.2) := by
  constructor
  · intro e hs
    rw [evaluate_of_error hs, respond_of_error hs, ← style.write_scribe]
    exact ⟨rfl, rfl, style.scribe.write_of_error s.text e ()⟩
  · intro f hs
    rw [evaluate_of_ok hs, respond_of_ok hs]
    refine ⟨(outcomesFrom r 0 f.equations cup).1, agreement r f.equations cup, ?_⟩
    rw [← style.write_scribe, ← style.results_scribe]
    exact style.scribe.write_of_ok s.text _ ()

end DiceNotation
