/-
Scribes: whoever writes a response down, part by part and in order. A scribe may
keep in mind what it has written and let the parts to come depend on that. A
style is a scribe that keeps nothing in mind (`Style.write_scribe`).
-/
import DiceNotation.Response.Style

namespace DiceNotation

variable {τ : Type}

/-- How the parts of a response are written, with what is in mind before and after each. -/
structure Scribe (τ : Type) where
  echo : String → τ → String × τ
  syntaxError : SyntaxError → τ → String × τ
  result : (label : String) → Outcome → τ → String × τ

namespace Scribe

/-- Writes results one after the other, each on a line of its own. -/
def results (w : Scribe τ) : List (String × Outcome) → τ → List String × τ
  | [], mind => ([], mind)
  | (label, outcome) :: outcomes, mind =>
    let (line, mind) := w.result label outcome mind
    let (lines, mind) := results w outcomes mind
    (line :: lines, mind)

/-- Writes the lines of a response. -/
def lines (w : Scribe τ) (response : Response) (mind : τ) : List String × τ :=
  let (echo, mind) := w.echo response.echo mind
  match response.results with
  | .error e =>
    let (line, mind) := w.syntaxError e mind
    ([echo, line], mind)
  | .ok outcomes =>
    let (lines, mind) := w.results outcomes mind
    (echo :: lines, mind)

/-- Writes a response as one text. -/
def write (w : Scribe τ) (response : Response) (mind : τ) : String × τ :=
  let (lines, mind) := w.lines response mind
  ("\n".intercalate lines, mind)

theorem results_cons (w : Scribe τ) (label : String) (outcome : Outcome)
    (outcomes : List (String × Outcome)) (mind : τ) :
    w.results ((label, outcome) :: outcomes) mind =
      ((w.result label outcome mind).1 :: (w.results outcomes (w.result label outcome mind).2).1,
        (w.results outcomes (w.result label outcome mind).2).2) := rfl

/-- Each line is that of the result at its place, with the results before it in mind. -/
theorem getElem?_results (w : Scribe τ) (outcomes : List (String × Outcome)) (mind : τ) (i : Nat) :
    (w.results outcomes mind).1[i]? = outcomes[i]?.map fun o =>
      (w.result o.1 o.2 (w.results (outcomes.take i) mind).2).1 := by
  induction outcomes generalizing mind i with
  | nil => rfl
  | cons o outcomes ih =>
    obtain ⟨label, outcome⟩ := o
    cases i with
    | zero => rfl
    | succ i =>
      rw [results_cons, List.getElem?_cons_succ, List.getElem?_cons_succ, List.take_succ_cons,
        results_cons]
      exact ih _ i

theorem length_results (w : Scribe τ) (outcomes : List (String × Outcome)) (mind : τ) :
    (w.results outcomes mind).1.length = outcomes.length := by
  induction outcomes generalizing mind with
  | nil => rfl
  | cons o outcomes ih =>
    obtain ⟨label, outcome⟩ := o
    rw [results_cons, List.length_cons, List.length_cons, ih]

theorem write_of_error (w : Scribe τ) (echo : String) (e : SyntaxError) (mind : τ) :
    (w.write ⟨echo, .error e⟩ mind).1 =
      (w.echo echo mind).1 ++ "\n" ++ (w.syntaxError e (w.echo echo mind).2).1 := rfl

theorem write_of_ok (w : Scribe τ) (echo : String) (outcomes : List (String × Outcome))
    (mind : τ) : (w.write ⟨echo, .ok outcomes⟩ mind).1 =
      "\n".intercalate ((w.echo echo mind).1 :: (w.results outcomes (w.echo echo mind).2).1) := rfl

end Scribe

namespace Style

/-- The style as a scribe with nothing in mind. -/
def scribe (style : Style) : Scribe Unit where
  echo := fun input mind => (style.echo input, mind)
  syntaxError := fun e mind => (style.syntaxError e, mind)
  result := fun label outcome mind => (style.result label outcome, mind)

theorem results_scribe (style : Style) (outcomes : List (String × Outcome)) :
    (style.scribe.results outcomes ()).1 = outcomes.map fun o => style.result o.1 o.2 := by
  induction outcomes with
  | nil => rfl
  | cons o outcomes ih =>
    rw [List.map_cons, ← ih]
    rfl

theorem write_scribe (style : Style) (response : Response) :
    (style.scribe.write response ()).1 = response.text style := by
  obtain ⟨echo, results⟩ := response
  cases results with
  | error e => rfl
  | ok outcomes =>
    rw [Scribe.write_of_ok, results_scribe]
    rfl

end Style

end DiceNotation
