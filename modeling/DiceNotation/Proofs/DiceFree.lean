/-
Terms without dice. What comes of such a term is a matter of arithmetic: it is
the same whatever the roller, the limit and the count, and the cup stays as it is
(`Term.eval_of_not_hasDice`). A response has the results of a formula in its last
lines, one for each equation, and the line of an equation without dice says what
that equation and its place make it say (`dice_free_independent`).
-/
import DiceNotation.Proofs.Agreement
import DiceNotation.Proofs.Labels

namespace DiceNotation

variable {σ : Type}

/-- What arithmetic alone makes of a term, where dice count for nothing. -/
def Term.arithmetic : Term → Outcome
  | .int value => .ok value
  | .dice _ _ => .ok 0
  | .binary left op right => do
    let x ← left.arithmetic
    let y ← right.arithmetic
    op.apply x y

/-- **Without dice there is nothing but arithmetic**: neither the roller nor the cup has a part in
what comes of the term, and the cup is not touched. -/
theorem Term.eval_of_not_hasDice {t : Term} (h : t.hasDice = false) (r : Roller σ) (cup : Cup σ) :
    t.eval r cup = (t.arithmetic, cup) := by
  induction t with
  | int value => rfl
  | dice count faces => cases h
  | binary left op right ihl ihr =>
    obtain ⟨hl, hr⟩ := Bool.or_eq_false_iff.1 h
    rw [eval, arithmetic, ihl hl]
    cases left.arithmetic with
    | error e => rfl
    | ok x =>
      dsimp only
      rw [ihr hr]
      cases right.arithmetic <;> rfl

/-- `1 / 0` fails in the same way with any dice and in any cup. -/
example (r : Roller σ) (cup : Cup σ) :
    (Term.binary (.int 1) .div (.int 0)).eval r cup = (.error .divisionByZero, cup) := rfl

/-! ## Single lines -/

/-- No line ends inside the text. -/
def OneLine (s : String) : Prop := '\n' ∉ s.toList

instance (s : String) : Decidable (OneLine s) := inferInstanceAs (Decidable (¬ _))

theorem OneLine.append {s t : String} (hs : OneLine s) (ht : OneLine t) : OneLine (s ++ t) := by
  rw [OneLine, String.toList_append, List.mem_append]
  exact not_or.2 ⟨hs, ht⟩

theorem oneLine_ofInt64 (x : Int64) : OneLine (Text.Decimal.ofInt64 x) := by
  intro h
  rcases Text.Markdown.mem_ofInt64 h with h | h
  · cases h
  · revert h
    decide

theorem DomainError.oneLine_message (e : DomainError) : OneLine e.message := by
  have hclose : OneLine ")" := by decide
  cases e with
  | invalidFaces faces => exact .append (by decide) (oneLine_ofInt64 faces)
  | negativeCount count => exact .append (.append (by decide) (oneLine_ofInt64 count)) hclose
  | negativeExponent exponent =>
    exact .append (.append (by decide) (oneLine_ofInt64 exponent)) hclose
  | _ => decide

theorem oneLine_label {name : String} (h : IsName name) (i : Nat) : OneLine (label name i) := by
  intro hc
  rcases mem_label h hc with hc | hc
  · cases hc
  · revert hc
    decide +kernel

/-- A markup that breaks no lines shows a result on one. -/
theorem Style.oneLine_result {literal heading : String → String}
    (hl : ∀ s, OneLine s → OneLine (literal s)) (hh : ∀ s, OneLine s → OneLine (heading s))
    {label : String} (h : OneLine label) (outcome : Outcome) :
    OneLine ((ofMarkup literal heading).result label outcome) := by
  have hcolon : OneLine ": " := by decide
  refine .append (.append (hh _ (hl _ h)) hcolon) ?_
  cases outcome with
  | ok value => exact oneLine_ofInt64 value
  | error e => exact .append (.append (hh _ (by decide)) hcolon) (hl _ e.oneLine_message)

theorem Text.Markdown.oneLine_escape (s : String) : OneLine (escape s) := by
  intro h
  have hg := isGraphic_of_mem_escape h
  revert hg
  decide

theorem Text.Markdown.oneLine_bold {s : String} (h : OneLine s) : OneLine (bold s) :=
  .append (.append (by decide) h) (by decide)

theorem Style.oneLine_result_of_mem {style : Style} (hs : style ∈ [plain, markdown])
    {label : String} (h : OneLine label) (outcome : Outcome) :
    OneLine (style.result label outcome) := by
  rcases List.mem_cons.1 hs with rfl | hs
  · exact oneLine_result (fun _ h => h) (fun _ h => h) h outcome
  · obtain rfl := List.mem_singleton.1 hs
    exact oneLine_result (fun s _ => Text.Markdown.oneLine_escape s)
      (fun _ => Text.Markdown.oneLine_bold) h outcome

/-! ## Responses -/

theorem splitOn_intercalate_oneLine {echo : String} {lines : List String}
    (h : ∀ line ∈ lines, OneLine line) : ("\n".intercalate (echo :: lines)).toList.splitOn '\n' =
      echo.toList.splitOn '\n' ++ lines.map String.toList := by
  have hbreak : "\n".toList = ['\n'] := by decide
  cases lines with
  | nil =>
    rw [String.intercalate_singleton]
    exact (List.append_nil _).symm
  | cons line lines =>
    have hlines : ∀ l ∈ (line :: lines).map String.toList, '\n' ∉ l := List.forall_mem_map.2 h
    rw [String.intercalate_cons_cons, String.toList_append, String.toList_append, hbreak,
      List.append_assoc, List.singleton_append, List.splitOn_append_cons_self,
      String.toList_intercalate, hbreak, List.splitOn_intercalate '\n' hlines (by simp)]

/-- **Equations without dice are independent of all others.** A term without dice comes to the same
with any roller and any cup, one that refuses every roll among them, and leaves the cup as it was.
And whatever else a formula rolls, or fails to, the line of an equation without dice is made of its
name, its place and what arithmetic makes of its term. -/
theorem dice_free_independent :
    (∀ t : Term, t.hasDice = false → ∀ {σ : Type} (r : Roller σ) (cup : Cup σ),
      t.eval r cup = (t.arithmetic, cup)) ∧
    ∀ style ∈ [Style.plain, Style.markdown],
      ∀ {σ : Type} (r : Roller σ) (s : Source) (cup : Cup σ) (f : Formula),
        Formula.parse s = .ok f → ∃ lines,
          ((respond r s cup).1.text style).toList.splitOn '\n' =
            (style.echo s.text).toList.splitOn '\n' ++ lines ∧
          lines.length = f.equations.length ∧
          ∀ i e, f.equations[i]? = some e → e.term.hasDice = false →
            lines[i]? = some (style.result (label e.name i) e.term.arithmetic).toList := by
  refine ⟨fun t ht σ r cup => Term.eval_of_not_hasDice ht r cup, ?_⟩
  intro style hstyle σ r s cup f hf
  obtain ⟨outcomes, hagree, htext⟩ := (text_evaluate_agree r s cup style).2 f hf
  rw [htext]
  refine ⟨_, splitOn_intercalate_oneLine ?_, ?_, ?_⟩
  · intro line hline
    obtain ⟨o, ho, rfl⟩ := List.mem_map.1 hline
    obtain ⟨i, hi⟩ := List.getElem?_of_mem ho
    rw [hagree.outcome, Option.map_eq_some_iff] at hi
    obtain ⟨e, he, rfl⟩ := hi
    have hname := (Formula.sound_of_parse hf e (List.mem_of_getElem? he)).1.1
    exact Style.oneLine_result_of_mem hstyle (oneLine_label hname i) _
  · rw [List.length_map, List.length_map, hagree.length_eq]
  · intro i e he ht
    rw [List.getElem?_map, List.getElem?_map, hagree.outcome, he, Option.map_some,
      Option.map_some, Option.map_some, Term.eval_of_not_hasDice ht]

/-- Where no dice are to be had, the first line of `1/0, 2d6, 7` still fails to divide and the third
still has the seven. -/
theorem dice_free_of_limit_zero :
    let quotient := Term.binary (.int 1) .div (.int 0)
    let cup : Cup Unit := .fresh (some 0) ()
    quotient.hasDice = false ∧
    quotient.eval Roller.highest cup = (.error .divisionByZero, cup) ∧
    Formula.parse (.ofText "1/0, 2d6, 7") = .ok ⟨[⟨"", quotient⟩, ⟨"", .dice 2 6⟩, ⟨"", .int 7⟩]⟩ ∧
    ∃ lines,
      ((respond Roller.highest (.ofText "1/0, 2d6, 7") cup).1.text .plain).toList.splitOn '\n' =
        "Rolling: 1/0, 2d6, 7".toList.splitOn '\n' ++ lines ∧
      lines.length = 3 ∧ lines[0]? = some "1st: Error: cannot divide by zero".toList ∧
      lines[2]? = some "3rd: 7".toList := by
  intro quotient cup
  have hq : quotient.hasDice = false := rfl
  have hparse : Formula.parse (.ofText "1/0, 2d6, 7") =
      .ok ⟨[⟨"", quotient⟩, ⟨"", .dice 2 6⟩, ⟨"", .int 7⟩]⟩ := by decide +kernel
  have hecho : Style.plain.echo (Source.ofText "1/0, 2d6, 7").text = "Rolling: 1/0, 2d6, 7" := by
    decide +kernel
  have hquotient : Style.plain.result (label "" 0) quotient.arithmetic =
      "1st: Error: cannot divide by zero" := by decide +kernel
  have hseven : Style.plain.result (label "" 2) (Term.int 7).arithmetic = "3rd: 7" := by
    decide +kernel
  obtain ⟨heval, hlines⟩ := dice_free_independent
  obtain ⟨lines, htext, hlength, hline⟩ :=
    hlines .plain (.head _) Roller.highest _ cup _ hparse
  refine ⟨hq, heval quotient hq Roller.highest cup, hparse, lines, hecho ▸ htext, hlength, ?_, ?_⟩
  · exact (hline 0 _ rfl hq).trans (congrArg (some ·.toList) hquotient)
  · exact (hline 2 _ rfl rfl).trans (congrArg (some ·.toList) hseven)

end DiceNotation
