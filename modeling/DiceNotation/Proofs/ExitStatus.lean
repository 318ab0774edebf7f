/-
What the exit status tells. Each formula of a session is rolled with the dice that
the one before it has left (`CommandLine.rolled`). Of a strict session, the text
for errors has a line exactly if a formula has failed, whether it was an argument
or read; the exit status tells so only of arguments (`exit_ne_zero_iff`).
-/
import DiceNotation.Proofs.Agreement
import DiceNotation.Console.Session

namespace DiceNotation.Console

variable {σ : Type} {options : Options} {r : Roller σ} {s : Source} {dice : σ} {text : String}

/-- A formula that is rolled, and the dice it finds. -/
structure Rolled (σ : Type) where
  source : Source
  dice : σ

/-- What is rolled is no formula, or one with an equation without a value. -/
def Rolled.Fails (options : Options) (r : Roller σ) (x : Rolled σ) : Prop :=
  (respond r x.source (.fresh (some options.maxRolls) x.dice)).1.Failed

/-- The formulas of texts, rolled one after the other. -/
def Options.rolledAll (options : Options) (r : Roller σ) : List String → σ → List (Rolled σ)
  | [], _ => []
  | text :: texts, dice =>
    ⟨.ofText text, dice⟩ :: rolledAll options r texts (options.print r (.ofText text) dice).2

/-- The formulas that are rolled while lines are read: one at each blank line. -/
def Exchange.rolled (options : Options) (r : Roller σ) (x : Exchange σ) :
    List (List UInt8) → List (Rolled σ)
  | [] => []
  | bytes :: rest =>
    let later := rolled options r (x.line options r bytes).2 rest
    if bytes.all isBlankByte then ⟨x.formula, x.dice⟩ :: later else later

/-- The formulas that a run rolls, in order. -/
def CommandLine.rolled (commandLine : CommandLine) (r : Roller σ) (dice : σ) (input : List UInt8) :
    List (Rolled σ) :=
  if commandLine.formulas.isEmpty then
    Exchange.rolled commandLine.options r ⟨[], dice⟩ (linesFrom [] input)
  else commandLine.options.rolledAll r commandLine.formulas dice

/-! ## Errors -/

theorem Options.print_of_lenient (hs : options.strict = false) : (options.print r s dice).1 =
    .out ((respond r s (.fresh (some options.maxRolls) dice)).1.text options.style ++ "\n") := by
  simp [Options.print, Options.answer, hs]

theorem Options.print_of_values {values : List (String × Int64)} (hs : options.strict = true)
    (hv : (evaluate r s (.fresh (some options.maxRolls) dice)).1 = .ok values) :
    (options.print r s dice).1 = .out (valuesText options.style values ++ "\n") := by
  simp only [Options.print, Options.answer, hs, if_true, hv]
  rfl

theorem Options.print_of_failure {failure : Failure} (hs : options.strict = true)
    (hf : (evaluate r s (.fresh (some options.maxRolls) dice)).1 = .error failure) :
    (options.print r s dice).1 = .err ("Error: " ++ failure.message ++ "\n") := by
  simp only [Options.print, Options.answer, hs, if_true, hf]
  rfl

theorem Options.exists_err_iff (options : Options) (r : Roller σ) (s : Source) (dice : σ) :
    (∃ text, (options.print r s dice).1 = .err text) ↔
      options.strict = true ∧ Rolled.Fails options r ⟨s, dice⟩ := by
  rw [Rolled.Fails, ← evaluate_fails_iff]
  cases hs : options.strict with
  | false =>
    rw [Options.print_of_lenient hs]
    exact iff_of_false nofun nofun
  | true =>
    cases he : (evaluate r s (.fresh (some options.maxRolls) dice)).1 with
    | error failure =>
      rw [Options.print_of_failure hs he]
      exact iff_of_true ⟨_, rfl⟩ ⟨rfl, failure, rfl⟩
    | ok values =>
      rw [Options.print_of_values hs he]
      exact iff_of_false nofun nofun

theorem Options.err_mem_printAll_iff (options : Options) (r : Roller σ) (texts : List String)
    (dice : σ) : .err text ∈ options.printAll r texts dice ↔
      ∃ x ∈ options.rolledAll r texts dice, (options.print r x.source x.dice).1 = .err text := by
  induction texts generalizing dice with
  | nil => simp [Options.printAll, Options.rolledAll]
  | cons t texts ih =>
    simp only [Options.printAll, Options.rolledAll, List.mem_cons, exists_eq_or_imp, ih, eq_comm]

/-- A line prints an error only if it is blank, the one of the formula that it ends. -/
theorem Exchange.err_mem_line_iff (options : Options) (r : Roller σ) (x : Exchange σ)
    (bytes : List UInt8) : .err text ∈ (x.line options r bytes).1 ↔
      bytes.all isBlankByte = true ∧ (options.print r x.formula x.dice).1 = .err text := by
  cases hb : bytes.all isBlankByte with
  | false => simp [Exchange.line, hb, morePrompt]
  | true => simp [Exchange.line, hb, prompt, eq_comm]

theorem Exchange.err_mem_lines_iff (options : Options) (r : Roller σ) (x : Exchange σ)
    (lines : List (List UInt8)) : .err text ∈ x.lines options r lines ↔
      ∃ y ∈ x.rolled options r lines, (options.print r y.source y.dice).1 = .err text := by
  induction lines generalizing x with
  | nil => simp [Exchange.lines, Exchange.rolled]
  | cons bytes lines ih =>
    rw [Exchange.lines, Exchange.rolled, List.mem_append, Exchange.err_mem_line_iff, ih]
    cases hb : bytes.all isBlankByte with
    | false => simp
    | true => simp

theorem CommandLine.err_mem_run_iff (commandLine : CommandLine) (r : Roller σ) (dice : σ)
    (input : List UInt8) : .err text ∈ (commandLine.run r dice input).chunks ↔
      ∃ x ∈ commandLine.rolled r dice input,
        (commandLine.options.print r x.source x.dice).1 = .err text := by
  cases hf : commandLine.formulas.isEmpty with
  | false =>
    rw [CommandLine.run, CommandLine.rolled, hf]
    exact commandLine.options.err_mem_printAll_iff r _ _
  | true =>
    have hprompt : Chunk.err text ≠ prompt := nofun
    rw [CommandLine.run, CommandLine.rolled, hf, if_pos rfl, if_pos rfl, List.mem_cons,
      or_iff_right hprompt]
    exact Exchange.err_mem_lines_iff _ r _ _

/-- There is an error to read exactly if some formula of a strict session fails. -/
theorem CommandLine.exists_err_iff (commandLine : CommandLine) (r : Roller σ) (dice : σ)
    (input : List UInt8) : (∃ text, .err text ∈ (commandLine.run r dice input).chunks) ↔
      commandLine.options.strict = true ∧
        ∃ x ∈ commandLine.rolled r dice input, x.Fails commandLine.options r := by
  constructor
  · rintro ⟨text, htext⟩
    obtain ⟨x, hx, hprint⟩ := (commandLine.err_mem_run_iff r dice input).1 htext
    obtain ⟨hs, hfails⟩ := (commandLine.options.exists_err_iff r x.source x.dice).1 ⟨text, hprint⟩
    exact ⟨hs, x, hx, hfails⟩
  · rintro ⟨hs, x, hx, hfails⟩
    obtain ⟨text, hprint⟩ := (commandLine.options.exists_err_iff r x.source x.dice).2 ⟨hs, hfails⟩
    exact ⟨text, (commandLine.err_mem_run_iff r dice input).2 ⟨x, hx, hprint⟩⟩

/-! ## The exit status -/

theorem exitStatus_ne_zero_iff (chunks : List Chunk) :
    exitStatus chunks ≠ 0 ↔ ∃ text, .err text ∈ chunks := by
  rw [exitStatus]
  split
  next ha =>
    obtain ⟨chunk, hmem, herr⟩ := List.any_eq_true.1 ha
    cases chunk with
    | out text => cases herr
    | err text => exact iff_of_true (by decide) ⟨text, hmem⟩
  next ha =>
    refine iff_of_false (by decide) ?_
    rintro ⟨text, htext⟩
    exact ha (List.any_eq_true.2 ⟨_, htext, rfl⟩)

/-- **The exit status** is not that of a success exactly if some formula of a strict session fails
and the formulas are arguments. There is an error to read even if they are not. -/
theorem exit_ne_zero_iff (commandLine : CommandLine) (r : Roller σ) (dice : σ)
    (input : List UInt8) :
    let transcript := commandLine.run r dice input
    let failed := ∃ x ∈ commandLine.rolled r dice input, x.Fails commandLine.options r
    (transcript.exit ≠ 0 ↔
      commandLine.options.strict = true ∧ commandLine.formulas ≠ [] ∧ failed) ∧
    ((∃ text, .err text ∈ transcript.chunks) ↔ commandLine.options.strict = true ∧ failed) := by
  intro transcript failed
  have herr : (∃ text, .err text ∈ transcript.chunks) ↔
      commandLine.options.strict = true ∧ failed := commandLine.exists_err_iff r dice input
  refine ⟨?_, herr⟩
  cases hf : commandLine.formulas with
  | nil =>
    have hexit : transcript.exit = 0 := by
      simp only [transcript, CommandLine.run, hf, List.isEmpty_nil, if_true]
    exact iff_of_false (fun hne => hne hexit) fun h => h.2.1 rfl
  | cons text texts =>
    have hexit : transcript.exit = exitStatus transcript.chunks := by
      simp only [transcript, CommandLine.run, hf]
      rfl
    rw [hexit, exitStatus_ne_zero_iff, herr]
    exact and_congr_right fun _ => (and_iff_right (List.cons_ne_nil _ _)).symm

/-- A formula without a value, read in a strict session, does not keep the session from success. -/
theorem strict_exchange_succeeds :
    let commandLine : CommandLine := ⟨⟨some 7, Cup.standardLimit, false, true⟩, []⟩
    let r := Keystream.source.roller
    let dice := commandLine.options.dice 0
    let input := "1/0\n\n".toUTF8.data.toList
    CommandLine.parse ["--strict", "--seed", "7"] (fun _ => none) = .ok commandLine ∧
      commandLine.run r dice input =
        ⟨[prompt, morePrompt, .err "Error: 1st: cannot divide by zero\n", prompt], 0⟩ ∧
      ∃ x ∈ commandLine.rolled r dice input, x.Fails commandLine.options r := by
  intro commandLine r dice input
  have hrun : commandLine.run r dice input =
      ⟨[prompt, morePrompt, .err "Error: 1st: cannot divide by zero\n", prompt], 0⟩ := by
    decide +kernel
  have herr : .err "Error: 1st: cannot divide by zero\n" ∈
      (commandLine.run r dice input).chunks := by
    rw [hrun]
    decide
  exact ⟨rfl, hrun, ((commandLine.exists_err_iff r dice input).1 ⟨_, herr⟩).2⟩

end DiceNotation.Console
