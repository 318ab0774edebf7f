/-
What is rolled while lines are read. The lines of an input are cut at the blank ones
into groups, and each blank line rolls the group in front of it (`formulas`), whatever
came of those before; the dice alone go from one formula to the next (`Successive`).
The output is a dialogue with the lines (`Dialogue`). Each line keeps this up, whether
it is one more of a group (`Exchange.Keeps.more`) or a blank one that rolls the group
(`Exchange.Keeps.roll`), so all lines do (`Exchange.keeps`).
-/
import DiceNotation.Proofs.ExitStatus

namespace DiceNotation.Console

variable {σ : Type}

/-- A line with nothing but white space within ASCII on it. -/
def blank (bytes : List UInt8) : Bool := bytes.all isBlankByte

/-- The lines of an input: what stands between its line feeds. One at the very end opens no further
line. -/
def inputLines (input : List UInt8) : List (List UInt8) :=
  let lines := input.splitOn 10
  if lines.getLast? = some [] then lines.dropLast else lines

/-- The formulas that lines make: one for each blank line, of the lines between it and the blank
line before it. Those behind the last blank line make none. -/
def formulas (lines : List (List UInt8)) : List (List UInt8) :=
  (lines.splitOnP blank).dropLast.map fun group => group.flatMap (· ++ [10])

/-- The answer to a formula, or why it has none, with a cup that has its whole limit left, and the
dice as they are then. -/
def Rolled.answer (options : Options) (r : Roller σ) (x : Rolled σ) : Except Failure String × σ :=
  let cup := Cup.fresh (some options.maxRolls) x.dice
  if options.strict then
    (valuesText options.style <$> (evaluate r x.source cup).1, (evaluate r x.source cup).2.dice)
  else (.ok ((respond r x.source cup).1.text options.style), (respond r x.source cup).2.dice)

/-- The first formula finds the dice in the given state, and each other finds them as the one before
it has left them. -/
inductive Successive (options : Options) (r : Roller σ) : σ → List (Rolled σ) → Prop
  | nil : Successive options r dice []
  | cons : Successive options r (x.answer options r).2 later →
      Successive options r x.dice (x :: later)

/-- What is said to lines one after the other, with an answer to each blank one. -/
inductive Dialogue : List (List UInt8) → List (Except Failure String) → String → Prop
  | nil : Dialogue [] [] ""
  | more : blank bytes = false → Dialogue lines answers said →
      Dialogue (bytes :: lines) answers ("... " ++ said)
  | text : blank bytes = true → Dialogue lines answers said →
      Dialogue (bytes :: lines) (.ok text :: answers) (text ++ "\n" ++ ("> " ++ said))
  | silence : blank bytes = true → Dialogue lines answers said →
      Dialogue (bytes :: lines) (.error why :: answers) ("> " ++ said)

/-- What the text for errors has of an answer. -/
def complaint : Except Failure String → String
  | .ok _ => ""
  | .error why => "Error: " ++ why.message ++ "\n"

/-! ## Lines -/

/-- The lines are those of the part of a line that is read and of what is still to come. -/
theorem linesFrom_eq {start : List UInt8} (input : List UInt8) (hs : 10 ∉ start) :
    linesFrom start input = inputLines (start.reverse ++ input) := by
  induction input generalizing start with
  | nil =>
    have hsplit : start.reverse.splitOn 10 = [start.reverse] := by
      rw [List.splitOn_eq_splitOnP]
      refine List.splitOnP_eq_singleton ?_
      intro b hb
      have hne : b ≠ 10 := by
        rintro rfl
        exact hs (List.mem_reverse.1 hb)
      simpa using hne
    rw [linesFrom, List.append_nil, inputLines, hsplit]
    cases start <;> simp
  | cons b input ih =>
    by_cases hb : b = 10
    · subst hb
      have hs' : 10 ∉ start.reverse := by simpa using hs
      have hne : input.splitOn 10 ≠ [] := List.splitOn_ne_nil 10 input
      have hrest : linesFrom [] input = inputLines input := ih List.not_mem_nil
      rw [linesFrom, if_pos rfl, hrest, inputLines, inputLines,
        List.splitOn_append_cons_self_of_not_mem hs']
      simp only [List.getLast?_cons_of_ne_nil hne, List.dropLast_cons_of_ne_nil hne]
      split <;> rfl
    · have hnot : 10 ∉ b :: start := by simpa using ⟨Ne.symm hb, hs⟩
      rw [linesFrom, if_neg hb, ih hnot]
      simp

/-! ## Groups of lines -/

variable {options : Options} {r : Roller σ} {x : Exchange σ} {bytes : List UInt8}
  {lines pending : List (List UInt8)} {rolled : List (Rolled σ)}

theorem formulas_of_pending (hp : ∀ l ∈ pending, blank l = false) : formulas pending = [] := by
  rw [formulas, List.splitOnP_eq_singleton hp]
  rfl

theorem formulas_of_blank (hp : ∀ l ∈ pending, blank l = false) (hb : blank bytes = true)
    (lines : List (List UInt8)) : formulas (pending ++ bytes :: lines) =
      pending.flatMap (· ++ [10]) :: formulas lines := by
  have hne : lines.splitOnP blank ≠ [] := List.splitOnP_ne_nil _ _
  rw [formulas, List.splitOnP_append_cons_of_forall_mem hp _ hb, List.dropLast_cons_of_ne_nil hne]
  rfl

/-! ## Answers -/

theorem Options.answer_eq (options : Options) (r : Roller σ) (x : Rolled σ) :
    options.answer r x.source x.dice = x.answer options r := by
  cases hs : options.strict <;> simp [Options.answer, Rolled.answer, hs]

theorem outText_cons (chunk : Chunk) (chunks : List Chunk) :
    outText (chunk :: chunks) = outText [chunk] ++ outText chunks := by
  simp [outText]

theorem errText_cons (chunk : Chunk) (chunks : List Chunk) :
    errText (chunk :: chunks) = errText [chunk] ++ errText chunks := by
  simp [errText]

theorem Options.print_dice (options : Options) (r : Roller σ) (x : Rolled σ) :
    (options.print r x.source x.dice).2 = (x.answer options r).2 := by
  rw [Options.print, options.answer_eq]
  rcases x.answer options r with ⟨why | text, dice⟩ <;> rfl

theorem Options.print_cases (options : Options) (r : Roller σ) (x : Rolled σ) :
    (∃ text, (x.answer options r).1 = .ok text ∧
      (options.print r x.source x.dice).1 = .out (text ++ "\n")) ∨
    ∃ why, (x.answer options r).1 = .error why ∧
      (options.print r x.source x.dice).1 = .err (complaint (.error why)) := by
  rw [Options.print, options.answer_eq]
  rcases x.answer options r with ⟨why | text, dice⟩
  · exact .inr ⟨why, rfl, rfl⟩
  · exact .inl ⟨text, rfl, rfl⟩

/-! ## Exchanges -/

/-- What comes of lines that are read while others are pending. -/
structure Exchange.Keeps (options : Options) (r : Roller σ) (x : Exchange σ)
    (lines : List (List UInt8)) (rolled : List (Rolled σ)) : Prop where
  sources : rolled.map Rolled.source = (formulas (x.pending.reverse ++ lines)).map Source.ofBytes
  successive : Successive options r x.dice rolled
  dialogue : Dialogue lines (rolled.map fun y => (y.answer options r).1)
    (outText (x.lines options r lines))
  complaints : errText (x.lines options r lines) =
    String.join (rolled.map fun y => complaint (y.answer options r).1)

namespace Exchange

theorem lines_of_blank (hb : blank bytes = true) : x.lines options r (bytes :: lines) =
    (options.print r x.formula x.dice).1 :: prompt ::
      Exchange.lines options r ⟨[], (options.print r x.formula x.dice).2⟩ lines := by
  rw [blank] at hb
  rw [Exchange.lines, line, if_pos hb]
  rfl

theorem lines_of_not_blank (hb : blank bytes = false) : x.lines options r (bytes :: lines) =
    morePrompt :: Exchange.lines options r { x with pending := bytes :: x.pending } lines := by
  rw [blank] at hb
  rw [Exchange.lines, line, hb]
  rfl

theorem rolled_of_blank (hb : blank bytes = true) : x.rolled options r (bytes :: lines) =
    ⟨x.formula, x.dice⟩ ::
      Exchange.rolled options r ⟨[], (options.print r x.formula x.dice).2⟩ lines := by
  rw [blank] at hb
  simp [Exchange.rolled, line, hb]

theorem rolled_of_not_blank (hb : blank bytes = false) : x.rolled options r (bytes :: lines) =
    Exchange.rolled options r { x with pending := bytes :: x.pending } lines := by
  rw [blank] at hb
  simp [Exchange.rolled, line, hb]

namespace Keeps

theorem nil (hp : ∀ l ∈ x.pending, blank l = false) : Keeps options r x [] [] where
  sources := by
    have hp' : ∀ l ∈ x.pending.reverse ++ [], blank l = false := by simpa using hp
    rw [formulas_of_pending hp']
    rfl
  successive := .nil
  dialogue := .nil
  complaints := rfl

theorem more (hb : blank bytes = false)
    (h : Keeps options r { x with pending := bytes :: x.pending } lines rolled) :
    Keeps options r x (bytes :: lines) rolled where
  sources := by
    rw [h.sources]
    simp
  successive := h.successive
  dialogue := by
    rw [lines_of_not_blank hb, outText_cons]
    exact .more hb h.dialogue
  complaints := by
    rw [lines_of_not_blank hb, errText_cons, h.complaints]
    rfl

theorem roll (hp : ∀ l ∈ x.pending, blank l = false) (hb : blank bytes = true)
    (h : Keeps options r ⟨[], (options.print r x.formula x.dice).2⟩ lines rolled) :
    Keeps options r x (bytes :: lines) (⟨x.formula, x.dice⟩ :: rolled) where
  sources := by
    have hp' : ∀ l ∈ x.pending.reverse, blank l = false := by simpa using hp
    rw [List.map_cons, h.sources, formulas_of_blank hp' hb]
    rfl
  successive := by
    have hsuccessive := h.successive
    rw [options.print_dice r ⟨x.formula, x.dice⟩] at hsuccessive
    exact .cons hsuccessive
  dialogue := by
    rw [lines_of_blank hb, outText_cons, outText_cons prompt]
    rcases options.print_cases r ⟨x.formula, x.dice⟩ with ⟨text, ha, hprint⟩ | ⟨why, ha, hprint⟩
    · rw [List.map_cons, ha, hprint]
      have htext : outText [.out (text ++ "\n")] = text ++ "\n" := by simp [outText]
      rw [htext]
      exact .text hb h.dialogue
    · rw [List.map_cons, ha, hprint]
      exact .silence hb h.dialogue
  complaints := by
    rw [lines_of_blank hb, errText_cons, errText_cons prompt, h.complaints, List.map_cons,
      String.join_cons]
    rcases options.print_cases r ⟨x.formula, x.dice⟩ with ⟨text, ha, hprint⟩ | ⟨why, ha, hprint⟩
    · rw [ha, hprint]
      rfl
    · rw [ha, hprint]
      simp [errText, prompt]

end Keeps

/-- **Lines that are read** behind pending ones keep the exchange up. -/
theorem keeps (options : Options) (r : Roller σ) (x : Exchange σ) (lines : List (List UInt8))
    (hp : ∀ l ∈ x.pending, blank l = false) :
    Keeps options r x lines (x.rolled options r lines) := by
  induction lines generalizing x with
  | nil => exact .nil hp
  | cons bytes lines ih =>
    cases hb : blank bytes with
    | false =>
      have hp' : ∀ l ∈ bytes :: x.pending, blank l = false := List.forall_mem_cons.2 ⟨hb, hp⟩
      rw [rolled_of_not_blank hb]
      exact .more hb (ih _ hp')
    | true =>
      rw [rolled_of_blank hb]
      exact .roll hp hb (ih _ (List.forall_mem_nil _))

end Exchange

/-- **What is read is rolled in groups.** Without a formula among the arguments, each blank line of
the input rolls the lines between it and the blank line before it, and nothing else is rolled. Every
formula is answered with a whole limit and the dice as the one before it has left them, an error or
not. The output prompts, then goes on after each line, with the answer to a blank one; the errors
are those of the formulas that have no answer. -/
theorem rolled_in_groups (options : Options) (r : Roller σ) (dice : σ) (input : List UInt8) :
    ∃ rolled said,
      rolled.map Rolled.source = (formulas (inputLines input)).map Source.ofBytes ∧
      Successive options r dice rolled ∧
      Dialogue (inputLines input) (rolled.map fun x => (x.answer options r).1) said ∧
      outText (CommandLine.run ⟨options, []⟩ r dice input).chunks = "> " ++ said ∧
      errText (CommandLine.run ⟨options, []⟩ r dice input).chunks =
        String.join (rolled.map fun x => complaint (x.answer options r).1) := by
  have hlines : linesFrom [] input = inputLines input := linesFrom_eq input List.not_mem_nil
  have hkeeps := Exchange.keeps options r ⟨[], dice⟩ (inputLines input) (List.forall_mem_nil _)
  have hrun : (CommandLine.run ⟨options, []⟩ r dice input).chunks =
      prompt :: Exchange.lines options r ⟨[], dice⟩ (inputLines input) := by
    rw [← hlines]
    rfl
  refine ⟨_, _, hkeeps.sources, hkeeps.successive, hkeeps.dialogue, ?_, ?_⟩
  · rw [hrun, outText_cons]
    rfl
  · rw [hrun, errText_cons, hkeeps.complaints]
    rfl

end DiceNotation.Console
