/-
Formulas as arguments and formulas that are typed. A typed formula ends with the line
feed of its line. That is a separator, so the formula reads the same
(`parse_append_line_feed`); it is no graphic character, so in Markdown it shows the same
(`escape_append_line_feed`), and the values alone do not show it at all. So both ways print
one formula alike with the same dice and leave the same dice (`Options.print_typed`), and
one formula after the other (`Exchange.lines_typed`).
-/
import DiceNotation.Proofs.Dialogue
import DiceNotation.Proofs.Layout
import DiceNotation.Proofs.Unescaping

namespace DiceNotation.Console

variable {σ : Type}

/-- The text is a formula that can be typed: it fits on one line, and that line is not blank. -/
structure Typable (text : String) : Prop where
  parsed : ∃ f, Formula.parse (.ofText text) = .ok f
  one_line : '\n' ∉ text.toList
  not_blank : ∃ c ∈ text.toList, c ∉ [' ', '\t', '\n', '\x0c', '\r']

/-- What is typed for formulas: each on a line of its own with an empty line behind it. -/
def typed (texts : List String) : List UInt8 :=
  texts.flatMap fun text => text.toUTF8.data.toList ++ [10, 10]

/-- What a session says, its prompts left out. -/
def unprompted (chunks : List Chunk) : List Chunk :=
  chunks.filter fun chunk => chunk ≠ prompt ∧ chunk ≠ morePrompt

variable {options : Options} {r : Roller σ} {dice : σ} {text : String} {texts : List String}

/-! ## The command line -/

theorem exists_ok_of_bind {ε α β : Type} {x : Except ε α} {f : α → Except ε β} {b : β}
    (h : x >>= f = .ok b) : ∃ a, x = .ok a ∧ f a = .ok b := by
  cases x with
  | error e => cases h
  | ok a => exact ⟨a, rfl, h⟩

theorem Given.withArguments_append {g g' : Given} {arguments : List String}
    (hd : "--" ∉ arguments) (h : g.withArguments arguments = .ok g') :
    g.withArguments (arguments ++ "--" :: texts) =
      .ok { g' with formulas := texts.reverse ++ g'.formulas } := by
  induction g, arguments using Given.withArguments.induct generalizing g' with
  | case1 =>
    cases h
    rfl
  | case2 => simp at hd
  | case3 g argument rest hne formula ha ih =>
    simp only [withArguments, List.cons_append, ha] at h ⊢
    exact ih (List.not_mem_of_not_mem_cons hd) h
  | case4 g argument hne name hname value rest ha ih =>
    simp only [withArguments, List.cons_append, ha, if_pos hname] at h ⊢
    obtain ⟨next, hnext, h⟩ := exists_ok_of_bind h
    rw [hnext]
    exact ih next (List.not_mem_of_not_mem_cons hd) h
  | case5 g argument hne name hname value rest ha ih =>
    simp only [withArguments, List.cons_append, ha, if_pos hname] at h ⊢
    obtain ⟨next, hnext, h⟩ := exists_ok_of_bind h
    rw [hnext]
    exact ih next (List.not_mem_of_not_mem_cons (List.not_mem_of_not_mem_cons hd)) h
  | case6 g argument hne name hname ha => simp [withArguments, ha, hname] at h
  | case7 g argument rest hne name hname hflag ha ih =>
    simp only [withArguments, List.cons_append, ha, if_neg hname, if_pos hflag] at h ⊢
    obtain ⟨next, hnext, h⟩ := exists_ok_of_bind h
    rw [hnext]
    exact ih next (List.not_mem_of_not_mem_cons hd) h
  | case8 g argument rest hne name hname hflag value ha =>
    simp [withArguments, ha, hname, hflag] at h
  | case9 g argument rest hne name value ha hname hflag =>
    simp [withArguments, ha, hname, hflag] at h

theorem CommandLine.parse_behind_dashes {given : List String}
    {environment : String → Option String} (hd : "--" ∉ given)
    (h : parse given environment = .ok ⟨options, []⟩) :
    parse (given ++ "--" :: texts) environment = .ok ⟨options, texts⟩ := by
  rw [parse] at h
  obtain ⟨g, hg, h⟩ := exists_ok_of_bind h
  obtain ⟨seed, hseed, h⟩ := exists_ok_of_bind h
  obtain ⟨maxRolls, hmax, h⟩ := exists_ok_of_bind h
  obtain ⟨rfl, hnone⟩ := CommandLine.mk.inj (Except.ok.inj h)
  have hformulas : (texts.reverse ++ g.formulas).reverse = texts := by
    rw [List.reverse_append, hnone, List.nil_append, List.reverse_reverse]
  rw [parse, Given.withArguments_append hd hg]
  simp only [bind, Except.bind, hseed, hmax, hformulas]
  rfl

/-! ## Bytes -/

theorem bytes_append_line_feed (text : String) :
    (text ++ "\n").toUTF8.data.toList = text.toUTF8.data.toList ++ [10] := by
  rw [Text.Utf8.toList_toUTF8, Text.Utf8.toList_toUTF8, String.toList_append, List.flatMap_append]
  rfl

theorem line_feed_not_mem_bytes (h : '\n' ∉ text.toList) : 10 ∉ text.toUTF8.data.toList := by
  rw [Text.Utf8.toList_toUTF8]
  intro hm
  obtain ⟨c, hc, hb⟩ := List.mem_flatMap.1 hm
  obtain rfl := Text.Utf8.eq_of_mem_encoded hb (by decide)
  exact h hc

theorem blank_bytes_eq_false (h : ∃ c ∈ text.toList, c ∉ [' ', '\t', '\n', '\x0c', '\r']) :
    blank text.toUTF8.data.toList = false := by
  obtain ⟨c, hc, hnot⟩ := h
  rw [Text.Utf8.toList_toUTF8, blank, List.all_eq_false]
  obtain ⟨b, tail, he⟩ := List.exists_cons_of_ne_nil (String.utf8EncodeChar_ne_nil (c := c))
  have hb : b ∈ String.utf8EncodeChar c := by
    rw [he]
    exact .head _
  refine ⟨b, List.mem_flatMap.2 ⟨c, hc, hb⟩, ?_⟩
  intro hblank
  simp only [isBlankByte, Bool.or_eq_true, beq_iff_eq] at hblank
  rcases hblank with (((rfl | rfl) | rfl) | rfl) | rfl <;>
  · obtain rfl := Text.Utf8.eq_of_mem_encoded hb (by decide)
    exact hnot (by decide)

/-! ## One formula -/

theorem parse_append_line_feed {f : Formula} (h : Formula.parse (.ofText text) = .ok f) :
    Formula.parse (.ofText (text ++ "\n")) = .ok f := by
  have hgap : ∀ c ∈ ['\n'], Text.isSeparator c = true := List.forall_mem_singleton.2 (by decide)
  have hrelaid : Relaid text.toList (text ++ "\n").toList := by
    rw [String.toList_append]
    exact .back hgap
  have halike := Formula.alike_of_spelling .standard (spelling_ofText_eq_iff.2 hrelaid.spelled_eq)
  rw [Formula.parse] at h ⊢
  rw [h] at halike
  generalize Formula.ofSource .standard (.ofText (text ++ "\n")) = result at halike ⊢
  cases halike
  rfl

theorem escape_append_line_feed (text : String) :
    Text.Markdown.escape (text ++ "\n") = Text.Markdown.escape text := by
  have hline : ("\n".toList.filter Text.isGraphic) = [] := by decide
  rw [Text.Markdown.escape_eq_iff, Text.Markdown.graphic, Text.Markdown.graphic,
    String.toList_append, List.filter_append, hline, List.append_nil]

/-- Of its echo, a response in Markdown has what the echo shows. -/
theorem text_markdown_congr {echo echo' : String}
    {results : Except SyntaxError (List (String × Outcome))}
    (h : Text.Markdown.escape echo = Text.Markdown.escape echo') :
    Response.text .markdown ⟨echo, results⟩ = Response.text .markdown ⟨echo', results⟩ := by
  have hecho : Style.markdown.echo echo = Style.markdown.echo echo' :=
    congrArg (Text.Markdown.bold "Rolling" ++ ": " ++ ·) h
  rw [Response.text, Response.text, Response.lines, Response.lines, hecho]

theorem Options.print_typed (hmode : options.raw = false ∨ options.strict = true)
    (hf : ∃ f, Formula.parse (.ofText text) = .ok f) :
    options.print r (.ofText (text ++ "\n")) dice = options.print r (.ofText text) dice := by
  obtain ⟨f, hf⟩ := hf
  have hf' := parse_append_line_feed hf
  have hanswer : options.answer r (.ofText (text ++ "\n")) dice =
      options.answer r (.ofText text) dice := by
    cases hs : options.strict with
    | true => simp only [Options.answer, hs, if_true, evaluate_of_ok hf, evaluate_of_ok hf']
    | false =>
      have hraw : options.raw = false := by simpa [hs] using hmode
      have hstyle : options.style = .markdown := by simp [Options.style, hraw]
      simp only [Options.answer, hs, Bool.false_eq_true, if_false, respond_of_ok hf,
        respond_of_ok hf', hstyle, Source.text_ofText,
        text_markdown_congr (escape_append_line_feed text)]
  rw [Options.print, Options.print, hanswer]

/-! ## One formula after the other -/

theorem linesFrom_append {start line rest : List UInt8} (h : 10 ∉ line) :
    linesFrom start (line ++ 10 :: rest) = (start.reverse ++ line) :: linesFrom [] rest := by
  induction line generalizing start with
  | nil => simp [linesFrom]
  | cons b line ih =>
    have hb : b ≠ 10 := Ne.symm (List.ne_of_not_mem_cons h)
    rw [List.cons_append, linesFrom, if_neg hb, ih (List.not_mem_of_not_mem_cons h)]
    simp

theorem linesFrom_typed (h : ∀ text ∈ texts, '\n' ∉ text.toList) :
    linesFrom [] (typed texts) = texts.flatMap fun text => [text.toUTF8.data.toList, []] := by
  induction texts with
  | nil => rfl
  | cons text texts ih =>
    obtain ⟨htext, htexts⟩ := List.forall_mem_cons.1 h
    have hbytes : typed (text :: texts) =
        text.toUTF8.data.toList ++ 10 :: ([] ++ 10 :: typed texts) := by
      simp [typed]
    rw [hbytes, linesFrom_append (line_feed_not_mem_bytes htext),
      linesFrom_append List.not_mem_nil, ih htexts]
    rfl

theorem Exchange.formula_typed (text : String) (dice : σ) :
    Exchange.formula ⟨[text.toUTF8.data.toList], dice⟩ = .ofText (text ++ "\n") := by
  rw [← Source.ofBytes_toUTF8, bytes_append_line_feed]
  simp [Exchange.formula]

/-- Typed formulas are printed like formulas that are arguments, with prompts between them. -/
theorem Exchange.lines_typed (hmode : options.raw = false ∨ options.strict = true)
    (h : ∀ text ∈ texts, Typable text) :
    Exchange.lines options r ⟨[], dice⟩
        (texts.flatMap fun text => [text.toUTF8.data.toList, []]) =
      (options.printAll r texts dice).flatMap fun chunk => [morePrompt, chunk, prompt] := by
  induction texts generalizing dice with
  | nil => rfl
  | cons text texts ih =>
    obtain ⟨htext, htexts⟩ := List.forall_mem_cons.1 h
    have hempty : blank [] = true := rfl
    rw [List.flatMap_cons, List.cons_append, List.cons_append, List.nil_append,
      Exchange.lines_of_not_blank (blank_bytes_eq_false htext.not_blank),
      Exchange.lines_of_blank hempty, Exchange.formula_typed,
      Options.print_typed hmode htext.parsed, ih htexts]
    rfl

/-! ## Prompts -/

theorem Options.print_ne_prompt (options : Options) (r : Roller σ) (s : Source) (dice : σ) :
    (options.print r s dice).1 ≠ prompt ∧ (options.print r s dice).1 ≠ morePrompt := by
  rcases options.print_cases r ⟨s, dice⟩ with ⟨text, -, hprint⟩ | ⟨why, -, hprint⟩
  · have hend : (text ++ "\n").toList.getLast? = some '\n' := by
      rw [String.toList_append]
      exact List.getLast?_concat
    have hne {said : String} (hs : said.toList.getLast? ≠ some '\n') :
        Chunk.out (text ++ "\n") ≠ .out said := by
      intro he
      rw [Chunk.out.inj he] at hend
      exact hs hend
    rw [hprint]
    exact ⟨hne (by decide), hne (by decide)⟩
  · rw [hprint]
    exact ⟨nofun, nofun⟩

theorem Options.printAll_ne_prompt (options : Options) (r : Roller σ) (texts : List String)
    (dice : σ) : ∀ chunk ∈ options.printAll r texts dice, chunk ≠ prompt ∧ chunk ≠ morePrompt := by
  induction texts generalizing dice with
  | nil => exact List.forall_mem_nil _
  | cons text texts ih =>
    exact List.forall_mem_cons.2 ⟨options.print_ne_prompt r _ dice, ih _⟩

theorem unprompted_prompt (chunks : List Chunk) :
    unprompted (prompt :: chunks) = unprompted chunks := rfl

theorem unprompted_morePrompt (chunks : List Chunk) :
    unprompted (morePrompt :: chunks) = unprompted chunks := rfl

theorem unprompted_cons {chunk : Chunk} (h : chunk ≠ prompt ∧ chunk ≠ morePrompt)
    (chunks : List Chunk) : unprompted (chunk :: chunks) = chunk :: unprompted chunks :=
  List.filter_cons_of_pos (decide_eq_true h)

theorem unprompted_of_prompted {chunks : List Chunk}
    (h : ∀ chunk ∈ chunks, chunk ≠ prompt ∧ chunk ≠ morePrompt) :
    unprompted (prompt :: chunks.flatMap fun chunk => [morePrompt, chunk, prompt]) = chunks := by
  induction chunks with
  | nil => rfl
  | cons chunk chunks ih =>
    obtain ⟨hchunk, hchunks⟩ := List.forall_mem_cons.1 h
    change unprompted (prompt :: morePrompt :: chunk :: prompt :: chunks.flatMap _) = _
    rw [unprompted_prompt, unprompted_morePrompt, unprompted_cons hchunk, ih hchunks]

theorem errText_unprompted (chunks : List Chunk) :
    errText (unprompted chunks) = errText chunks := by
  induction chunks with
  | nil => rfl
  | cons chunk chunks ih =>
    by_cases hprompt : chunk = prompt
    · subst hprompt
      rw [unprompted_prompt, ih, errText_cons prompt]
      simp [errText, prompt]
    by_cases hmore : chunk = morePrompt
    · subst hmore
      rw [unprompted_morePrompt, ih, errText_cons morePrompt]
      simp [errText, morePrompt]
    · rw [unprompted_cons ⟨hprompt, hmore⟩, errText_cons, ih, ← errText_cons]

/-- **Arguments and lines agree.** Formulas that are arguments behind two dashes and the same ones
that are typed, each on a line with an empty line behind it, are printed alike if a session starts
with the same dice: in Markdown, and if errors end formulas, in plain text too. Between them the
lines have their prompts and nothing else, so without these the output is the same, and the text
for errors is. -/
theorem arguments_agree_with_lines (options : Options) (texts : List String) (r : Roller σ)
    (dice : σ) (input : List UInt8) (hmode : options.raw = false ∨ options.strict = true)
    (hne : texts ≠ []) (h : ∀ text ∈ texts, Typable text) :
    let arguments := CommandLine.run ⟨options, texts⟩ r dice input
    let lines := CommandLine.run ⟨options, []⟩ r dice (typed texts)
    (∀ given environment, "--" ∉ given →
      CommandLine.parse given environment = .ok ⟨options, []⟩ →
        CommandLine.parse (given ++ "--" :: texts) environment = .ok ⟨options, texts⟩) ∧
    lines.chunks =
      prompt :: arguments.chunks.flatMap (fun chunk => [morePrompt, chunk, prompt]) ∧
    outText (unprompted lines.chunks) = outText arguments.chunks ∧
    errText lines.chunks = errText arguments.chunks := by
  intro arguments lines
  have harguments : arguments.chunks = options.printAll r texts dice := by
    obtain ⟨text, texts, rfl⟩ := List.exists_cons_of_ne_nil hne
    rfl
  have htyped : linesFrom [] (typed texts) =
      texts.flatMap fun text => [text.toUTF8.data.toList, []] :=
    linesFrom_typed fun text ht => (h text ht).one_line
  have hlines : lines.chunks =
      prompt :: arguments.chunks.flatMap (fun chunk => [morePrompt, chunk, prompt]) := by
    rw [harguments, ← Exchange.lines_typed hmode h, ← htyped]
    rfl
  have hunprompted : unprompted lines.chunks = arguments.chunks := by
    rw [hlines, harguments]
    exact unprompted_of_prompted (options.printAll_ne_prompt r texts dice)
  refine ⟨fun given environment => CommandLine.parse_behind_dashes, hlines, ?_, ?_⟩
  · rw [hunprompted]
  · rw [← hunprompted, errText_unprompted]

/-- A strict session with at most three dice for a formula: the second of three formulas has no
value, nor has the third, which rolls too many. -/
theorem strict_formulas_typed :
    let options : Options := ⟨some 7, 3, false, true⟩
    let texts := ["2d6", "1/0", "4d6"]
    let r := Keystream.source.roller
    let lines := CommandLine.run ⟨options, []⟩ r (options.dice 0) (typed texts)
    (options.raw = false ∨ options.strict = true) ∧ texts ≠ [] ∧
    (∀ text ∈ texts, Typable text) ∧ typed texts = "2d6\n\n1/0\n\n4d6\n\n".toUTF8.data.toList ∧
    CommandLine.parse ["--seed", "7", "--max-rolls", "3", "--strict", "--", "2d6", "1/0", "4d6"]
      (fun _ => none) = .ok ⟨options, texts⟩ ∧
    outText (unprompted lines.chunks) = "**1st**: 5\n" ∧
    errText lines.chunks =
      "Error: 1st: cannot divide by zero\nError: 1st: too many dice rolled\n" := by
  intro options texts r lines
  have hmode : options.raw = false ∨ options.strict = true := .inl rfl
  have hne : texts ≠ [] := List.cons_ne_nil _ _
  have hdice : Typable "2d6" := by
    refine ⟨⟨⟨[⟨"", .dice 2 6⟩]⟩, ?_⟩, by decide, '2', by decide, by decide⟩
    decide +kernel
  have hquotient : Typable "1/0" := by
    refine ⟨⟨⟨[⟨"", .binary (.int 1) .div (.int 0)⟩]⟩, ?_⟩, by decide, '1', by decide, by decide⟩
    decide +kernel
  have hmany : Typable "4d6" := by
    refine ⟨⟨⟨[⟨"", .dice 4 6⟩]⟩, ?_⟩, by decide, '4', by decide, by decide⟩
    decide +kernel
  have h : ∀ text ∈ texts, Typable text := by simp [texts, hdice, hquotient, hmany]
  obtain ⟨hparse, -, hout, herr⟩ :=
    arguments_agree_with_lines options texts r (options.dice 0) [] hmode hne h
  refine ⟨hmode, hne, h, by decide +kernel, ?_, hout.trans (by decide +kernel),
    herr.trans (by decide +kernel)⟩
  exact hparse ["--seed", "7", "--max-rolls", "3", "--strict"] (fun _ => none) (by decide) rfl

/-- In plain text that goes on past errors, the echo has the line feed of the line. -/
example : (Options.print ⟨some 7, 3, true, false⟩ Keystream.source.roller (.ofText "1\n")
    (.ofSeed 7)).1 = .out "Rolling: 1\n\n1st: 1\n" := by
  decide +kernel

end DiceNotation.Console
