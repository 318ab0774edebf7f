/-
Markdown that no input can forge. Markdown is read from left to right, and a
backslash with an ASCII punctuation character behind it is that character alone
(`marks`). Escaped text is read as its graphic characters, and nothing that
follows it is read another way (`marks_escape`). So each line of a response is
read as its template with literal text in it (`Response.map_marks_lines`), its bare
punctuation is that of the template, and the line breaks are those between the
lines (`Response.splitOn_text`).
-/
import DiceNotation.Proofs.Agreement
import DiceNotation.Proofs.Printed

namespace DiceNotation

open Text (Decimal.ofInt64)

namespace Text.Markdown

/-- A character as it is read: shown as it is because of a backslash, or bare. -/
inductive Mark
  | literal (c : Char)
  | bare (c : Char)
  deriving DecidableEq, Repr

/-- Markdown as it is read from left to right. -/
def marks : List Char → List Mark
  | [] => []
  | [c] => [.bare c]
  | c :: d :: cs =>
    if c = '\\' ∧ isPunctuation d = true then .literal d :: marks cs
    else .bare c :: marks (d :: cs)

/-- What shows a character as it is. -/
def Mark.ofChar (c : Char) : Mark := if isPunctuation c then .literal c else .bare c

/-- The marks of text that is escaped. -/
def shown (s : String) : List Mark := (s.toList.filter isGraphic).map .ofChar

/-- The marks of text that is written as it is. -/
def written (s : String) : List Mark := s.toList.map .bare

/-- A heading in bold, a colon, and what stands behind it. -/
def headed (title rest : List Mark) : List Mark := written "**" ++ title ++ written "**: " ++ rest

/-- The punctuation of the template of a heading. -/
def headingPunctuation : List Char := ['*', '*', '*', '*', ':']

/-- The bare ASCII punctuation among marks. -/
def punctuation (ms : List Mark) : List Char :=
  ms.filterMap fun
    | .literal _ => none
    | .bare c => if isPunctuation c then some c else none

/-- The ASCII punctuation of a line that is not behind a backslash. -/
def barePunctuation (line : List Char) : List Char := punctuation (marks line)

/-! ## Marks -/

variable {c : Char} {cs t : List Char}

theorem marks_cons (hc : c ≠ '\\') : marks (c :: cs) = .bare c :: marks cs := by
  cases cs with
  | nil => rfl
  | cons d ds => rw [marks, if_neg fun h => hc h.1]

theorem marks_literal (hc : isPunctuation c = true) :
    marks ('\\' :: c :: cs) = .literal c :: marks cs := by
  rw [marks, if_pos ⟨rfl, hc⟩]

/-- Text without a backslash is read character by character. -/
theorem marks_append (ht : '\\' ∉ t) : marks (t ++ cs) = t.map .bare ++ marks cs := by
  induction t with
  | nil => rfl
  | cons c t ih =>
    have hc : c ≠ '\\' := fun h => ht (h ▸ List.mem_cons_self)
    have ht : '\\' ∉ t := fun h => ht (List.mem_cons_of_mem c h)
    rw [List.cons_append, marks_cons hc, ih ht]
    rfl

theorem ne_backslash (hc : isPunctuation c = false) : c ≠ '\\' := by
  rintro rfl
  revert hc
  decide

theorem marks_escapedChar (c : Char) (cs : List Char) : marks (escapedChar c ++ cs) =
    (if isGraphic c then [Mark.ofChar c] else []) ++ marks cs := by
  cases hg : isGraphic c with
  | false => simp [escapedChar, hg]
  | true =>
    cases hp : isPunctuation c with
    | false => simp [escapedChar, Mark.ofChar, hg, hp, marks_cons (ne_backslash hp)]
    | true => simp [escapedChar, Mark.ofChar, hg, hp, marks_literal hp]

/-- **Escaped text is read as its graphic characters**, whatever follows it. -/
theorem marks_escape (s : String) (cs : List Char) :
    marks ((escape s).toList ++ cs) = shown s ++ marks cs := by
  rw [escape, String.toList_ofList, shown]
  induction s.toList with
  | nil => rfl
  | cons c t ih =>
    rw [List.flatMap_cons, List.append_assoc, marks_escapedChar, ih, List.filter_cons]
    split <;> rfl

/-- A backslash and an asterisk of the input, and an asterisk of a template behind them. -/
example : marks ((escape "\\*").toList ++ ['*']) = [.literal '\\', .literal '*', .bare '*'] := by
  decide

/-! ## Graphic characters -/

theorem mem_escapedChar {d : Char} (h : c ∈ escapedChar d) :
    c = '\\' ∨ c = d ∧ isGraphic d = true := by
  cases hg : isGraphic d with
  | false => simp [escapedChar, hg] at h
  | true =>
    cases hp : isPunctuation d with
    | false => exact .inr (by simpa [escapedChar, hg, hp] using h)
    | true => simpa [escapedChar, hg, hp] using h

theorem isGraphic_of_mem_escape {s : String} (h : c ∈ (escape s).toList) : isGraphic c = true := by
  rw [escape, String.toList_ofList] at h
  obtain ⟨d, -, hd⟩ := List.mem_flatMap.1 h
  obtain rfl | ⟨rfl, hg⟩ := mem_escapedChar hd
  · decide
  · exact hg

theorem isGraphic_of_isDigit (h : c.isDigit = true) : isGraphic c = true := by
  rw [isGraphic, not_inRanges_of_isDigit (by decide) h]
  rfl

theorem isPunctuation_of_isDigit (h : c.isDigit = true) : isPunctuation c = false :=
  not_inRanges_of_isDigit (by decide) h

theorem mem_ofInt64 {x : Int64} (h : c ∈ (Decimal.ofInt64 x).toList) :
    c = '-' ∨ c.isDigit = true := by
  by_cases hx : x < 0
  · rw [ofInt64_of_neg hx] at h
    exact (List.mem_cons.1 h).imp_right isDigit_of_mem_digits
  · rw [ofInt64_of_nonneg (Int64.not_lt.1 hx)] at h
    exact .inr (isDigit_of_mem_digits h)

theorem isGraphic_of_mem_ofInt64 {x : Int64} (h : c ∈ (Decimal.ofInt64 x).toList) :
    isGraphic c = true := by
  obtain rfl | hc := mem_ofInt64 h
  · decide
  · exact isGraphic_of_isDigit hc

theorem marks_ofInt64 (x : Int64) :
    marks (Decimal.ofInt64 x).toList = written (Decimal.ofInt64 x) := by
  have hx : '\\' ∉ (Decimal.ofInt64 x).toList := by
    intro h
    obtain hc | hc := mem_ofInt64 h
    · revert hc
      decide
    · revert hc
      decide
  rw [← List.append_nil (Decimal.ofInt64 x).toList, marks_append hx]
  exact List.append_nil _

/-! ## Punctuation -/

theorem punctuation_append (ms ns : List Mark) :
    punctuation (ms ++ ns) = punctuation ms ++ punctuation ns := List.filterMap_append

theorem punctuation_shown (s : String) : punctuation (shown s) = [] := by
  rw [punctuation, shown, List.filterMap_map, List.filterMap_eq_nil_iff]
  intro c _
  cases hp : isPunctuation c <;> simp [Mark.ofChar, hp]

theorem punctuation_written (s : String) :
    punctuation (written s) = s.toList.filter isPunctuation := by
  rw [punctuation, written, List.filterMap_map, ← List.filterMap_eq_filter]
  rfl

/-- A heading without bare punctuation adds that of its template. -/
theorem punctuation_headed {title : List Mark} (ht : punctuation title = []) (rest : List Mark) :
    punctuation (headed title rest) = headingPunctuation ++ punctuation rest := by
  rw [headed, punctuation_append, punctuation_append, punctuation_append, ht, punctuation_written,
    punctuation_written]
  rfl

/-- A value has a minus sign if it is negative, and no other punctuation. -/
theorem punctuation_ofInt64 (x : Int64) :
    punctuation (written (Decimal.ofInt64 x)) = if x < 0 then ['-'] else [] := by
  have hdigits : (digits x).filter isPunctuation = [] :=
    List.filter_eq_nil_iff.2 fun _ hc =>
      Bool.eq_false_iff.1 (isPunctuation_of_isDigit (isDigit_of_mem_digits hc))
  have hsign : isPunctuation '-' = true := by decide
  rw [punctuation_written]
  split
  next hx => rw [ofInt64_of_neg hx, List.filter_cons_of_pos hsign, hdigits]
  next hx => rw [ofInt64_of_nonneg (Int64.not_lt.1 hx), hdigits]

end Text.Markdown

open Text (isGraphic)
open Text.Markdown

/-! ## Lines -/

/-- The line has graphic characters alone and is read as `reading`. -/
structure Unforged (line : String) (reading : List Mark) : Prop where
  graphic : ∀ c ∈ line.toList, isGraphic c = true
  marks : marks line.toList = reading

/-- How the line of an outcome is read. -/
def Outcome.reading (label : String) : Outcome → List Mark
  | .ok value => headed (shown label) (written (Decimal.ofInt64 value))
  | .error e => headed (shown label) (headed (written "Error") (shown e.message))

/-- The bare punctuation of the line of an outcome. -/
def Outcome.template : Outcome → List Char
  | .ok value => headingPunctuation ++ if value < 0 then ['-'] else []
  | .error _ => headingPunctuation ++ headingPunctuation

theorem Outcome.punctuation_reading (label : String) (outcome : Outcome) :
    punctuation (outcome.reading label) = outcome.template := by
  have hlabel := punctuation_shown label
  cases outcome with
  | ok value =>
    have hvalue := punctuation_ofInt64 value
    rw [reading, punctuation_headed hlabel, hvalue, template]
  | error e =>
    have htitle : punctuation (written "Error") = [] := by decide
    rw [reading, template, punctuation_headed hlabel, punctuation_headed htitle, punctuation_shown,
      List.append_nil]

namespace Unforged

variable {rest : String} {reading : List Mark}

theorem escape (s : String) : Unforged (Text.Markdown.escape s) (shown s) where
  graphic := fun _ hc => isGraphic_of_mem_escape hc
  marks := by
    rw [← List.append_nil (Text.Markdown.escape s).toList, marks_escape]
    exact List.append_nil _

theorem value (x : Int64) : Unforged (Decimal.ofInt64 x) (written (Decimal.ofInt64 x)) :=
  ⟨fun _ => isGraphic_of_mem_ofInt64, marks_ofInt64 x⟩

/-- A heading is read as its template, whatever it says. -/
theorem heading (title : String) (h : Unforged rest reading) :
    Unforged (bold (Text.Markdown.escape title) ++ ": " ++ rest)
      (headed (shown title) reading) := by
  have hlist : (bold (Text.Markdown.escape title) ++ ": " ++ rest).toList =
      "**".toList ++ ((Text.Markdown.escape title).toList ++ ("**: ".toList ++ rest.toList)) := by
    simp [bold]
  refine ⟨?_, ?_⟩ <;> rw [hlist]
  · have hopen : "**".toList.all isGraphic = true := by decide
    have hclose : "**: ".toList.all isGraphic = true := by decide
    simp only [List.mem_append]
    rintro c (hc | hc | hc | hc)
    · exact List.all_eq_true.1 hopen c hc
    · exact isGraphic_of_mem_escape hc
    · exact List.all_eq_true.1 hclose c hc
    · exact h.graphic c hc
  · rw [marks_append (by decide), marks_escape, marks_append (by decide), h.marks, headed,
      List.append_assoc, List.append_assoc]
    rfl

/-- The headings that are the same for every input stand as they are. -/
theorem titled {title : String} (ht : Text.Markdown.escape title = title)
    (hs : shown title = written title) (h : Unforged rest reading) :
    Unforged (bold title ++ ": " ++ rest) (headed (written title) reading) := by
  have hheading := heading title h
  rwa [ht, hs] at hheading

theorem echo (input : String) :
    Unforged (Style.markdown.echo input) (headed (written "Rolling") (shown input)) :=
  titled (by decide) (by decide) (escape input)

theorem syntaxError (e : SyntaxError) : Unforged (Style.markdown.syntaxError e)
    (headed (written "Syntax Error") (shown e.message)) :=
  titled (by decide) (by decide) (escape e.message)

theorem result (label : String) (outcome : Outcome) :
    Unforged (Style.markdown.result label outcome) (outcome.reading label) := by
  cases outcome with
  | ok x => exact heading label (value x)
  | error e => exact heading label (titled (by decide) (by decide) (escape e.message))

end Unforged

/-! ## Responses -/

namespace Response

/-- How the lines of a response are read. -/
def readings (response : Response) : List (List Mark) :=
  headed (written "Rolling") (shown response.echo) ::
    match response.results with
    | .error e => [headed (written "Syntax Error") (shown e.message)]
    | .ok outcomes => outcomes.map fun o => o.2.reading o.1

theorem isGraphic_of_mem_lines {response : Response} {line : String}
    (h : line ∈ response.lines .markdown) : ∀ c ∈ line.toList, isGraphic c = true := by
  obtain ⟨echo, results⟩ := response
  rcases List.mem_cons.1 h with rfl | h
  · exact (Unforged.echo echo).graphic
  · cases results with
    | error e =>
      obtain rfl := List.mem_singleton.1 h
      exact (Unforged.syntaxError e).graphic
    | ok outcomes =>
      obtain ⟨o, -, rfl⟩ := List.mem_map.1 h
      exact (Unforged.result o.1 o.2).graphic

/-- **Each line is read as its template** with literal text in it. -/
theorem map_marks_lines (response : Response) :
    (response.lines .markdown).map (fun line => marks line.toList) = response.readings := by
  obtain ⟨echo, results⟩ := response
  rw [lines, readings, List.map_cons, (Unforged.echo echo).marks]
  congr 1
  cases results with
  | error e => exact congrArg (fun l => [l]) (Unforged.syntaxError e).marks
  | ok outcomes =>
    dsimp only
    rw [List.map_map]
    refine List.map_congr_left ?_
    rintro ⟨label, outcome⟩ -
    simp only [Function.comp_apply, (Unforged.result label outcome).marks]

theorem splitOn_text (response : Response) : (response.text .markdown).toList.splitOn '\n' =
    (response.lines .markdown).map String.toList := by
  have hbreak : "\n".toList = ['\n'] := by decide
  have hne : (response.lines .markdown).map String.toList ≠ [] := by
    rw [lines, List.map_cons]
    exact List.cons_ne_nil _ _
  rw [text, String.toList_intercalate, hbreak]
  refine List.splitOn_intercalate '\n' ?_ hne
  intro line hline hmem
  obtain ⟨l, hl, rfl⟩ := List.mem_map.1 hline
  exact absurd (isGraphic_of_mem_lines hl _ hmem) (by decide)

theorem map_punctuation_readings (response : Response) :
    response.readings.map punctuation = headingPunctuation ::
      match response.results with
      | .error _ => [headingPunctuation]
      | .ok outcomes => outcomes.map fun o => o.2.template := by
  have hecho : punctuation (headed (written "Rolling") (shown response.echo)) =
      headingPunctuation := by
    rw [punctuation_headed (by decide), punctuation_shown, List.append_nil]
  rw [readings, List.map_cons, hecho]
  congr 1
  cases response.results with
  | error e =>
    have herror : punctuation (headed (written "Syntax Error") (shown e.message)) =
        headingPunctuation := by
      rw [punctuation_headed (by decide), punctuation_shown, List.append_nil]
    exact congrArg (fun l => [l]) herror
  | ok outcomes =>
    dsimp only
    rw [List.map_map]
    exact List.map_congr_left fun o _ => o.2.punctuation_reading o.1

end Response

/-- **No input forges Markdown**: a response has a line for the input and one for each equation, or
for the syntax error, has graphic characters alone, is read as its templates with literal text in
them, and has the bare punctuation of its headings and of negative values and no other. -/
theorem markdown_unforged {σ : Type} (r : Roller σ) (bytes : List UInt8) (cup : Cup σ) :
    let response := (respond r (.ofBytes bytes) cup).1
    let lines := (response.text .markdown).toList.splitOn '\n'
    (∀ line ∈ lines, ∀ c ∈ line, isGraphic c = true) ∧ lines.map marks = response.readings ∧
    (∀ e, Formula.parse (.ofBytes bytes) = .error e → lines.length = 2 ∧
      lines.map barePunctuation = [headingPunctuation, headingPunctuation]) ∧
    ∀ f, Formula.parse (.ofBytes bytes) = .ok f → lines.length = 1 + f.equations.length ∧
      ∃ outcomes, response.results = .ok outcomes ∧ outcomes.length = f.equations.length ∧
        lines.map barePunctuation =
          headingPunctuation :: outcomes.map fun o => o.2.template := by
  intro response lines
  have hlines : lines = (response.lines .markdown).map String.toList := response.splitOn_text
  have hmarks : lines.map marks = response.readings := by
    rw [hlines, List.map_map]
    exact response.map_marks_lines
  have hbare : lines.map barePunctuation = response.readings.map punctuation := by
    rw [← hmarks, List.map_map]
    rfl
  have hlength : lines.length = response.readings.length := by
    rw [← hmarks, List.length_map]
  rw [Response.map_punctuation_readings] at hbare
  refine ⟨?_, hmarks, ?_, ?_⟩
  · intro line hline
    rw [hlines] at hline
    obtain ⟨l, hl, rfl⟩ := List.mem_map.1 hline
    exact Response.isGraphic_of_mem_lines hl
  · intro e he
    have hresponse : response = ⟨_, .error e⟩ := congrArg Prod.fst (respond_of_error he r cup)
    rw [hlength, hbare, hresponse]
    exact ⟨rfl, rfl⟩
  · intro f hf
    have hresponse : response = ⟨_, .ok (outcomesFrom r 0 f.equations cup).1⟩ :=
      congrArg Prod.fst (respond_of_ok hf r cup)
    have hcount := (agreement r f.equations cup).length_eq
    rw [hlength, hbare, hresponse]
    refine ⟨?_, _, rfl, hcount, rfl⟩
    rw [Response.readings, List.length_cons, List.length_map, hcount, Nat.add_comm]

end DiceNotation
