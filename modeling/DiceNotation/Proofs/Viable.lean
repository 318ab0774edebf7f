/-
Errors stand at the first token that cannot be continued. From every outline
some tokens lead to the end (`Outline.accepts_completion`), so tokens in front
of the end are viable exactly if an outline is left after them
(`viable_iff`). An error of the reader without limits names what the outline
expects (`Stage.next_error`), and all that it expects can be taken
(`Outline.next_of_expected`).
-/
import DiceNotation.Proofs.Outline

namespace DiceNotation

/-- The token is one of those that the expectation speaks of. A limit speaks of none. -/
def Expectation.Describes : Expectation → Token → Prop
  | .integer, t => t.kind = .integer
  | .diceTerm, t => t.kind = .dice
  | .leftParen, t => t.kind = .leftParen
  | .rightParen, t => t.kind = .rightParen
  | .equal, t => t.kind = .equal
  | _, _ => False

namespace Outline

/-! ## Completions -/

/-- The ends of so many groups, and of the input. -/
def closing : (groups : Nat) → List Token
  | 0 => [⟨.start, .endOfInput, ""⟩]
  | groups + 1 => ⟨.start, .rightParen, ")"⟩ :: closing groups

/-- Tokens that complete what is being read. -/
def completion : Outline → List Token
  | .equation => closing 0
  | .name => ⟨.start, .equal, "="⟩ :: ⟨.start, .integer, "1"⟩ :: closing 0
  | .unit groups | .number groups => ⟨.start, .integer, "1"⟩ :: closing groups
  | .integer groups | .operator groups => closing groups

theorem accepts_closing : ∀ groups, (operator groups).accepts (closing groups) = true
  | 0 => rfl
  | groups + 1 => accepts_of_next rfl nofun (accepts_closing groups)

theorem accepts_completion (o : Outline) : o.accepts o.completion = true := by
  have unit groups : (unit groups).accepts (⟨.start, .integer, "1"⟩ :: closing groups) = true :=
    accepts_of_next rfl nofun (accepts_of_operator (accepts_closing groups))
  cases o with
  | equation => rfl
  | name => exact accepts_of_next rfl nofun (unit 0)
  | unit groups => exact unit groups
  | number groups => exact accepts_of_next rfl nofun (accepts_closing groups)
  | integer groups => exact accepts_of_operator (accepts_closing groups)
  | operator groups => exact accepts_closing groups

variable {o o' : Outline} {t : Token} {ts before : List Token}

/-! ## What is due after some tokens -/

theorem accepts_append (hb : ∀ b ∈ before, b.kind ≠ .endOfInput) :
    o.accepts (before ++ ts) = true ↔
      ∃ o', before.foldlM next o = some o' ∧ o'.accepts ts = true := by
  induction before generalizing o with
  | nil => simp
  | cons b before ih =>
    rw [List.cons_append, accepts_cons, List.foldlM_cons]
    cases o.next b with
    | none => simp
    | some o' => simp [hb b (by simp), ih fun b h => hb b (by simp [h])]

/-- Tokens before the end are viable if the outline machine can take them. -/
theorem viable_iff (hb : ∀ b ∈ before, b.kind ≠ .endOfInput) :
    Viable before ↔ ∃ o, before.foldlM next equation = some o := by
  simp only [Viable, sentence_iff_accepts, accepts_append hb]
  refine ⟨fun h => ?_, fun h => ?_⟩
  · obtain ⟨more, o, ho, -⟩ := h
    exact ⟨o, ho⟩
  · obtain ⟨o, ho⟩ := h
    exact ⟨o.completion, o, ho, o.accepts_completion⟩

/-- Nothing makes a sentence of tokens the last of which cannot be taken. -/
theorem not_viable (hb : ∀ b ∈ before, b.kind ≠ .endOfInput)
    (ho : before.foldlM next equation = some o) (ht : o.next t = none) :
    ¬ Viable (before ++ [t]) := by
  rintro ⟨more, h⟩
  rw [sentence_iff_accepts, List.append_assoc, accepts_append hb] at h
  obtain ⟨o', ho', h⟩ := h
  cases ho.symm.trans ho'
  simp [accepts, ht] at h

theorem run_outline {r r' : Reading} (h : Reading.run .unlimited r ts = .ok r') :
    ts.foldlM next r.stage.outline = some r'.stage.outline := by
  induction ts generalizing r with
  | nil => cases h; rfl
  | cons t ts ih =>
    obtain ⟨stage, hs, h⟩ := Reading.run_cons_eq_ok_iff.1 h
    simpa [List.foldlM_cons, Stage.outline_next_of_ok hs] using ih h

theorem next_endOfInput {t' : Token} (ht : t.kind = .endOfInput) (ht' : t'.kind = .endOfInput) :
    o.next t = o.next t' := by
  cases o with
  | integer groups | operator groups =>
    cases groups <;> simp [next, readOperator, readEquation, Kind.operator?, ht, ht']
  | equation | name | unit | number => simp [next, readEquation, readUnit, ht, ht']

/-! ## What is expected -/

/-- What an error says could have stood in place of a token that cannot be taken. -/
def expected : Outline → List Expectation
  | .equation | .unit _ | .integer 0 | .operator 0 => [.integer, .diceTerm, .leftParen]
  | .integer _ | .operator _ => [.rightParen]
  | .name => [.equal]
  | .number _ => [.integer]

theorem unit_of_expected {x : Expectation} {groups : Nat} (hx : x ∈ (unit groups).expected)
    (ht : x.Describes t) : ∃ o, readUnit groups t = some o ∧ t.kind.operator? = none ∧
      t.kind ≠ .endOfInput ∧ t.kind ≠ .word := by
  simp only [expected, List.mem_cons, List.not_mem_nil, or_false] at hx
  rcases hx with rfl | rfl | rfl <;> simp only [Expectation.Describes] at ht <;>
    simp [readUnit, ht, Kind.operator?]

theorem equation_of_expected {x : Expectation} (hx : x ∈ equation.expected) (ht : x.Describes t) :
    ∃ o, readEquation t = some o ∧ t.kind.operator? = none ∧ t.kind ≠ .endOfInput := by
  have hu : x ∈ (unit 0).expected := hx
  obtain ⟨o, ho, hop, hend, hword⟩ := unit_of_expected hu ht
  refine ⟨o, ?_, hop, hend⟩
  unfold readEquation
  split
  · contradiction
  · contradiction
  · exact ho

theorem operator_of_expected {x : Expectation} {groups : Nat} (hx : x ∈ (operator groups).expected)
    (ht : x.Describes t) : ∃ o, readOperator groups t = some o ∧ t.kind ≠ .endOfInput := by
  cases groups with
  | zero =>
    obtain ⟨o, ho, hop, hend⟩ := equation_of_expected hx ht
    exact ⟨o, by simpa [readOperator, hop] using ho, hend⟩
  | succ groups =>
    obtain rfl : x = .rightParen := by simpa [expected] using hx
    simp only [Expectation.Describes] at ht
    exact ⟨.operator groups, by simp [readOperator, ht, Kind.operator?], by simp [ht]⟩

/-- All that an outline expects can be taken. -/
theorem next_of_expected {x : Expectation} (hx : x ∈ o.expected) (ht : x.Describes t) :
    ∃ o', o.next t = some o' ∧ t.kind ≠ .endOfInput := by
  cases o with
  | equation =>
    obtain ⟨o', ho, -, hend⟩ := equation_of_expected hx ht
    exact ⟨o', ho, hend⟩
  | name =>
    obtain rfl : x = .equal := by simpa [expected] using hx
    simp only [Expectation.Describes] at ht
    exact ⟨.unit 0, by simp [next, ht], by simp [ht]⟩
  | unit groups =>
    obtain ⟨o', ho, -, hend, -⟩ := unit_of_expected hx ht
    exact ⟨o', ho, hend⟩
  | number groups =>
    obtain rfl : x = .integer := by simpa [expected] using hx
    simp only [Expectation.Describes] at ht
    exact ⟨.operator groups, by simp [next, ht], by simp [ht]⟩
  | integer groups =>
    have hx' : x ∈ (operator groups).expected := by cases groups <;> exact hx
    obtain ⟨o', ho, hend⟩ := operator_of_expected hx' ht
    by_cases hd : t.kind = .dice
    · exact ⟨afterDice groups t, by simp [next, hd], hend⟩
    · exact ⟨o', by simpa [next, hd] using ho, hend⟩
  | operator groups => exact operator_of_expected hx ht

theorem exists_describes {x : Expectation} (hx : x ∈ o.expected) : ∃ t, x.Describes t := by
  have (k : Kind) : ∃ t : Token, t.kind = k := ⟨⟨.start, k, ""⟩, rfl⟩
  cases x with
  | integer => exact this .integer
  | diceTerm => exact this .dice
  | leftParen => exact this .leftParen
  | rightParen => exact this .rightParen
  | equal => exact this .equal
  | nestingAtMost | operatorsAtMost | other =>
    cases o with
    | integer groups | operator groups => cases groups <;> simp [expected] at hx
    | equation | name | unit | number => simp [expected] at hx

end Outline

namespace Stage

variable {d : Draft} {t : Token} {e : SyntaxError}

theorem readUnit_error (h : readUnit .unlimited d t = .error e) :
    e = .unexpected t .integer [.diceTerm, .leftParen] := by
  unfold readUnit at h
  split at h <;> cases h
  rfl

theorem readEquation_error (h : readEquation .unlimited t = .error e) :
    e = .unexpected t .integer [.diceTerm, .leftParen] := by
  unfold readEquation at h
  split at h
  · cases h
  · cases h
  · exact readUnit_error h

theorem readOperator_error {operand : Term} (h : readOperator .unlimited operand d t = .error e) :
    e.received = t ∧ e.position = t.position ∧
      e.expected = (Outline.operator d.outer.length).expected := by
  cases ho : t.kind.operator? with
  | some op =>
    rw [readOperator_operator ho] at h
    cases h
  | none =>
    cases hd : d.outer with
    | nil =>
      simp only [readOperator, ho, hd] at h
      obtain rfl := readEquation_error h
      exact ⟨rfl, rfl, rfl⟩
    | cons level outer =>
      simp only [readOperator, ho, hd] at h
      split at h <;> cases h
      exact ⟨rfl, rfl, rfl⟩

/-- **An error of the reader** is at the token that cannot be taken, and names what its outline
expects. -/
theorem next_error {stage : Stage} (h : stage.next .unlimited t = .error e) :
    e.received = t ∧ e.position = t.position ∧ e.expected = stage.outline.expected := by
  cases stage with
  | equation =>
    obtain rfl := readEquation_error h
    exact ⟨rfl, rfl, rfl⟩
  | unit d =>
    obtain rfl := readUnit_error h
    exact ⟨rfl, rfl, rfl⟩
  | name words | signed negative d | faces count d =>
    simp only [next] at h
    split at h <;> cases h
    exact ⟨rfl, rfl, rfl⟩
  | integer value d =>
    simp only [next] at h
    split at h
    · cases h
    · obtain ⟨hr, hp, he⟩ := readOperator_error h
      refine ⟨hr, hp, ?_⟩
      rw [he, outline]
      cases d.outer <;> rfl
  | operator operand d => exact readOperator_error h

end Stage

end DiceNotation
