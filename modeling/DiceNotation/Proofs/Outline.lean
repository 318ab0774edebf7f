/-
Whether tokens spell a formula does not depend on the terms read, only on what
is due next and on how many groups are open. The outline of a stage keeps just
that, and its steps are the reader's (`Stage.outline_next`): a machine with
seven states and one counter that recognises the language of the grammar
(`sentence_iff_accepts`).

The grammar is ambiguous where one equation can end and another begin, and the
reader always goes on. It loses nothing by that: what can be read as a new
equation can be read as well when the old one goes on (`Outline.accepts_of_equation`,
`Outline.accepts_of_operator`), so tokens with any derivation at all are
accepted (`Spells.accepts`).
-/
import DiceNotation.Proofs.Completion

namespace DiceNotation

/-- What is due next, and in how many groups. `number` is the integer after a sign or after a dice
token that needs one. -/
inductive Outline
  | equation
  | name
  | unit (groups : Nat)
  | number (groups : Nat)
  | integer (groups : Nat)
  | operator (groups : Nat)
  deriving DecidableEq, Repr

def Stage.outline : Stage → Outline
  | .equation => .equation
  | .name _ => .name
  | .unit d => .unit d.outer.length
  | .signed _ d => .number d.outer.length
  | .faces _ d => .number d.outer.length
  | .integer _ d => .integer d.outer.length
  | .operator _ d => .operator d.outer.length

namespace Outline

def afterDice (groups : Nat) (t : Token) : Outline :=
  if t.hasDigits then .operator groups else .number groups

def readUnit (groups : Nat) (t : Token) : Option Outline :=
  match t.kind with
  | .dice => some (afterDice groups t)
  | .integer => some (.integer groups)
  | .plus | .minus => some (.number groups)
  | .leftParen => some (.unit (groups + 1))
  | _ => none

def readEquation (t : Token) : Option Outline :=
  match t.kind with
  | .endOfInput => some .equation
  | .word => some .name
  | _ => readUnit 0 t

def readOperator (groups : Nat) (t : Token) : Option Outline :=
  match t.kind.operator?, groups with
  | some _, groups => some (.unit groups)
  | none, groups + 1 => if t.kind = .rightParen then some (.operator groups) else none
  | none, 0 => readEquation t

/-- What is due after the token `t`, if it can be taken. -/
def next (o : Outline) (t : Token) : Option Outline :=
  match o with
  | .equation => readEquation t
  | .name =>
    match t.kind with
    | .word => some .name
    | .equal => some (.unit 0)
    | _ => none
  | .unit groups => readUnit groups t
  | .number groups => if t.kind = .integer then some (.operator groups) else none
  | .integer groups =>
    if t.kind = .dice then some (afterDice groups t) else readOperator groups t
  | .operator groups => readOperator groups t

/-- The tokens can be taken one after the other, and the end of the input is the last of them and
no other. -/
def accepts : Outline → List Token → Bool
  | _, [] => false
  | o, t :: ts =>
    match o.next t with
    | none => false
    | some o' => if t.kind = .endOfInput then ts.isEmpty else o'.accepts ts

end Outline

/-! ## Outlines take the reader's steps -/

namespace Stage

variable {d : Draft} {t : Token}

theorem outline_afterDice (count : Int64) :
    (afterDice count t d).outline = Outline.afterDice d.outer.length t := by
  unfold afterDice Outline.afterDice
  split <;> rfl

theorem outline_readUnit :
    (readUnit .unlimited d t).toOption.map outline = Outline.readUnit d.outer.length t := by
  unfold readUnit Outline.readUnit
  cases t.kind
  case dice => exact congrArg some (outline_afterDice 1)
  all_goals rfl

theorem outline_readEquation :
    (readEquation .unlimited t).toOption.map outline = Outline.readEquation t := by
  by_cases hend : t.kind = .endOfInput
  · simp [readEquation, Outline.readEquation, hend, Except.toOption, outline]
  · by_cases hword : t.kind = .word
    · simp [readEquation, Outline.readEquation, hword, Except.toOption, outline]
    · have hunit : Outline.readEquation t = Outline.readUnit 0 t := by
        simp only [Outline.readEquation]
      rw [readEquation_eq_readUnit hend hword, outline_readUnit, hunit]
      rfl

theorem outline_readOperator (operand : Term) :
    (readOperator .unlimited operand d t).toOption.map outline =
      Outline.readOperator d.outer.length t := by
  cases ho : t.kind.operator? with
  | some op => simp [readOperator_operator ho, Outline.readOperator, ho, Except.toOption, outline,
      Draft.withOperator]
  | none =>
    cases hd : d.outer with
    | nil => simpa [readOperator, Outline.readOperator, ho, hd] using outline_readEquation
    | cons level outer =>
      simp only [readOperator, Outline.readOperator, ho, hd, List.length_cons]
      split <;> rfl

theorem outline_next (stage : Stage) (t : Token) :
    (stage.next .unlimited t).toOption.map outline = stage.outline.next t := by
  cases stage with
  | equation => exact outline_readEquation
  | name words =>
    simp only [next, outline, Outline.next]
    cases t.kind <;> rfl
  | unit d => exact outline_readUnit
  | signed negative d =>
    simp only [next, outline, Outline.next]
    cases t.kind <;> rfl
  | faces count d =>
    simp only [next, outline, Outline.next]
    cases t.kind <;> rfl
  | integer value d =>
    simp only [next, outline, Outline.next]
    split
    next ht => simp [ht, Except.toOption, outline_afterDice]
    next ht => rw [if_neg ht, outline_readOperator]
  | operator operand d => exact outline_readOperator operand

theorem outline_next_of_ok {stage next : Stage} (h : stage.next .unlimited t = .ok next) :
    stage.outline.next t = some next.outline := by
  rw [← outline_next, h]
  rfl

theorem outline_next_of_error {stage : Stage} {e : SyntaxError}
    (h : stage.next .unlimited t = .error e) : stage.outline.next t = none := by
  rw [← outline_next, h]
  rfl

theorem next_of_outline {stage : Stage} {o : Outline} (h : stage.outline.next t = some o) :
    ∃ next, stage.next .unlimited t = .ok next ∧ next.outline = o := by
  rw [← outline_next] at h
  cases hn : stage.next .unlimited t with
  | error e => simp [hn, Except.toOption] at h
  | ok next => exact ⟨next, rfl, by simpa [hn, Except.toOption] using h⟩

end Stage

namespace Outline

variable {o o' : Outline} {t : Token} {ts before after : List Token} {groups : Nat}

theorem accepts_cons : o.accepts (t :: ts) = true ↔ ∃ o', o.next t = some o' ∧
    (if t.kind = .endOfInput then ts = [] else o'.accepts ts = true) := by
  cases ho : o.next t with
  | none => simp [accepts, ho]
  | some o' =>
    simp only [accepts, ho, Option.some.injEq, exists_eq_left']
    split <;> simp

/-- What an outline accepts, the reader reads from any stage with that outline. -/
theorem run_of_accepts (stage : Stage) (done : List Equation)
    (h : stage.outline.accepts ts = true) :
    Terminated ts ∧ ∃ r, Reading.run .unlimited ⟨done, stage⟩ ts = .ok r := by
  induction ts generalizing stage done with
  | nil => simp [accepts] at h
  | cons t ts ih =>
    obtain ⟨o, ho, h⟩ := accepts_cons.1 h
    obtain ⟨next, hn, rfl⟩ := Stage.next_of_outline ho
    split at h
    next ht =>
      subst h
      exact ⟨.last ht, _, Reading.run_cons_eq_ok_iff.2 ⟨next, hn, rfl⟩⟩
    next ht =>
      obtain ⟨hts, r, hr⟩ := ih next ((stage.completed t).toList ++ done) h
      exact ⟨.cons ht hts, r, Reading.run_cons_eq_ok_iff.2 ⟨next, hn, hr⟩⟩

theorem accepts_of_next (hn : o.next t = some o') (ht : t.kind ≠ .endOfInput)
    (h : o'.accepts ts = true) : o.accepts (t :: ts) = true :=
  accepts_cons.2 ⟨o', hn, by rwa [if_neg ht]⟩

/-! ## Going on loses nothing -/

theorem operator_next_dice (ht : t.kind = .dice) (h : (operator groups).next t = some o) :
    o = afterDice groups t := by
  cases groups <;>
    simp_all [next, readOperator, Kind.operator?, readEquation, readUnit]

/-- What may follow a unit may follow an integer that could be a count. -/
theorem accepts_of_operator (h : (operator groups).accepts ts = true) :
    (integer groups).accepts ts = true := by
  cases ts with
  | nil => simp [accepts] at h
  | cons t ts =>
    obtain ⟨o, ho, h⟩ := accepts_cons.1 h
    refine accepts_cons.2 ⟨o, ?_, h⟩
    by_cases ht : t.kind = .dice
    · simp [next, ht, operator_next_dice ht ho]
    · simpa [next, ht] using ho

theorem accepts_of_number (h : (number groups).accepts ts = true) :
    (unit groups).accepts ts = true := by
  cases ts with
  | nil => simp [accepts] at h
  | cons t ts =>
    obtain ⟨o, ho, h⟩ := accepts_cons.1 h
    simp only [next] at ho
    split at ho
    next ht =>
      cases ho
      simp only [ht, reduceCtorEq, if_false] at h
      exact accepts_of_next (by simp [next, readUnit, ht]) (by simp [ht]) (accepts_of_operator h)
    next => cases ho

/-- What may start an equation may follow a unit outside all groups: a sign goes on with the sum,
any other token ends the equation. -/
theorem accepts_of_equation (h : equation.accepts ts = true) :
    (operator 0).accepts ts = true := by
  cases ts with
  | nil => simp [accepts] at h
  | cons t ts =>
    obtain ⟨o, ho, h⟩ := accepts_cons.1 h
    cases hop : t.kind.operator? with
    | none => exact accepts_cons.2 ⟨o, by simpa [next, readOperator, hop] using ho, h⟩
    | some op =>
      have hs : t.kind ≠ .endOfInput ∧ o = .number 0 := by
        rcases Kind.operator?_eq_some hop with ⟨hk, -⟩ | ⟨hk, -⟩ | ⟨hk, -⟩ | ⟨hk, -⟩ | ⟨hk, -⟩ <;>
          simp_all [next, readEquation, readUnit]
      obtain ⟨ht, rfl⟩ := hs
      rw [if_neg ht] at h
      exact accepts_of_next (by simp [next, readOperator, hop]) ht (accepts_of_number h)

theorem accepts_of_unit (h : (unit 0).accepts ts = true) : equation.accepts ts = true := by
  cases ts with
  | nil => simp [accepts] at h
  | cons t ts =>
    obtain ⟨o, ho, h⟩ := accepts_cons.1 h
    refine accepts_cons.2 ⟨o, ?_, h⟩
    simp only [next, readEquation]
    split
    next ht => simp [next, readUnit, ht] at ho
    next ht => simp [next, readUnit, ht] at ho
    next => exact ho

end Outline

/-! ## Every derivation is accepted -/

/-- What is due where the phrase starts. -/
def Phrase.outline (groups : Nat) : Phrase → Outline
  | .addends _ | .factors _ | .exponent _ => .operator groups
  | _ => .unit groups

open Outline

theorem Faces.accepts {input rest : List Token} {faces : Int64} (h : Faces input rest faces)
    {groups : Nat} (ha : (operator groups).accepts rest = true) : ∃ d ts, input = d :: ts ∧
      d.kind = .dice ∧ (afterDice groups d).accepts ts = true := by
  cases h with
  | fused hd hf => exact ⟨_, _, rfl, hd, by simpa [afterDice, hf] using ha⟩
  | apart hd hf hn =>
    refine ⟨_, _, rfl, hd, ?_⟩
    simp only [afterDice, hf, Bool.false_eq_true, if_false]
    exact accepts_of_next (by simp [next, hn]) (by simp [hn]) ha

/-- If what follows a phrase is accepted behind it, the phrase is accepted before it. -/
theorem Derives.accepts {policy : Policy} {phrase : Phrase} {input rest : List Token} {t : Term}
    (h : Derives policy phrase input rest t) : ∀ {groups : Nat},
      (operator groups).accepts rest = true → (phrase.outline groups).accepts input = true := by
  induction h with
  | dice hf =>
    intro groups ha
    obtain ⟨d, ts, rfl, hd, ha⟩ := hf.accepts ha
    exact accepts_of_next (by simp [Phrase.outline, next, readUnit, hd]) (by simp [hd]) ha
  | integer hn =>
    intro groups ha
    exact accepts_of_next (by simp [Phrase.outline, next, readUnit, hn]) (by simp [hn])
      (accepts_of_operator ha)
  | counted hn hf =>
    intro groups ha
    obtain ⟨d, ts, rfl, hd, ha⟩ := hf.accepts ha
    have hi : (Outline.integer groups).accepts (d :: ts) = true :=
      accepts_of_next (by simp [next, hd]) (by simp [hd]) ha
    exact accepts_of_next (by simp [Phrase.outline, next, readUnit, hn]) (by simp [hn]) hi
  | @positive s n rest hs hn | @negative s n rest hs hn =>
    intro groups ha
    have hi : (number groups).accepts (n :: rest) = true :=
      accepts_of_next (by simp [next, hn]) (by simp [hn]) ha
    exact accepts_of_next (by simp [Phrase.outline, next, readUnit, hs]) (by simp [hs]) hi
  | group hl _ hr ih =>
    intro groups ha
    have hc : (Outline.unit (groups + 1)).accepts _ = true :=
      ih (accepts_of_next (by simp [next, readOperator, hr, Kind.operator?]) (by simp [hr]) ha)
    exact accepts_of_next (by simp [Phrase.outline, next, readUnit, hl]) (by simp [hl]) hc
  | addition _ _ ih₁ ih₂ | multiplication _ _ ih₁ ih₂ | exponentiation _ _ ih₁ ih₂ =>
    intro groups ha
    exact ih₁ (ih₂ ha)
  | addends_end | factors_end | exponent_end => exact id
  | addends_more hs ho _ _ ih₁ ih₂ | factors_more hs ho _ _ ih₁ ih₂ =>
    intro groups ha
    exact accepts_of_next (by simp [Phrase.outline, next, readOperator, ho])
      (by intro hk; simp [hk] at hs) (ih₁ (ih₂ ha))
  | exponent_more hs _ ih =>
    intro groups ha
    exact accepts_of_next (by simp [Phrase.outline, next, readOperator, hs, Kind.operator?])
      (by simp [hs]) (ih ha)

theorem Names.accepts {input rest : List Token} {name : String} (h : Names input rest name)
    (ha : (unit 0).accepts rest = true) : equation.accepts input = true := by
  cases h with
  | unnamed => exact accepts_of_unit ha
  | @named first more e _ hw he =>
    have hm : Outline.name.accepts (more ++ e :: rest) = true := by
      replace hw : ∀ w ∈ more, w.kind = .word := fun w h => hw w (by simp [h])
      induction more with
      | nil => exact accepts_of_next (by simp [next, he]) (by simp [he]) ha
      | cons w more ih =>
        have hk := hw w (by simp)
        exact accepts_of_next (by simp [next, hk]) (by simp [hk]) (ih fun v h => hw v (by simp [h]))
    have hk := hw first (by simp)
    exact accepts_of_next (by simp [next, readEquation, hk]) (by simp [hk]) hm

theorem Spells.accepts {policy : Policy} {tokens : List Token} {es : List Equation}
    (h : Spells policy tokens es) : equation.accepts tokens = true := by
  induction h with
  | nil ht => exact accepts_cons.2 ⟨.equation, by simp [next, readEquation, ht], by simp [ht]⟩
  | cons hn hd _ ih => exact hn.accepts (hd.accepts (accepts_of_equation ih))

/-- What is accepted has a derivation, and a greedy one. -/
theorem Outline.spells_of_accepts {tokens : List Token} (h : equation.accepts tokens = true) :
    ∃ es, Spells .greedy tokens es := by
  obtain ⟨ht, r, hr⟩ := run_of_accepts .equation [] h
  exact ⟨r.done.reverse, (ofTokens_unlimited_iff ht).1 (Formula.ofTokens_eq_ok_iff.2 ⟨r, hr, rfl⟩)⟩

/-- **The outline machine recognises the language of the grammar.** -/
theorem sentence_iff_accepts {tokens : List Token} :
    Sentence tokens ↔ equation.accepts tokens = true := by
  refine ⟨fun h => ?_, fun h => ?_⟩
  · obtain ⟨es, h⟩ := h
    exact h.accepts
  · obtain ⟨es, hg⟩ := spells_of_accepts h
    exact ⟨es, hg.free⟩

end DiceNotation
