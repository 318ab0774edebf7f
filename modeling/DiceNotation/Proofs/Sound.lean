/-
What the reader can produce. Every number in it was read from digits and may
have had a sign, every name was put together from words, and every operator was
counted. The invariant holds of the equation being read, its waiting operands
included (`Draft.Sound`); a step keeps it (`Stage.next_sound`) and completes no
equation without it (`Stage.completed_sound`), so it holds of all that is read
(`Formula.sound_of_parse`).
-/
import DiceNotation.Proofs.Rereading

namespace DiceNotation

/-! ## Numbers -/

/-- The opposite of a number that is not negative is in range. -/
theorem toInt_neg_of_nonneg {x : Int64} (h : 0 ≤ x) : (-x).toInt = -x.toInt := by
  have hx : 0 ≤ x.toInt := Int64.le_iff_toInt_le.1 h
  have hlt : x.toInt < 2 ^ 63 := x.toInt_lt
  have hn : x = .ofNat x.toInt.toNat := by
    rw [← Int64.ofInt_eq_ofNat, Int.toNat_of_nonneg hx, Int64.ofInt_toInt]
  have hneg : (-x).toInt = -(x.toInt.toNat : Int) := by
    rw [← Int64.toInt_neg_ofNat_of_le (by omega), ← hn]
  rw [hneg, Int.toNat_of_nonneg hx]

theorem minValue_lt_neg {x : Int64} (h : 0 ≤ x) : Int64.minValue < -x := by
  have hlt : x.toInt < 2 ^ 63 := x.toInt_lt
  have hmin : Int64.minValue.toInt = -2 ^ 63 := by decide
  rw [Int64.lt_iff_toInt_lt, toInt_neg_of_nonneg h]
  omega

/-! ## Levels -/

/-- How many operators there are in `operands` that each wait beside an operator, with these. -/
def Term.operatorsIn : (operands : List Term) → Nat
  | [] => 0
  | t :: ts => t.operators + 1 + operatorsIn ts

theorem Term.operatorsIn_append (ts us : List Term) :
    operatorsIn (ts ++ us) = operatorsIn ts + operatorsIn us := by
  induction ts with
  | nil => rw [List.nil_append, operatorsIn, Nat.zero_add]
  | cons t ts ih =>
    rw [List.cons_append, operatorsIn, operatorsIn, ih]
    omega

namespace Level

/-- The operands that wait for their right ones. -/
def operands (l : Level) : List Term :=
  l.powers ++ (l.product.toList ++ l.sum.toList).map Prod.fst

/-- All that waits at the level can be written. -/
def Spellable (l : Level) : Prop := ∀ u ∈ l.operands, u.Spellable

/-- How many operators have been read at the level. -/
def operators (l : Level) : Nat := Term.operatorsIn l.operands

/-- How many operators have been read in `levels`. -/
def operatorsIn : (levels : List Level) → Nat
  | [] => 0
  | level :: levels => level.operators + operatorsIn levels

variable {l : Level} {t : Term} {op : Operator} {waiting : Option (Term × Operator)}

theorem joined_operators : (joined waiting t).operators =
    t.operators + Term.operatorsIn (waiting.toList.map Prod.fst) := by
  cases waiting with
  | none => rfl
  | some w =>
    simp only [joined, Term.operators, Term.operatorsIn, Option.toList_some, List.map_singleton]
    omega

theorem joined_spellable (hw : ∀ u ∈ waiting.toList.map Prod.fst, u.Spellable) (ht : t.Spellable) :
    (joined waiting t).Spellable := by
  cases waiting with
  | none => exact ht
  | some w => exact ⟨hw w.1 (by simp), ht⟩

theorem powers_operators (powers : List Term) :
    (powers.foldl (fun right left => .binary left .pow right) t).operators =
      t.operators + Term.operatorsIn powers := by
  induction powers generalizing t with
  | nil => rfl
  | cons left powers ih =>
    rw [List.foldl_cons, ih, Term.operators, Term.operatorsIn]
    omega

theorem powers_spellable {powers : List Term} (hp : ∀ u ∈ powers, u.Spellable) (ht : t.Spellable) :
    (powers.foldl (fun right left => .binary left .pow right) t).Spellable := by
  induction powers generalizing t with
  | nil => exact ht
  | cons left powers ih =>
    exact ih (fun u hu => hp u (by simp [hu])) ⟨hp left (by simp), ht⟩

theorem operators_eq : l.operators = Term.operatorsIn l.powers +
    (Term.operatorsIn (l.product.toList.map Prod.fst) +
      Term.operatorsIn (l.sum.toList.map Prod.fst)) := by
  rw [operators, operands, List.map_append, Term.operatorsIn_append, Term.operatorsIn_append]

theorem exponentiation_operators : (l.exponentiation t).operators = t.operators + l.operators := by
  rw [exponentiation, powers_operators, multiplication, joined_operators, addition,
    joined_operators, operators_eq]
  omega

theorem waiting_operators : (l.waiting t op).operators = t.operators + 1 + l.operators := by
  cases op <;>
    simp only [operators_eq, Level.waiting, multiplication, addition, joined_operators,
      Option.toList_some, Option.toList_none, List.map_singleton, List.map_nil,
      Term.operatorsIn] <;>
    omega

theorem spellable_iff : l.Spellable ↔ (∀ u ∈ l.powers, u.Spellable) ∧
    (∀ u ∈ l.product.toList.map Prod.fst, u.Spellable) ∧
      ∀ u ∈ l.sum.toList.map Prod.fst, u.Spellable := by
  rw [Spellable, operands, List.forall_mem_append, List.map_append, List.forall_mem_append]

theorem multiplication_spellable (hl : l.Spellable) (ht : t.Spellable) :
    (l.multiplication t).Spellable := by
  obtain ⟨-, hp, hs⟩ := spellable_iff.1 hl
  exact joined_spellable hp (joined_spellable hs ht)

theorem exponentiation_spellable (hl : l.Spellable) (ht : t.Spellable) :
    (l.exponentiation t).Spellable :=
  powers_spellable (spellable_iff.1 hl).1 (multiplication_spellable hl ht)

theorem waiting_spellable (hl : l.Spellable) (ht : t.Spellable) : (l.waiting t op).Spellable := by
  obtain ⟨hpow, hp, hs⟩ := spellable_iff.1 hl
  have hadd : ∀ u ∈ [l.addition t], u.Spellable :=
    List.forall_mem_singleton.2 (joined_spellable hs ht)
  have hmul : ∀ u ∈ [l.multiplication t], u.Spellable :=
    List.forall_mem_singleton.2 (multiplication_spellable hl ht)
  rw [spellable_iff]
  cases op with
  | add | sub => exact ⟨hpow, hp, hadd⟩
  | mul | div => exact ⟨hpow, hmul, nofun⟩
  | pow => exact ⟨List.forall_mem_append.2 ⟨hmul, hpow⟩, nofun, nofun⟩

theorem empty_spellable : Level.empty.Spellable := nofun

end Level

/-! ## The invariant -/

/-- With `count` operators in the operand just read, all that the draft holds can be written, and
its operators are counted and no more than `most`. -/
structure Draft.Sound (most : Nat) (d : Draft) (count : Nat) : Prop where
  name : IsName d.name
  levels : ∀ l ∈ d.level :: d.outer, l.Spellable
  counted : d.operators = count + Level.operatorsIn (d.level :: d.outer)
  most : d.operators ≤ most

/-- The numbers, names and operands that the stage holds can be written. -/
def Stage.Sound (most : Nat) : Stage → Prop
  | .equation => True
  | .name words => words ≠ [] ∧ ∀ w ∈ words, LexesAsWord w
  | .unit d | .signed _ d => d.Sound most 0
  | .faces count d => 0 ≤ count ∧ d.Sound most 0
  | .integer value d => 0 ≤ value ∧ d.Sound most 0
  | .operator operand d => operand.Spellable ∧ d.Sound most operand.operators

/-- The equation can be written, and has no more than `most` operators. -/
def Equation.Sound (most : Nat) (e : Equation) : Prop := e.Spellable ∧ e.term.operators ≤ most

namespace Draft

variable {most nesting : Nat} {d : Draft} {operand : Term}

theorem named_sound {name : String} (hn : IsName name) : (named name).Sound most 0 where
  name := hn
  levels := List.forall_mem_singleton.2 Level.empty_spellable
  counted := rfl
  most := Nat.zero_le most

theorem openGroup_sound (h : d.Sound most 0) : d.openGroup.Sound most 0 where
  name := h.name
  levels := List.forall_mem_cons.2 ⟨Level.empty_spellable, h.levels⟩
  counted := by
    have hc := h.counted
    have hempty : Level.empty.operators = 0 := rfl
    rw [openGroup, Level.operatorsIn, hempty, Nat.zero_add]
    exact hc
  most := h.most

theorem closeGroup_sound {level : Level} {outer : List Level}
    (h : d.Sound most operand.operators) (hd : d.outer = level :: outer) :
    Draft.Sound most { d with level, outer } (d.level.exponentiation operand).operators where
  name := h.name
  levels := fun l hl => h.levels l (List.mem_cons_of_mem d.level (hd ▸ hl))
  counted := by
    have hc := h.counted
    rw [hd, Level.operatorsIn] at hc
    rw [Level.exponentiation_operators]
    dsimp only
    omega
  most := h.most

theorem withOperator_sound {op : Operator} (ht : operand.Spellable)
    (h : d.Sound most operand.operators) (hlt : d.operators < most) :
    (d.withOperator (d.level.waiting operand op)).Sound most 0 where
  name := h.name
  levels := by
    obtain ⟨hl, houter⟩ := List.forall_mem_cons.1 h.levels
    exact List.forall_mem_cons.2 ⟨Level.waiting_spellable hl ht, houter⟩
  counted := by
    have hc := h.counted
    rw [Level.operatorsIn] at hc
    rw [withOperator, Level.operatorsIn, Level.waiting_operators]
    dsimp only
    omega
  most := hlt

theorem completed_sound {t : Token} {e : Equation} (ht : operand.Spellable)
    (h : d.Sound most operand.operators) (he : e ∈ d.completed operand t) : e.Sound most := by
  unfold completed at he
  split at he
  next hcond =>
    cases he
    have hc := h.counted
    have hle := h.most
    rw [hcond.2, Level.operatorsIn, Level.operatorsIn] at hc
    refine ⟨⟨h.name, Level.exponentiation_spellable (h.levels _ List.mem_cons_self) ht⟩, ?_⟩
    rw [Level.exponentiation_operators]
    omega
  next => cases he

end Draft

namespace Stage

variable {most nesting : Nat} {d : Draft} {t : Token} {stage stage' : Stage}

theorem afterDice_sound {count : Int64} (hc : 0 ≤ count) (h : d.Sound most 0) :
    (afterDice count t d).Sound most := by
  unfold afterDice
  split
  · exact ⟨⟨hc, t.int_nonneg⟩, h⟩
  · exact ⟨hc, h⟩

theorem readUnit_sound (h : d.Sound most 0)
    (hn : readUnit (.atMost nesting most) d t = .ok stage) : stage.Sound most := by
  unfold readUnit at hn
  split at hn
  next =>
    cases hn
    exact afterDice_sound (by decide) h
  next =>
    cases hn
    exact ⟨t.int_nonneg, h⟩
  next =>
    cases hn
    exact h
  next =>
    cases hn
    exact h
  next =>
    obtain ⟨-, hn⟩ := check_bind_eq_ok_iff.1 hn
    cases hn
    exact d.openGroup_sound h
  next => cases hn

theorem readEquation_sound (hw : t.kind = .word → LexesAsWord t.text)
    (hn : readEquation (.atMost nesting most) t = .ok stage) : stage.Sound most := by
  unfold readEquation at hn
  split at hn
  next =>
    cases hn
    trivial
  next hk =>
    cases hn
    exact ⟨List.cons_ne_nil _ _, List.forall_mem_singleton.2 (hw hk)⟩
  next => exact readUnit_sound (Draft.named_sound (.inl rfl)) hn

theorem readOperator_sound {operand : Term} (ht : operand.Spellable)
    (h : d.Sound most operand.operators) (hw : t.kind = .word → LexesAsWord t.text)
    (hn : readOperator (.atMost nesting most) operand d t = .ok stage) : stage.Sound most := by
  cases ho : t.kind.operator? with
  | some op =>
    obtain ⟨⟨-, hlt⟩, rfl⟩ := (readOperator_eq_ok_iff ho).1 hn
    exact d.withOperator_sound ht h hlt
  | none =>
    simp only [readOperator, ho] at hn
    split at hn
    next level outer hd =>
      split at hn
      · cases hn
        have hspell := Level.exponentiation_spellable (h.levels _ List.mem_cons_self) ht
        exact ⟨hspell, d.closeGroup_sound h hd⟩
      · cases hn
    next => exact readEquation_sound hw hn

/-- **A step keeps the invariant.** -/
theorem next_sound (h : stage.Sound most) (hw : t.kind = .word → LexesAsWord t.text)
    (hn : stage.next (.atMost nesting most) t = .ok stage') : stage'.Sound most := by
  cases stage with
  | equation => exact readEquation_sound hw hn
  | name words =>
    obtain ⟨hne, hwords⟩ := h
    simp only [next] at hn
    split at hn
    next hk =>
      cases hn
      exact ⟨List.cons_ne_nil _ _, List.forall_mem_cons.2 ⟨hw hk, hwords⟩⟩
    next =>
      cases hn
      have hname : IsName (" ".intercalate words.reverse) :=
        .inr ⟨words.reverse, by simpa using hne, rfl, by simpa using hwords⟩
      exact Draft.named_sound hname
    next => cases hn
  | unit d => exact readUnit_sound h hn
  | signed negative d =>
    obtain ⟨-, rfl⟩ := signed_next_eq_ok_iff.1 hn
    refine ⟨?_, h⟩
    split
    · exact minValue_lt_neg t.int_nonneg
    · exact minValue_lt_of_nonneg t.int_nonneg
  | faces count d =>
    obtain ⟨hc, hd⟩ := h
    obtain ⟨-, rfl⟩ := faces_next_eq_ok_iff.1 hn
    exact ⟨⟨hc, t.int_nonneg⟩, hd⟩
  | integer value d =>
    obtain ⟨hv, hd⟩ := h
    simp only [next] at hn
    split at hn
    next =>
      cases hn
      exact afterDice_sound hv hd
    next =>
      have hspell : (Term.int value).Spellable := minValue_lt_of_nonneg hv
      exact readOperator_sound hspell hd hw hn
  | operator operand d => exact readOperator_sound h.1 h.2 hw hn

theorem completed_sound {e : Equation} (h : stage.Sound most) (he : e ∈ stage.completed t) :
    e.Sound most := by
  cases stage with
  | equation | name | unit | signed | faces => cases he
  | integer value d =>
    obtain ⟨hv, hd⟩ := h
    simp only [completed] at he
    split at he
    next => cases he
    next =>
      have hspell : (Term.int value).Spellable := minValue_lt_of_nonneg hv
      exact Draft.completed_sound hspell hd he
  | operator operand d => exact Draft.completed_sound h.1 h.2 he

end Stage

/-- A run keeps the invariant, and all that it completes has it. -/
theorem Reading.run_sound {nesting most : Nat} {r r' : Reading} {ts : List Token}
    (hw : ∀ t ∈ ts, t.kind = .word → LexesAsWord t.text) (hs : r.stage.Sound most)
    (hd : ∀ e ∈ r.done, e.Sound most) (h : run (.atMost nesting most) r ts = .ok r') :
    ∀ e ∈ r'.done, e.Sound most := by
  induction ts generalizing r with
  | nil =>
    cases h
    exact hd
  | cons t ts ih =>
    obtain ⟨stage, hn, hr⟩ := run_cons_eq_ok_iff.1 h
    have hstage : stage.Sound most := Stage.next_sound hs (hw t (by simp)) hn
    have hdone : ∀ e ∈ (r.stage.completed t).toList ++ r.done, e.Sound most := by
      rw [List.forall_mem_append]
      exact ⟨fun e he => Stage.completed_sound hs (Option.mem_toList.1 he), hd⟩
    exact ih (fun u hu => hw u (by simp [hu])) hstage hdone hr

/-- **All that is read can be written.** -/
theorem Formula.sound_of_parse {s : Source} {f : Formula} (h : Formula.parse s = .ok f) :
    ∀ e ∈ f.equations, e.Sound 1000 := by
  obtain ⟨r, hr, hf⟩ := Formula.ofTokens_eq_ok_iff.1 h
  have hw : ∀ t ∈ s.tokens, t.kind = .word → LexesAsWord t.text :=
    fun t ht hk => lexesAsWord_iff.2 (Lexer.isWord_of_mem _ t ht hk)
  have hrun : Reading.run (.atMost 64 1000) .start s.tokens = .ok r := hr
  have hstart : Reading.start.stage.Sound 1000 := trivial
  have hnone : ∀ e ∈ Reading.start.done, e.Sound 1000 := List.forall_mem_nil _
  have hdone : ∀ e ∈ r.done, e.Sound 1000 := Reading.run_sound hw hstart hnone hrun
  simpa [hf] using hdone

end DiceNotation
