/-
What the reader makes of the tokens of a written formula. A term is read as it
is, one step for each token, exactly if it fits inside the limits
(`run_term`): every operator and every negative number takes a level for its
parentheses, and the right operand of a power one more, since the reader is
still inside the power there. A written formula is read as it is exactly if
each of its terms fits inside the limits (`run_written`).
-/
import DiceNotation.Proofs.Printed

namespace DiceNotation

namespace Term

/-- How many operators the term holds. -/
def operators : Term → Nat
  | .int _ | .dice _ _ => 0
  | .binary left _ right => left.operators + right.operators + 1

/-- How many levels its written form takes when it is read. -/
def nest : Term → Nat
  | .int value => if value < 0 then 1 else 0
  | .dice _ _ => 0
  | .binary left op right => 1 + max left.nest (if op = .pow then 1 + right.nest else right.nest)

end Term

/-- At most so many levels and so many operators. -/
def Limits.atMost (nesting operators : Nat) : Limits := ⟨some nesting, some operators⟩

/-- The draft with so many more operators read. -/
def Draft.counting (d : Draft) (operators : Nat) : Draft :=
  { d with operators := d.operators + operators }

variable {nesting operators : Nat} {t : Token} {d : Draft}

theorem Limits.checkNesting_eq_ok_iff {depth : Nat} :
    (atMost nesting operators).checkNesting depth t = .ok () ↔ depth < nesting := by
  by_cases h : depth < nesting <;> simp [checkNesting, atMost, h]

theorem Limits.checkOperators_eq_ok_iff {count : Nat} :
    (atMost nesting operators).checkOperators count t = .ok () ↔ count < operators := by
  by_cases h : count < operators <;> simp [checkOperators, atMost, h]

theorem check_bind_eq_ok_iff {x : Except ε Unit} {y : Except ε β} {b : β} :
    (x >>= fun _ => y) = .ok b ↔ x = .ok () ∧ y = .ok b := by
  cases x <;> simp [bind, Except.bind]

/-- An operator is taken if it fits inside the limits. -/
theorem Stage.readOperator_eq_ok_iff {operand : Term} {op : Operator} {stage : Stage}
    (ho : t.kind.operator? = some op) :
    readOperator (.atMost nesting operators) operand d t = .ok stage ↔
      ((op = .pow → d.depth < nesting) ∧ d.operators < operators) ∧
        stage = .unit (d.withOperator (d.level.waiting operand op)) := by
  rw [readOperator, ho]
  dsimp only
  by_cases hop : op = .pow
  · rw [if_pos hop, check_bind_eq_ok_iff, check_bind_eq_ok_iff, Limits.checkNesting_eq_ok_iff,
      Limits.checkOperators_eq_ok_iff]
    simp [hop, pure, Except.pure, and_assoc, eq_comm]
  · rw [if_neg hop, check_bind_eq_ok_iff, Limits.checkOperators_eq_ok_iff]
    simp [hop, pure, Except.pure, eq_comm]

/-! ## Depths -/

theorem Draft.depth_openGroup : d.openGroup.depth = d.depth + 1 := by
  simp [depth, openGroup, powersIn, Level.empty]
  omega

/-- The draft in front of the right operand of a written operator: a group is open, and `left` waits
in it beside the operator. -/
def Draft.afterLeft (d : Draft) (left : Term) (op : Operator) : Draft :=
  (d.openGroup.counting left.operators).withOperator (Level.empty.waiting left op)

theorem Draft.depth_afterLeft {left : Term} {op : Operator} :
    (d.afterLeft left op).depth = d.depth + 1 + if op = .pow then 1 else 0 := by
  have hopen : d.openGroup.depth = d.depth + 1 := depth_openGroup
  rw [← hopen]
  cases op <;> simp [depth, afterLeft, withOperator, counting, openGroup, powersIn, Level.waiting,
    Level.empty]
  omega

/-- It fits exactly if the group does, and for a power the power in it. -/
theorem Draft.depth_afterLeft_le_iff {left : Term} {op : Operator} :
    (d.afterLeft left op).depth ≤ nesting ↔
      d.depth < nesting ∧ (op = .pow → (d.openGroup.counting left.operators).depth < nesting) := by
  have hopen : (d.openGroup.counting left.operators).depth = d.depth + 1 := depth_openGroup
  rw [depth_afterLeft, hopen]
  by_cases hop : op = .pow
  · rw [if_pos hop]
    exact ⟨fun h => ⟨by omega, fun _ => h⟩, fun h => h.2 hop⟩
  · rw [if_neg hop]
    exact ⟨fun h => ⟨h, fun h' => absurd h' hop⟩, fun h => h.1⟩

theorem Draft.afterLeft_closed {left right : Term} {op : Operator} :
    Stage.operator (((d.afterLeft left op).counting right.operators).level.exponentiation right)
        { (d.afterLeft left op).counting right.operators with level := d.level, outer := d.outer } =
      .operator (.binary left op right) (d.counting (Term.binary left op right).operators) := by
  have hterm : ((d.afterLeft left op).counting right.operators).level.exponentiation right =
      .binary left op right := by cases op <;> rfl
  have hsum : d.operators + left.operators + 1 + right.operators =
      d.operators + (left.operators + right.operators + 1) := by omega
  rw [hterm]
  exact congrArg (fun k => Stage.operator (.binary left op right) { d with operators := k }) hsum

/-! ## Single tokens -/

namespace Reading

variable {limits : Limits} {ts : List Token} {done : List Equation} {r : Reading}
  {stage stage' : Stage}

theorem run_cons_of_ok (hc : stage.completed t = none) (hn : stage.next limits t = .ok stage') :
    run limits ⟨done, stage⟩ (t :: ts) = run limits ⟨done, stage'⟩ ts := by
  rw [run_cons, step, hn, hc]
  rfl

/-- A token that is taken only under a condition. -/
theorem run_cons_iff_of_next {p : Prop} (hc : stage.completed t = none)
    (hn : ∀ s, stage.next limits t = .ok s ↔ p ∧ s = stage') :
    run limits ⟨done, stage⟩ (t :: ts) = .ok r ↔ p ∧ run limits ⟨done, stage'⟩ ts = .ok r := by
  rw [run_cons_eq_ok_iff, hc]
  refine ⟨fun h => ?_, fun h => ?_⟩
  · obtain ⟨s, hs, hr⟩ := h
    obtain ⟨hp, rfl⟩ := (hn s).1 hs
    exact ⟨hp, hr⟩
  · exact ⟨stage', (hn stage').2 ⟨h.1, rfl⟩, h.2⟩

theorem run_leftParen : run (.atMost nesting operators) ⟨done, .unit d⟩ (.sign '(' :: ts) = .ok r ↔
    d.depth < nesting ∧
      run (.atMost nesting operators) ⟨done, .unit d.openGroup⟩ ts = .ok r := by
  refine run_cons_iff_of_next rfl fun s => ?_
  have hn : (Stage.unit d).next (.atMost nesting operators) (.sign '(') =
      ((Limits.atMost nesting operators).checkNesting d.depth (.sign '(') >>=
        fun _ => .ok (.unit d.openGroup)) := rfl
  rw [hn, check_bind_eq_ok_iff, Limits.checkNesting_eq_ok_iff, Except.ok.injEq]
  exact and_congr_right fun _ => eq_comm

theorem run_rightParen {operand : Term} {level : Level} {outer : List Level}
    (h : d.outer = level :: outer) :
    run limits ⟨done, .operator operand d⟩ (.sign ')' :: ts) =
      run limits ⟨done, .operator (d.level.exponentiation operand) { d with level, outer }⟩ ts := by
  have hk : (Token.sign ')').kind.operator? = none := rfl
  refine run_cons_of_ok ?_ ?_
  · simp [Stage.completed, Draft.completed, h]
  · simp [Stage.next, Stage.readOperator, hk, h]
    rfl

theorem run_operator {operand : Term} {op : Operator} :
    run (.atMost nesting operators) ⟨done, .operator operand d⟩ (.sign op.sign :: ts) = .ok r ↔
      ((op = .pow → d.depth < nesting) ∧ d.operators < operators) ∧
        run (.atMost nesting operators)
          ⟨done, .unit (d.withOperator (d.level.waiting operand op))⟩ ts = .ok r := by
  have hk : (Token.sign op.sign).kind.operator? = some op := by cases op <;> rfl
  have hc : (Stage.operator operand d).completed (.sign op.sign) = none := by
    simp [Stage.completed, Draft.completed, hk]
  exact run_cons_iff_of_next hc fun s => Stage.readOperator_eq_ok_iff hk

theorem run_integer {n : Token} {value : Int64} (ht : t.kind = .integer) (hv : t.int = value)
    (hn : n.kind ≠ .dice) :
    run limits ⟨done, .unit d⟩ (t :: n :: ts) =
      run limits ⟨done, .operator (.int value) d⟩ (n :: ts) := by
  have hunit : (Stage.unit d).next limits t = .ok (.integer value d) := by
    simp [Stage.next, Stage.readUnit, ht, hv]
  have hc : (Stage.integer value d).completed n = (Stage.operator (.int value) d).completed n :=
    if_neg hn
  rw [run_cons_of_ok rfl hunit, run_cons, run_cons, step, step, hc, Stage.next_integer hn]
  rfl

/-- A negative number takes a level for its parentheses. -/
theorem run_negative {value : Int64} (hneg : value < 0) (hmin : Int64.minValue < value) :
    run (.atMost nesting operators) ⟨done, .unit d⟩
        (.sign '(' :: .sign '-' :: .plain .integer (digits value) :: .sign ')' :: ts) = .ok r ↔
      d.depth < nesting ∧
        run (.atMost nesting operators) ⟨done, .operator (.int value) d⟩ ts = .ok r := by
  have hsign : (Stage.unit d.openGroup).next (.atMost nesting operators) (.sign '-') =
      .ok (.signed true d.openGroup) := rfl
  have hv : -(Token.plain .integer (digits value)).int = value := neg_int_digits hneg hmin
  have hnumber : (Stage.signed true d.openGroup).next (.atMost nesting operators)
      (.plain .integer (digits value)) = .ok (.operator (.int value) d.openGroup) :=
    Stage.signed_next_eq_ok_iff.2 ⟨rfl, by rw [if_pos rfl, hv]⟩
  rw [run_leftParen, run_cons_of_ok rfl hsign, run_cons_of_ok rfl hnumber, run_rightParen rfl]
  exact Iff.rfl

theorem run_dice {count faces : Int64} (hcount : 0 ≤ count) (hfaces : 0 ≤ faces) :
    run limits ⟨done, .unit d⟩
        (.plain .integer (digits count) :: .plain .dice ('d' :: digits faces) :: ts) =
      run limits ⟨done, .operator (.dice count faces) d⟩ ts := by
  have hv : (Token.plain .integer (digits count)).int = count := int_digits_of_nonneg hcount
  have hcounted : (Stage.unit d).next limits (.plain .integer (digits count)) =
      .ok (.integer count d) :=
    congrArg (fun v => Except.ok (Stage.integer v d)) hv
  have hn : (Stage.integer count d).next limits (.plain .dice ('d' :: digits faces)) =
      .ok (Stage.afterDice count (.plain .dice ('d' :: digits faces)) d) := rfl
  rw [Stage.afterDice, if_pos (hasDigits_dice_digits faces), int_dice_digits hfaces] at hn
  rw [run_cons_of_ok rfl hcounted, run_cons_of_ok rfl hn]

/-- **The reader reads a written term as it is**, exactly if it fits inside the limits. -/
theorem run_term {term : Term} {n : Token} (hs : term.Spellable) (hd : d.depth ≤ nesting)
    (ho : d.operators ≤ operators) (hn : n.kind ≠ .dice) :
    run (.atMost nesting operators) ⟨done, .unit d⟩ (term.tokens ++ n :: ts) = .ok r ↔
      d.depth + term.nest ≤ nesting ∧ d.operators + term.operators ≤ operators ∧
        run (.atMost nesting operators)
          ⟨done, .operator term (d.counting term.operators)⟩ (n :: ts) = .ok r := by
  induction term generalizing d n ts with
  | int value =>
    by_cases hneg : value < 0
    · have hnest : (Term.int value).nest = 1 := if_pos hneg
      rw [Term.tokens, if_pos hneg, hnest]
      simp only [List.cons_append, List.nil_append]
      rw [run_negative hneg hs]
      exact ⟨fun h => ⟨h.1, ho, h.2⟩, fun h => ⟨h.1, h.2.2⟩⟩
    · have hv : (Token.plain .integer (digits value)).int = value :=
        int_digits_of_nonneg (Int64.not_lt.1 hneg)
      have hnest : (Term.int value).nest = 0 := if_neg hneg
      rw [Term.tokens, if_neg hneg, List.singleton_append, run_integer rfl hv hn, hnest]
      exact ⟨fun h => ⟨hd, ho, h⟩, fun h => h.2.2⟩
  | dice count faces =>
    simp only [Term.tokens, List.cons_append, List.nil_append]
    rw [run_dice hs.1 hs.2]
    exact ⟨fun h => ⟨hd, ho, h⟩, fun h => h.2.2⟩
  | binary left op right ihl ihr =>
    obtain ⟨hl, hright⟩ := hs
    have hkind : (Token.sign op.sign).kind ≠ .dice := by cases op <;> decide
    have hts : (Term.binary left op right).tokens ++ n :: ts =
        .sign '(' :: (left.tokens ++ .sign op.sign :: (right.tokens ++ .sign ')' :: n :: ts)) := by
      simp [Term.tokens]
    have hnest : (Term.binary left op right).nest =
        1 + max left.nest ((if op = .pow then 1 else 0) + right.nest) := by
      rw [Term.nest]
      split <;> omega
    have hops : (Term.binary left op right).operators = left.operators + right.operators + 1 := rfl
    have hopen : d.openGroup.depth = d.depth + 1 := Draft.depth_openGroup
    have hopen' : d.openGroup.operators = d.operators := rfl
    have hafter : (d.afterLeft left op).depth = d.depth + 1 + if op = .pow then 1 else 0 :=
      Draft.depth_afterLeft
    have hafter' : (d.afterLeft left op).operators = d.operators + left.operators + 1 := rfl
    -- Each operand is read for itself, once what stands in front of it is known to fit.
    rw [hts, run_leftParen]
    by_cases hdepth : d.depth < nesting
    case neg => exact iff_of_false (fun h => hdepth h.1) fun h => by omega
    have hle : d.openGroup.depth ≤ nesting := by omega
    rw [ihl hl hle ho hkind, run_operator]
    by_cases hfits : (d.afterLeft left op).depth ≤ nesting ∧
        (d.afterLeft left op).operators ≤ operators
    case neg =>
      refine iff_of_false (fun h => hfits ?_) fun h => hfits ⟨by omega, by omega⟩
      obtain ⟨-, -, -, ⟨hpow, hmore⟩, -⟩ := h
      exact ⟨Draft.depth_afterLeft_le_iff.2 ⟨hdepth, hpow⟩, hmore⟩
    have hparen : (Token.sign ')').kind ≠ .dice := by decide
    have hrest := @ihr (d.afterLeft left op) (n :: ts) (.sign ')') hright hfits.1 hfits.2 hparen
    have hpow := (Draft.depth_afterLeft_le_iff.1 hfits.1).2
    rw [run_rightParen rfl, Draft.afterLeft_closed] at hrest
    refine ⟨fun h => ?_, fun h => ?_⟩
    · obtain ⟨-, hnl, hol, -, hr⟩ := h
      obtain ⟨hnr, hor, hr⟩ := hrest.1 hr
      exact ⟨by omega, by omega, hr⟩
    · obtain ⟨hnt, hot, hr⟩ := h
      have hr' := hrest.2 ⟨by omega, by omega, hr⟩
      exact ⟨hdepth, by omega, by omega, ⟨hpow, hfits.2⟩, hr'⟩

/-! ## Equations -/

theorem run_words {words : List String} {more rest : List Token} {e : Token}
    (hm : ∀ w ∈ more, w.kind = .word) (he : e.kind = .equal) :
    run limits ⟨done, .name words⟩ (more ++ e :: rest) =
      run limits
        ⟨done, .unit (.named (" ".intercalate (words.reverse ++ more.map Token.text)))⟩ rest := by
  induction more generalizing words with
  | nil =>
    have hn : (Stage.name words).next limits e =
        .ok (.unit (.named (" ".intercalate words.reverse))) := by
      simp [Stage.next, he]
    rw [List.nil_append, run_cons_of_ok rfl hn, List.map_nil, List.append_nil]
  | cons w more ih =>
    have hw : w.kind = .word := hm w (by simp)
    have hn : (Stage.name words).next limits w = .ok (.name (w.text :: words)) := by
      simp [Stage.next, hw]
    rw [List.cons_append, run_cons_of_ok rfl hn, ih fun v hv => hm v (by simp [hv])]
    simp

theorem run_names {input : List Token} {name : String} (hn : Names input (t :: ts) name)
    (hend : t.kind ≠ .endOfInput) (hword : t.kind ≠ .word) :
    run limits ⟨done, .equation⟩ input = run limits ⟨done, .unit (.named name)⟩ (t :: ts) := by
  generalize hrest : t :: ts = rest at hn
  cases hn with
  | unnamed =>
    subst hrest
    have hnext : Stage.equation.next limits t = (Stage.unit (.named "")).next limits t :=
      Stage.readEquation_eq_readUnit hend hword
    rw [run_cons, run_cons, step, step, hnext]
    rfl
  | named hm he =>
    rename_i first more e
    have hfirst : first.kind = .word := hm first (by simp)
    have hnext : Stage.equation.next limits first = .ok (.name [first.text]) := by
      simp [Stage.next, Stage.readEquation, hfirst]
    rw [run_cons_of_ok rfl hnext, run_words (fun w hw => hm w (by simp [hw])) he]
    rfl

theorem run_stop {operand : Term} (ho : t.kind.operator? = none) (hd : d.outer = []) :
    run limits ⟨done, .operator operand d⟩ (t :: ts) =
      run limits ⟨⟨d.name, d.level.exponentiation operand⟩ :: done, .equation⟩ (t :: ts) := by
  have hnext : (Stage.operator operand d).next limits t = Stage.equation.next limits t := by
    simp only [Stage.next, Stage.readOperator, ho, hd]
  have hc : (Stage.operator operand d).completed t =
      some ⟨d.name, d.level.exponentiation operand⟩ := if_pos ⟨ho, hd⟩
  rw [run_cons, run_cons, step, step, hnext, hc]
  rfl

theorem head_tokens (term : Term) :
    ∃ n ts, term.tokens = n :: ts ∧ (n.kind = .integer ∨ n.kind = .leftParen) := by
  cases term with
  | int value =>
    by_cases hneg : value < 0
    · exact ⟨_, _, if_pos hneg, .inr rfl⟩
    · exact ⟨_, _, if_neg hneg, .inl rfl⟩
  | dice count faces => exact ⟨_, _, rfl, .inl rfl⟩
  | binary left op right => exact ⟨_, _, rfl, .inr rfl⟩

theorem head_names {input : List Token} {name : String} (hn : Names input (t :: ts) name) :
    ∃ n more, input = n :: more ∧ (n = t ∨ n.kind = .word) := by
  generalize hrest : t :: ts = rest at hn
  cases hn with
  | unnamed => exact ⟨t, ts, hrest.symm, .inl rfl⟩
  | named hm he => exact ⟨_, _, rfl, .inr (hm _ List.mem_cons_self)⟩

theorem head_written {tokens : List Token} {es : List Equation} (h : Written tokens es) :
    ∃ n ts, tokens = n :: ts ∧ n.kind ≠ .dice ∧ n.kind.operator? = none := by
  cases h with
  | nil ht => exact ⟨_, _, rfl, by simp [ht], by simp [ht, Kind.operator?]⟩
  | cons hn hw =>
    rename_i rest es e
    obtain ⟨u, us, hts, hu⟩ := head_tokens e.term
    rw [hts, List.cons_append] at hn
    obtain ⟨n, more, rfl, hk⟩ := head_names hn
    have hkind : n.kind = .integer ∨ n.kind = .leftParen ∨ n.kind = .word := by
      rcases hk with rfl | hk
      · rcases hu with hu | hu <;> simp [hu]
      · exact .inr (.inr hk)
    rcases hkind with hk | hk | hk <;>
      exact ⟨n, more, rfl, by simp [hk], by simp [hk, Kind.operator?]⟩

/-- **Written equations are read as they are**, exactly if each term fits inside the limits. -/
theorem run_written {tokens : List Token} {es : List Equation} (h : Written tokens es)
    (hs : ∀ e ∈ es, e.Spellable) :
    run (.atMost nesting operators) ⟨done, .equation⟩ tokens = .ok r ↔
      (∀ e ∈ es, e.term.nest ≤ nesting ∧ e.term.operators ≤ operators) ∧
        r = ⟨es.reverse ++ done, .equation⟩ := by
  induction h generalizing done with
  | nil ht =>
    have hn : Stage.equation.next (.atMost nesting operators) _ = .ok .equation :=
      Stage.readEquation_endOfInput ht
    rw [run_cons_of_ok rfl hn, run_nil, Except.ok.injEq]
    simp [eq_comm]
  | cons hn hw ih =>
    rename_i input rest es e
    have hspell : e.Spellable := hs e (by simp)
    have hes := @ih (e :: done) fun e' h => hs e' (by simp [h])
    obtain ⟨n, ts, rfl, hdice, hop⟩ := head_written hw
    obtain ⟨u, us, hts, hk⟩ := head_tokens e.term
    have hend : u.kind ≠ .endOfInput := by rcases hk with hk | hk <;> simp [hk]
    have hword : u.kind ≠ .word := by rcases hk with hk | hk <;> simp [hk]
    have hunit : run (.atMost nesting operators) ⟨done, .equation⟩ input =
        run (.atMost nesting operators) ⟨done, .unit (.named e.name)⟩
          (e.term.tokens ++ n :: ts) := by
      rw [hts, List.cons_append] at hn ⊢
      exact run_names hn hend hword
    have hdepth : (Draft.named e.name).depth = 0 := rfl
    have hle : (Draft.named e.name).depth ≤ nesting := Nat.zero_le nesting
    have hops : (Draft.named e.name).operators = 0 := rfl
    have hle' : (Draft.named e.name).operators ≤ operators := Nat.zero_le operators
    rw [hunit, run_term hspell.2 hle hle' hdice, run_stop hop rfl, hdepth, hops, Nat.zero_add,
      Nat.zero_add]
    refine ⟨fun h => ?_, fun h => ?_⟩
    · obtain ⟨hn, ho, hr⟩ := h
      obtain ⟨hall, rfl⟩ := hes.1 hr
      exact ⟨by simpa using ⟨⟨hn, ho⟩, hall⟩, by simp⟩
    · obtain ⟨hall, rfl⟩ := h
      have he := hall e (by simp)
      refine ⟨he.1, he.2, ?_⟩
      exact hes.2 ⟨fun e' h => hall e' (by simp [h]), by simp⟩

end Reading

end DiceNotation
