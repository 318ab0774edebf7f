/-
How deep in its equation a token stands and how many operators stand before it,
told from the tokens alone. A left parenthesis opens a group and a caret the
right operand of a power, and the end of the group around them closes both
(`openIn`); a plus or a minus is an operator where an operand has just ended and
a sign everywhere else (`operatorsIn`). The reader keeps both numbers in its
draft: it does so at the start of an equation, and a step that takes a token
keeps it so (`Stage.next_told`).
-/
import DiceNotation.Proofs.Completion
import DiceNotation.Proofs.Sound

namespace DiceNotation

/-- The token opens a group or the right operand of a power, where it can be taken. -/
def Token.opens (t : Token) : Bool := t.kind = .leftParen || t.kind = .caret

/-- An operand can end with the token. -/
def Token.endsOperand (t : Token) : Bool :=
  t.kind = .integer || t.kind = .dice || t.kind = .rightParen

/-- The token is an operator between two operands, as `before` it, the last first, one has ended. -/
def Token.joins (t : Token) (before : List Token) : Bool :=
  t.kind.operator?.isSome && before.head?.any Token.endsOperand

/-- How many groups and right operands of powers are open behind the tokens, the last first; of
`closed` groups the end has been met already, but not the start, and nothing in them is open. -/
def openIn : (closed : Nat) → List Token → Nat
  | _, [] => 0
  | closed, t :: before =>
    if t.kind = .rightParen then openIn (closed + 1) before
    else if closed = 0 then openIn 0 before + if t.opens then 1 else 0
    else openIn (if t.kind = .leftParen then closed - 1 else closed) before

/-- How many operators between two operands there are among the tokens, the last first. -/
def operatorsIn : List Token → Nat
  | [] => 0
  | t :: before => operatorsIn before + if t.joins before then 1 else 0

/-! ## Open groups and powers -/

/-- How many powers are being read in each open group and outside all of them, the innermost
first. -/
def Draft.heights (d : Draft) : List Nat := (d.level :: d.outer).map (·.powers.length)

/-- The groups and powers that are open where `heights` are the powers in each. -/
def depthOf (heights : List Nat) : Nat := heights.foldr (· + ·) 0 + (heights.length - 1)

variable {before : List Token} {t : Token} {d : Draft} {closed : Nat}

namespace Token

theorem joins_of_no_operator (h : t.kind.operator? = none) : t.joins before = false := by
  simp [joins, h]

theorem joins_of_no_operand (h : before.head?.any endsOperand = false) :
    t.joins before = false := by
  simp [joins, h]

theorem opens_of_operator {op : Operator} (ho : t.kind.operator? = some op) :
    t.opens = decide (op = .pow) := by
  rcases Kind.operator?_eq_some ho with
    ⟨hk, rfl⟩ | ⟨hk, rfl⟩ | ⟨hk, rfl⟩ | ⟨hk, rfl⟩ | ⟨hk, rfl⟩ <;> simp [opens, hk]

theorem not_endsOperand_of_operator {op : Operator} (ho : t.kind.operator? = some op) :
    t.endsOperand = false := by
  rcases Kind.operator?_eq_some ho with
    ⟨hk, -⟩ | ⟨hk, -⟩ | ⟨hk, -⟩ | ⟨hk, -⟩ | ⟨hk, -⟩ <;> simp [endsOperand, hk]

/-- What tokens of these kinds do not do. -/
theorem plain_of_mem (ht : t.kind ∈ [Kind.word, .equal, .dice, .integer]) :
    t.opens = false ∧ t.kind ≠ .rightParen ∧ t.kind.operator? = none := by
  simp only [List.mem_cons, List.not_mem_nil, or_false] at ht
  rcases ht with ht | ht | ht | ht <;> simp [opens, ht, Kind.operator?]

end Token

theorem Draft.depthOf_heights : depthOf d.heights = d.depth := by
  have hpowers (levels : List Level) :
      (levels.map (·.powers.length)).foldr (· + ·) 0 = powersIn levels := by
    induction levels with
    | nil => rfl
    | cons level levels ih => rw [List.map_cons, List.foldr_cons, ih, powersIn]
  rw [depthOf, heights, hpowers, List.length_map, List.length_cons, depth]
  omega

theorem openIn_rightParen (ht : t.kind = .rightParen) :
    openIn closed (t :: before) = openIn (closed + 1) before := by
  rw [openIn, if_pos ht]

theorem openIn_opens (ht : t.opens = true) : openIn 0 (t :: before) = openIn 0 before + 1 := by
  have hk : t.kind ≠ .rightParen := by
    intro hk
    simp [Token.opens, hk] at ht
  rw [openIn, if_neg hk, if_pos rfl, if_pos ht]

theorem openIn_leftParen (ht : t.kind = .leftParen) :
    openIn (closed + 1) (t :: before) = openIn closed before := by
  rw [openIn, if_neg (by simp [ht]), if_neg (Nat.succ_ne_zero closed), if_pos ht,
    Nat.add_sub_cancel]

theorem openIn_caret (ht : t.kind = .caret) :
    openIn (closed + 1) (t :: before) = openIn (closed + 1) before := by
  rw [openIn, if_neg (by simp [ht]), if_neg (Nat.succ_ne_zero closed), if_neg (by simp [ht])]

theorem openIn_other (ho : t.opens = false) (hr : t.kind ≠ .rightParen) :
    openIn closed (t :: before) = openIn closed before := by
  have hl : t.kind ≠ .leftParen := by
    intro hl
    simp [Token.opens, hl] at ho
  rw [openIn, if_neg hr, if_neg hl]
  split
  next hclosed => rw [hclosed, if_neg (by simp [ho]), Nat.add_zero]
  next => rfl

theorem operatorsIn_of_joins (ht : t.joins before = true) :
    operatorsIn (t :: before) = operatorsIn before + 1 := by
  rw [operatorsIn, if_pos ht]

theorem operatorsIn_of_not_joins (ht : t.joins before = false) :
    operatorsIn (t :: before) = operatorsIn before := by
  rw [operatorsIn, if_neg (by simp [ht]), Nat.add_zero]

/-! ## What the draft keeps -/

/-- The draft tells what is open behind the tokens of its equation, in each group that is open, and
how many operators there are. -/
structure Draft.Told (before : List Token) (d : Draft) : Prop where
  depth : ∀ closed < d.heights.length, openIn closed before = depthOf (d.heights.drop closed)
  operators : operatorsIn before = d.operators

/-- The draft at hand tells what has been read of its equation, and the stage whether an operand has
just ended. -/
def Stage.Told (before : List Token) : Stage → Prop
  | .equation => True
  | .name _ => (Draft.named "").Told before
  | .unit d => d.Told before ∧ before.head?.any Token.endsOperand = false
  | .signed _ d | .faces _ d => d.Told before
  | .integer _ d | .operator _ d => d.Told before ∧ before.head?.any Token.endsOperand = true

namespace Draft

theorem Told.openIn_zero (h : d.Told before) : openIn 0 before = d.depth := by
  have hlength : 0 < d.heights.length := by simp [heights]
  rw [h.depth 0 hlength, List.drop_zero, depthOf_heights]

theorem named_told (name : String) : (named name).Told [] where
  depth := by
    intro closed hclosed
    obtain rfl : closed = 0 := by simpa [heights, named] using hclosed
    rfl
  operators := rfl

/-- A token that opens and closes nothing and is no operator changes nothing. -/
theorem Told.other (h : d.Told before) (ho : t.opens = false) (hr : t.kind ≠ .rightParen)
    (hj : t.joins before = false) : d.Told (t :: before) where
  depth := by
    intro closed hclosed
    rw [openIn_other ho hr]
    exact h.depth closed hclosed
  operators := by
    rw [operatorsIn_of_not_joins hj]
    exact h.operators

theorem Told.plain (h : d.Told before) (ht : t.kind ∈ [Kind.word, .equal, .dice, .integer]) :
    d.Told (t :: before) := by
  obtain ⟨ho, hr, hop⟩ := Token.plain_of_mem ht
  exact h.other ho hr (Token.joins_of_no_operator hop)

theorem Told.openGroup (h : d.Told before) (ht : t.kind = .leftParen) :
    d.openGroup.Told (t :: before) where
  depth := by
    have hheights : d.openGroup.heights = 0 :: d.heights := rfl
    intro closed hclosed
    rw [hheights] at hclosed ⊢
    cases closed with
    | zero =>
      have hdepth : depthOf (0 :: d.heights) = d.depth + 1 := by
        rw [← hheights, depthOf_heights, depth_openGroup]
      rw [openIn_opens (by simp [Token.opens, ht]), h.openIn_zero, List.drop_zero, hdepth]
    | succ closed =>
      rw [openIn_leftParen ht, List.drop_succ_cons]
      exact h.depth closed (Nat.lt_of_succ_lt_succ hclosed)
  operators := by
    rw [operatorsIn_of_not_joins (by simp [Token.joins, ht, Kind.operator?])]
    exact h.operators

theorem Told.closeGroup {level : Level} {outer : List Level} (h : d.Told before)
    (hd : d.outer = level :: outer) (ht : t.kind = .rightParen) :
    Draft.Told (t :: before) { d with level, outer } where
  depth := by
    have hheights : d.heights =
        d.level.powers.length :: heights { d with level, outer } := by
      simp [heights, hd]
    intro closed hclosed
    have hdepth := h.depth (closed + 1) (by rw [hheights]; exact Nat.succ_lt_succ hclosed)
    rw [hheights, List.drop_succ_cons] at hdepth
    rw [openIn_rightParen ht, hdepth]
  operators := by
    rw [operatorsIn_of_not_joins (by simp [Token.joins, ht, Kind.operator?])]
    exact h.operators

theorem Told.withOperator {operand : Term} {op : Operator} (h : d.Told before)
    (he : before.head?.any Token.endsOperand = true) (ho : t.kind.operator? = some op) :
    (d.withOperator (d.level.waiting operand op)).Told (t :: before) where
  depth := by
    intro closed hclosed
    by_cases hpow : op = .pow
    case pos =>
      subst hpow
      have hk : t.kind = .caret := by
        rcases Kind.operator?_eq_some ho with ⟨-, ho⟩ | ⟨-, ho⟩ | ⟨-, ho⟩ | ⟨-, ho⟩ | ⟨hk, -⟩
        iterate 4 cases ho
        exact hk
      have hheights : (d.withOperator (d.level.waiting operand .pow)).heights =
          (d.level.powers.length + 1) :: d.heights.tail := rfl
      rw [hheights] at hclosed ⊢
      cases closed with
      | zero =>
        have hdepth : depthOf ((d.level.powers.length + 1) :: d.heights.tail) =
            depthOf d.heights + 1 := by
          simp only [depthOf, heights, List.map_cons, List.tail_cons, List.foldr_cons,
            List.length_cons]
          omega
        rw [openIn_opens (by simp [Token.opens, hk]), h.openIn_zero, List.drop_zero, hdepth,
          depthOf_heights]
      | succ closed =>
        rw [openIn_caret hk, List.drop_succ_cons]
        exact h.depth (closed + 1) hclosed
    case neg =>
      have hopens : t.opens = false := by simp [Token.opens_of_operator ho, hpow]
      have hr : t.kind ≠ .rightParen := by
        intro hr
        rw [hr] at ho
        cases ho
      have hheights : (d.withOperator (d.level.waiting operand op)).heights = d.heights := by
        cases op with
        | pow => exact absurd rfl hpow
        | add | sub | mul | div => rfl
      rw [hheights] at hclosed ⊢
      rw [openIn_other hopens hr]
      exact h.depth closed hclosed
  operators := by
    rw [operatorsIn_of_joins (by simp [Token.joins, ho, he]), h.operators]
    rfl

end Draft

namespace Stage

variable {stage : Stage}

theorem afterDice_told {count : Int64} (h : d.Told before) (ht : t.kind = .dice) :
    (afterDice count t d).Told (t :: before) := by
  have hd : d.Told (t :: before) := h.plain (by simp [ht])
  unfold afterDice
  split
  · exact ⟨hd, by simp [Token.endsOperand, ht]⟩
  · exact hd

theorem readUnit_told (h : d.Told before) (he : before.head?.any Token.endsOperand = false)
    (hn : readUnit .unlimited d t = .ok stage) : stage.Told (t :: before) := by
  have hj : t.joins before = false := Token.joins_of_no_operand he
  unfold readUnit at hn
  split at hn
  next ht =>
    cases hn
    exact afterDice_told h ht
  next ht =>
    cases hn
    exact ⟨h.plain (by simp [ht]), by simp [Token.endsOperand, ht]⟩
  next ht =>
    cases hn
    exact h.other (by simp [Token.opens, ht]) (by simp [ht]) hj
  next ht =>
    cases hn
    exact h.other (by simp [Token.opens, ht]) (by simp [ht]) hj
  next ht =>
    cases hn
    exact ⟨h.openGroup ht, by simp [Token.endsOperand, ht]⟩
  next => cases hn

theorem readEquation_told (hn : readEquation .unlimited t = .ok stage) : stage.Told [t] := by
  unfold readEquation at hn
  split at hn
  next =>
    cases hn
    trivial
  next ht =>
    cases hn
    exact (Draft.named_told "").plain (by simp [ht])
  next => exact readUnit_told (Draft.named_told "") rfl hn

theorem readOperator_told {operand : Term} (h : d.Told before)
    (he : before.head?.any Token.endsOperand = true) (hc : d.completed operand t = none)
    (hn : readOperator .unlimited operand d t = .ok stage) : stage.Told (t :: before) := by
  cases ho : t.kind.operator? with
  | some op =>
    rw [readOperator_operator ho, Except.ok.injEq] at hn
    subst hn
    exact ⟨h.withOperator he ho, by simp [Token.not_endsOperand_of_operator ho]⟩
  | none =>
    have hd : d.outer ≠ [] := by
      intro hd
      simp [Draft.completed, ho, hd] at hc
    obtain ⟨level, outer, hd⟩ := List.exists_cons_of_ne_nil hd
    simp only [readOperator, ho, hd] at hn
    split at hn
    next ht =>
      cases hn
      exact ⟨h.closeGroup hd ht, by simp [Token.endsOperand, ht]⟩
    next => cases hn

/-- **A step that takes a token keeps what the stage tells**, where the token does not start an
equation. -/
theorem next_told (h : stage.Told before) {stage' : Stage} (hs : stage ≠ .equation)
    (hc : stage.completed t = none) (hn : stage.next .unlimited t = .ok stage') :
    stage'.Told (t :: before) := by
  cases stage with
  | equation => exact absurd rfl hs
  | name words =>
    simp only [next] at hn
    split at hn
    next ht =>
      cases hn
      exact Draft.Told.plain h (by simp [ht])
    next ht =>
      cases hn
      have hd : (Draft.named "").Told (t :: before) := Draft.Told.plain h (by simp [ht])
      exact ⟨⟨hd.depth, hd.operators⟩, by simp [Token.endsOperand, ht]⟩
    next => cases hn
  | unit d => exact readUnit_told h.1 h.2 hn
  | signed negative d =>
    obtain ⟨ht, rfl⟩ := signed_next_eq_ok_iff.1 hn
    exact ⟨Draft.Told.plain h (by simp [ht]), by simp [Token.endsOperand, ht]⟩
  | faces count d =>
    obtain ⟨ht, rfl⟩ := faces_next_eq_ok_iff.1 hn
    exact ⟨Draft.Told.plain h (by simp [ht]), by simp [Token.endsOperand, ht]⟩
  | integer value d =>
    simp only [next] at hn
    split at hn
    next ht =>
      cases hn
      exact afterDice_told h.1 ht
    next ht =>
      have hc' : d.completed (.int value) t = none := by rwa [completed, if_neg ht] at hc
      exact readOperator_told h.1 h.2 hc' hn
  | operator operand d => exact readOperator_told h.1 h.2 hc hn

end Stage

end DiceNotation
