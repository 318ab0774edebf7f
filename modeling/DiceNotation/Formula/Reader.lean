/-
Reading formulas. From loosest to tightest binding:

    formula        := equation* end
    equation       := (word+ "=")? exponentiation
    exponentiation := multiplication ("^" exponentiation)?
    multiplication := addition (("*" | "/") addition)*
    addition       := unit (("+" | "-") unit)*
    unit           := dice integer? | integer (dice integer?)? | ("+" | "-") integer
                    | "(" exponentiation ")"

where a dice token is followed by an integer exactly when it holds no digits.
Nothing marks the end of an equation: it goes on for as long as it can.

Tokens are read from left to right, one step for each. A step looks at no
other token, so whether a unit, a term or an equation is complete shows at the
token after it. The stage between two tokens says what is due next; it holds
the equation being read as a draft, in which an operand waits beside its
operator until the other operand is complete.
-/
import DiceNotation.Formula
import DiceNotation.Formula.SyntaxError
import DiceNotation.Token.Lexer

namespace DiceNotation

/-- How deep the groups and powers of an equation may nest, and how many operators it may hold;
`none` sets no limit. -/
structure Limits where
  nesting : Option Nat
  operators : Option Nat
  deriving DecidableEq, Repr

namespace Limits

/-- Limits that no formula written by hand comes near, and that keep every term shallow. -/
def standard : Limits := ⟨some 64, some 1000⟩

def unlimited : Limits := ⟨none, none⟩

/-- One more level at `received` fits inside `depth` levels. -/
def checkNesting (limits : Limits) (depth : Nat) (received : Token) : Except SyntaxError Unit :=
  match limits.nesting with
  | none => .ok ()
  | some most =>
    if depth < most then .ok () else .error (.unexpected received (.nestingAtMost most) [])

/-- One more operator, `received`, fits beside `count` operators. -/
def checkOperators (limits : Limits) (count : Nat) (received : Token) : Except SyntaxError Unit :=
  match limits.operators with
  | none => .ok ()
  | some most =>
    if count < most then .ok () else .error (.unexpected received (.operatorsAtMost most) [])

end Limits

/-- What has been read of a group, or of an equation outside its groups, before the current unit:
the left operands of the powers, the last first, and of the product and the sum being read. -/
structure Level where
  powers : List Term
  product : Option (Term × Operator)
  sum : Option (Term × Operator)
  deriving DecidableEq, Repr

namespace Level

def empty : Level := ⟨[], none, none⟩

/-- A waiting left operand joined with its right one; the right one alone if none waits. -/
def joined : (waiting : Option (Term × Operator)) → (right : Term) → Term
  | none, right => right
  | some (left, op), right => .binary left op right

/-- The addition that `unit` completes. -/
def addition (l : Level) (unit : Term) : Term := joined l.sum unit

/-- The multiplication that `unit` completes. -/
def multiplication (l : Level) (unit : Term) : Term := joined l.product (l.addition unit)

/-- The exponentiation that `unit` completes. -/
def exponentiation (l : Level) (unit : Term) : Term :=
  l.powers.foldl (fun right left => .binary left .pow right) (l.multiplication unit)

/-- The level once `unit` and the operator after it are read. -/
def waiting (l : Level) (unit : Term) (op : Operator) : Level :=
  match op with
  | .add | .sub => { l with sum := some (l.addition unit, op) }
  | .mul | .div => { l with product := some (l.multiplication unit, op), sum := none }
  | .pow => ⟨l.multiplication unit :: l.powers, none, none⟩

end Level

/-- An equation being read: its name, the operators so far, the innermost open group and the levels
around it, the innermost first. -/
structure Draft where
  name : String
  operators : Nat
  level : Level
  outer : List Level
  deriving DecidableEq, Repr

namespace Draft

/-- An equation of which nothing but the name is read. -/
def named (name : String) : Draft := ⟨name, 0, .empty, []⟩

/-- How many powers are being read in `levels`. -/
def powersIn : (levels : List Level) → Nat
  | [] => 0
  | level :: levels => level.powers.length + powersIn levels

/-- How many groups and powers the next token is in. -/
def depth (d : Draft) : Nat := d.outer.length + powersIn (d.level :: d.outer)

/-- The draft once one more operator is read, which leaves the innermost level at `level`. -/
def withOperator (d : Draft) (level : Level) : Draft :=
  { d with operators := d.operators + 1, level := level }

/-- The draft inside a group that has just been opened. -/
def openGroup (d : Draft) : Draft := { d with level := .empty, outer := d.level :: d.outer }

/-- The equation that ends with `operand`, if the token after it does not carry it on. -/
def completed (d : Draft) (operand : Term) (t : Token) : Option Equation :=
  if t.kind.operator? = none ∧ d.outer = [] then some ⟨d.name, d.level.exponentiation operand⟩
  else none

end Draft

/-- What is due next. -/
inductive Stage
  /-- An equation, or the end. -/
  | equation
  /-- More words of a name, or the equals sign after it; `words` has the last word first. -/
  | name (words : List String)
  /-- A unit. -/
  | unit (draft : Draft)
  /-- The number after a sign. -/
  | signed (negative : Bool) (draft : Draft)
  /-- The number of faces after a dice token that holds none. -/
  | faces (count : Int64) (draft : Draft)
  /-- A dice token that makes `value` a count, or what may follow a unit. -/
  | integer (value : Int64) (draft : Draft)
  /-- An operator, the end of a group, or the end of the equation. -/
  | operator (operand : Term) (draft : Draft)
  deriving DecidableEq, Repr

namespace Stage

/-- The stage after `count` and the token `dice`. -/
def afterDice (count : Int64) (dice : Token) (d : Draft) : Stage :=
  if dice.hasDigits then .operator (.dice count dice.int) d else .faces count d

/-- Reads the first token of a unit. -/
def readUnit (limits : Limits) (d : Draft) (t : Token) : Except SyntaxError Stage :=
  match t.kind with
  | .dice => .ok (afterDice 1 t d)
  | .integer => .ok (.integer t.int d)
  | .plus => .ok (.signed false d)
  | .minus => .ok (.signed true d)
  | .leftParen => do
    limits.checkNesting d.depth t
    return .unit d.openGroup
  | _ => .error (.unexpected t .integer [.diceTerm, .leftParen])

/-- Reads the first token of an equation, or the end. -/
def readEquation (limits : Limits) (t : Token) : Except SyntaxError Stage :=
  match t.kind with
  | .endOfInput => .ok .equation
  | .word => .ok (.name [t.text])
  | _ => readUnit limits (.named "") t

/-- Reads the token after a unit. -/
def readOperator (limits : Limits) (operand : Term) (d : Draft) (t : Token) :
    Except SyntaxError Stage :=
  match t.kind.operator? with
  | some op => do
    if op = .pow then limits.checkNesting d.depth t
    limits.checkOperators d.operators t
    return .unit (d.withOperator (d.level.waiting operand op))
  | none =>
    match d.outer with
    | level :: outer =>
      if t.kind = .rightParen then
        .ok (.operator (d.level.exponentiation operand) { d with level, outer })
      else .error (.unexpected t .rightParen [])
    | [] => readEquation limits t

/-- The stage after a token. -/
def next (limits : Limits) (stage : Stage) (t : Token) : Except SyntaxError Stage :=
  match stage with
  | .equation => readEquation limits t
  | .name words =>
    match t.kind with
    | .word => .ok (.name (t.text :: words))
    | .equal => .ok (.unit (.named (" ".intercalate words.reverse)))
    | _ => .error (.unexpected t .equal [])
  | .unit d => readUnit limits d t
  | .signed negative d =>
    match t.kind with
    | .integer => .ok (.operator (.int (if negative then -t.int else t.int)) d)
    | _ => .error (.unexpected t .integer [])
  | .faces count d =>
    match t.kind with
    | .integer => .ok (.operator (.dice count t.int) d)
    | _ => .error (.unexpected t .integer [])
  | .integer value d =>
    match t.kind with
    | .dice => .ok (afterDice value t d)
    | _ => readOperator limits (.int value) d t
  | .operator operand d => readOperator limits operand d t

theorem readEquation_endOfInput {limits : Limits} {t : Token} (ht : t.kind = .endOfInput) :
    readEquation limits t = .ok .equation := by
  simp only [readEquation, ht]

theorem readUnit_endOfInput {limits : Limits} {d : Draft} {t : Token} (ht : t.kind = .endOfInput) :
    readUnit limits d t = .error (.unexpected t .integer [.diceTerm, .leftParen]) := by
  simp only [readUnit, ht]

theorem readOperator_endOfInput {limits : Limits} {operand : Term} {d : Draft} {t : Token}
    {stage : Stage} (ht : t.kind = .endOfInput) (h : readOperator limits operand d t = .ok stage) :
    stage = .equation := by
  simp only [readOperator, ht, Kind.operator?, reduceCtorEq, if_false] at h
  split at h
  · simp at h
  · rw [readEquation_endOfInput ht, Except.ok.injEq] at h
    exact h.symm

/-- The end of the input leaves no equation half read. -/
theorem next_endOfInput {limits : Limits} {stage stage' : Stage} {t : Token}
    (ht : t.kind = .endOfInput) (h : stage.next limits t = .ok stage') : stage' = .equation := by
  cases stage with
  | equation =>
    rw [next, readEquation_endOfInput ht, Except.ok.injEq] at h
    exact h.symm
  | name words => simp [next, ht] at h
  | unit d => simp [next, readUnit_endOfInput ht] at h
  | signed negative d => simp [next, ht] at h
  | faces count d => simp [next, ht] at h
  | integer value d =>
    simp only [next, ht] at h
    exact readOperator_endOfInput ht h
  | operator operand d => exact readOperator_endOfInput ht h

/-- The equation that turns out to be complete when a token comes after it. -/
def completed (stage : Stage) (t : Token) : Option Equation :=
  match stage with
  | .integer value d => if t.kind = .dice then none else d.completed (.int value) t
  | .operator operand d => d.completed operand t
  | _ => none

end Stage

/-- What has been read of a formula: the complete equations, the last first, and the stage. -/
structure Reading where
  done : List Equation
  stage : Stage
  deriving DecidableEq, Repr

namespace Reading

def start : Reading := ⟨[], .equation⟩

def step (limits : Limits) (r : Reading) (t : Token) : Except SyntaxError Reading :=
  match r.stage.next limits t with
  | .error e => .error e
  | .ok stage => .ok ⟨(r.stage.completed t).toList ++ r.done, stage⟩

end Reading

namespace Formula

/-- The formula that `tokens` spell, the last of them the end of the input. -/
def ofTokens (limits : Limits) (tokens : List Token) : Except SyntaxError Formula :=
  (fun r => ⟨r.done.reverse⟩) <$> tokens.foldlM (Reading.step limits) .start

/-- The formula that a source spells within the limits. -/
def ofSource (limits : Limits) (s : Source) : Except SyntaxError Formula :=
  ofTokens limits s.tokens

/-- The formula that a source spells. -/
def parse (s : Source) : Except SyntaxError Formula := ofSource .standard s

end Formula

end DiceNotation
