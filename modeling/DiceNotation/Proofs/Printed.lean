/-
The tokens of what is written. A number is written so that its digits read back
as it is (`int_digits`), a term so that its text spells the tokens of its tree
(`spelled_term`), and an equation with its name in front of them
(`spelled_equation`). Numbers that no token stands for, the least integer and
negative counts and faces, are what `Term.Spellable` leaves out.
-/
import DiceNotation.Proofs.Grammar
import DiceNotation.Proofs.Numerals

namespace DiceNotation

open Text (asciiDigits Decimal.value Decimal.clamp Decimal.ofInt64 Decimal.ofInt Decimal.ofNat)

/-! ## Numbers -/

/-- The decimal digits of a number, without its sign. -/
def digits (x : Int64) : List Char := Nat.toDigits 10 x.toInt.natAbs

theorem isDigit_of_mem_digits {x : Int64} {c : Char} (h : c ∈ digits x) : c.isDigit = true :=
  Nat.isDigit_of_mem_toDigits (by decide) (by decide) h

theorem digits_ne_nil (x : Int64) : digits x ≠ [] := Nat.toDigits_ne_nil

theorem ofInt64_of_nonneg {x : Int64} (h : 0 ≤ x) : (Decimal.ofInt64 x).toList = digits x := by
  have hx : 0 ≤ x.toInt := Int64.le_iff_toInt_le.1 h
  obtain ⟨n, hn⟩ := Int.eq_ofNat_of_zero_le hx
  rw [Decimal.ofInt64, digits, hn]
  exact Nat.toList_repr

theorem ofInt64_of_neg {x : Int64} (h : x < 0) :
    (Decimal.ofInt64 x).toList = '-' :: digits x := by
  have hx : x.toInt < 0 := Int64.lt_iff_toInt_lt.1 h
  obtain ⟨n, hn⟩ := Int.eq_negSucc_of_lt_zero hx
  rw [Decimal.ofInt64, digits, hn, Decimal.ofInt, String.toList_append, Decimal.ofNat,
    Nat.toList_repr]
  rfl

theorem asciiDigits_digits (x : Int64) : asciiDigits (String.ofList (digits x)) = digits x := by
  rw [asciiDigits, String.toList_ofList, List.filter_eq_self]
  exact fun _ => isDigit_of_mem_digits

/-- Digits are read as the number that they are the digits of, without its sign. -/
theorem int_digits {x : Int64} {kind : Kind} (h : Int64.minValue < x) :
    (Token.plain kind (digits x)).int = .ofInt x.toInt.natAbs := by
  have hlt : Int64.minValue.toInt < x.toInt := Int64.lt_iff_toInt_lt.1 h
  have hmin : Int64.minValue.toInt = -2 ^ 63 := by decide
  have hle : x.toInt < 2 ^ 63 := x.toInt_lt
  have hvalue : Decimal.value (String.ofList (digits x)) = x.toInt.natAbs := by
    rw [Decimal.value, asciiDigits_digits, digits, Nat.ofDigitChars_ten_toDigits]
  have hrange : max (-0x8000000000000000) (min 0x7FFFFFFFFFFFFFFF (x.toInt.natAbs : Int)) =
      x.toInt.natAbs := by omega
  rw [Token.int_eq_clamp, Token.plain, hvalue, Decimal.clamp, hrange]

theorem minValue_lt_of_nonneg {x : Int64} (h : 0 ≤ x) : Int64.minValue < x := by
  have hx : 0 ≤ x.toInt := Int64.le_iff_toInt_le.1 h
  exact Int64.lt_iff_toInt_lt.2 (Int.lt_of_lt_of_le (by decide) hx)

theorem int_digits_of_nonneg {x : Int64} {kind : Kind} (h : 0 ≤ x) :
    (Token.plain kind (digits x)).int = x := by
  have hx : 0 ≤ x.toInt := Int64.le_iff_toInt_le.1 h
  rw [int_digits (minValue_lt_of_nonneg h), Int.natAbs_of_nonneg hx, Int64.ofInt_toInt]

theorem neg_int_digits {x : Int64} {kind : Kind} (h : x < 0) (hmin : Int64.minValue < x) :
    -(Token.plain kind (digits x)).int = x := by
  have hx : x.toInt < 0 := Int64.lt_iff_toInt_lt.1 h
  rw [int_digits hmin, Int.ofNat_natAbs_of_nonpos (Int.le_of_lt hx), Int64.ofInt_neg,
    Int64.neg_neg, Int64.ofInt_toInt]

/-- The sign for dice in front of the digits changes nothing. -/
theorem int_dice_digits {x : Int64} (h : 0 ≤ x) :
    (Token.plain .dice ('d' :: digits x)).int = x := by
  have hd : asciiDigits (String.ofList ('d' :: digits x)) =
      asciiDigits (String.ofList (digits x)) := by
    rw [asciiDigits, asciiDigits, String.toList_ofList, String.toList_ofList]
    rfl
  rw [Token.int_eq_clamp, Token.plain, Text.Decimal.value_of_asciiDigits hd]
  exact (Token.int_eq_clamp (.plain .dice (digits x))).symm.trans (int_digits_of_nonneg h)

theorem hasDigits_dice_digits (x : Int64) :
    (Token.plain .dice ('d' :: digits x)).hasDigits = true := by
  obtain ⟨c, cs, hcs⟩ := List.exists_cons_of_ne_nil (digits_ne_nil x)
  have hc : c.isDigit = true := isDigit_of_mem_digits (hcs ▸ List.mem_cons_self)
  rw [Token.hasDigits, Token.plain, String.toList_ofList, hcs]
  simp [hc]

/-! ## Terms -/

/-- The sign an operator is written with, as a character. -/
def Operator.sign : Operator → Char
  | .add => '+'
  | .sub => '-'
  | .mul => '*'
  | .div => '/'
  | .pow => '^'

/-- The token of a sign. -/
def Token.sign (c : Char) : Token := .plain (.ofChar c) [c]

namespace Term

/-- Every number of the term can be written as tokens: a number may be negative, if its opposite is
a number too, and nothing else may. -/
def Spellable : Term → Prop
  | .int value => Int64.minValue < value
  | .dice count faces => 0 ≤ count ∧ 0 ≤ faces
  | .binary left _ right => left.Spellable ∧ right.Spellable

/-- The tokens of the written form. -/
def tokens : Term → List Token
  | .int value =>
    if value < 0 then [.sign '(', .sign '-', .plain .integer (digits value), .sign ')']
    else [.plain .integer (digits value)]
  | .dice count faces => [.plain .integer (digits count), .plain .dice ('d' :: digits faces)]
  | .binary left op right =>
    .sign '(' :: (left.tokens ++ .sign op.sign :: (right.tokens ++ [.sign ')']))

end Term

theorem Operator.toList_symbol (op : Operator) : op.symbol.toList = [op.sign] := by
  cases op <;> rfl

theorem spelled_digits {x : Int64} {rest : List Char} (hr : ∀ c ∈ rest.head?, c.isDigit = false) :
    spelled (digits x ++ rest) = .plain .integer (digits x) :: spelled rest :=
  spelled_integer (digits_ne_nil x) (fun _ => isDigit_of_mem_digits) hr

/-- A sign of a term is a token whatever follows it. -/
theorem spelled_sign_of_mem {c : Char} {rest : List Char}
    (hc : c ∈ ['(', ')', '=', '+', '-', '*', '/', '^']) :
    spelled (c :: rest) = .sign c :: spelled rest := by
  have hall : ['(', ')', '=', '+', '-', '*', '/', '^'].all
      (fun c => !Text.isSeparator c && !c.isDigit && !isWordStart c) = true := by decide +kernel
  have hsign := List.all_eq_true.1 hall c hc
  simp only [Bool.and_eq_true, Bool.not_eq_true'] at hsign
  exact spelled_sign hsign.1.1 hsign.1.2 hsign.2

theorem spelled_space {rest : List Char} : spelled (' ' :: rest) = spelled rest :=
  spelled_separator (by decide)

theorem kind_dice (x : Int64) : Kind.ofWord 'd' ((digits x).map .char) = .dice := by
  have hd : ((digits x).map Item.char).all (·.satisfies Char.isDigit) = true := by
    rw [List.all_map, List.all_eq_true]
    exact fun c hc => isDigit_of_mem_digits hc
  rw [Kind.ofWord, hd]
  rfl

theorem spelled_dice {x : Int64} {rest : List Char} (hr : ∀ c ∈ rest.head?, isWordPart c = false) :
    spelled ('d' :: (digits x ++ rest)) = .plain .dice ('d' :: digits x) :: spelled rest := by
  rw [← kind_dice x]
  exact spelled_wordlike (by decide) (by decide) (by decide +kernel)
    (fun c hc => isWordPart_of_isDigit (isDigit_of_mem_digits hc)) hr

theorem head_false {p : Char → Bool} {c : Char} {cs : List Char} (h : p c = false) :
    ∀ d ∈ (c :: cs).head?, p d = false := by
  intro d hd
  cases hd
  exact h

theorem isDigit_of_not_isWordPart {c : Char} (h : isWordPart c = false) : c.isDigit = false := by
  rw [Bool.eq_false_iff]
  intro hd
  rw [isWordPart_of_isDigit hd] at h
  cases h

/-- **The written form spells the tree**, in front of what cannot carry a number on. -/
theorem spelled_term {t : Term} {rest : List Char} (ht : t.Spellable)
    (hr : ∀ c ∈ rest.head?, isWordPart c = false) :
    spelled (t.text.toList ++ rest) = t.tokens ++ spelled rest := by
  induction t generalizing rest with
  | int value =>
    by_cases hneg : value < 0
    · have hcs : (Term.int value).text.toList ++ rest =
          '(' :: '-' :: (digits value ++ ')' :: rest) := by
        simp [Term.text, hneg, ofInt64_of_neg hneg]
      rw [hcs, spelled_sign_of_mem (by decide), spelled_sign_of_mem (by decide),
        spelled_digits (head_false rfl), spelled_sign_of_mem (by decide), Term.tokens, if_pos hneg]
      rfl
    · have hcs : (Term.int value).text.toList = digits value := by
        rw [Term.text, if_neg hneg, ofInt64_of_nonneg (Int64.not_lt.1 hneg)]
      have hd : ∀ c ∈ rest.head?, c.isDigit = false :=
        fun c hc => isDigit_of_not_isWordPart (hr c hc)
      rw [hcs, spelled_digits hd, Term.tokens, if_neg hneg]
      rfl
  | dice count faces =>
    obtain ⟨hcount, hfaces⟩ := ht
    have hcs : (Term.dice count faces).text.toList ++ rest =
        digits count ++ 'd' :: (digits faces ++ rest) := by
      simp [Term.text, ofInt64_of_nonneg hcount, ofInt64_of_nonneg hfaces]
    rw [hcs, spelled_digits (head_false rfl), spelled_dice hr]
    rfl
  | binary left op right ihl ihr =>
    obtain ⟨hl, hright⟩ := ht
    have hcs : (Term.binary left op right).text.toList ++ rest =
        '(' :: (left.text.toList ++
          ' ' :: op.sign :: ' ' :: (right.text.toList ++ ')' :: rest)) := by
      simp [Term.text, Operator.toList_symbol]
    have hop : op.sign ∈ ['(', ')', '=', '+', '-', '*', '/', '^'] := by
      cases op <;> decide
    have hspace : isWordPart ' ' = false := by decide +kernel
    have hparen : isWordPart ')' = false := by decide +kernel
    rw [hcs, spelled_sign_of_mem (by decide), ihl hl (head_false hspace), spelled_space,
      spelled_sign_of_mem hop, spelled_space, ihr hright (head_false hparen),
      spelled_sign_of_mem (by decide)]
    simp [Term.tokens]

/-! ## Equations and formulas -/

/-- The names that an equation can be given: none, and words with single spaces between them. -/
def IsName (name : String) : Prop :=
  name = "" ∨ ∃ words, words ≠ [] ∧ name = " ".intercalate words ∧ ∀ w ∈ words, LexesAsWord w

/-- The name and the numbers of the equation can be written as tokens. -/
def Equation.Spellable (e : Equation) : Prop := IsName e.name ∧ e.term.Spellable

/-- The token of a word. -/
def Token.ofWord (w : String) : Token := .plain .word w.toList

theorem texts_ofWord (ws : List String) : (ws.map Token.ofWord).map Token.text = ws := by
  rw [List.map_map]
  exact (List.map_congr_left fun w _ => String.ofList_toList).trans (List.map_id ws)

/-- The tokens of written equations: a name and the tokens of the term for each. -/
inductive Written : List Token → List Equation → Prop
  | nil : t.kind = .endOfInput → Written [t] []
  | cons : Names input (e.term.tokens ++ rest) e.name → Written rest es → Written input (e :: es)

theorem spelled_comma {rest : List Char} : spelled (',' :: ' ' :: rest) = spelled rest := by
  rw [spelled_separator (by decide), spelled_space]

theorem spelled_words {w : String} {ws : List String} {rest : List Char}
    (hw : ∀ v ∈ w :: ws, LexesAsWord v) (hr : ∀ c ∈ rest.head?, isWordPart c = false) :
    spelled ((" ".intercalate (w :: ws)).toList ++ rest) =
      (w :: ws).map Token.ofWord ++ spelled rest := by
  induction ws generalizing w with
  | nil =>
    have hword : IsWord w.toList := lexesAsWord_iff.1 (hw w (by simp))
    rw [String.intercalate_singleton, spelled_word hword hr]
    rfl
  | cons v ws ih =>
    have hword : IsWord w.toList := lexesAsWord_iff.1 (hw w (by simp))
    have hspace : isWordPart ' ' = false := by decide +kernel
    have hcs : (" ".intercalate (w :: v :: ws)).toList ++ rest =
        w.toList ++ ' ' :: ((" ".intercalate (v :: ws)).toList ++ rest) := by
      rw [String.intercalate_cons_cons, String.toList_append, String.toList_append,
        List.append_assoc, List.append_assoc]
      rfl
    rw [hcs, spelled_word hword (head_false hspace), spelled_space,
      ih fun u hu => hw u (by simp [hu])]
    rfl

theorem not_isEmpty_of_words {w : String} {ws : List String} (hw : LexesAsWord w) :
    (" ".intercalate (w :: ws)).isEmpty = false := by
  have hne : w.toList ≠ [] := (lexesAsWord_iff.1 hw).ne_nil
  rw [← Bool.not_eq_true]
  intro he
  have htext : " ".intercalate (w :: ws) = "" := by simpa using he
  cases ws with
  | nil => simp_all
  | cons v ws => simp_all

/-- **The written form of an equation** spells its name and the tokens of its term. -/
theorem spelled_equation {e : Equation} {rest : List Char} (he : e.Spellable)
    (hr : ∀ c ∈ rest.head?, isWordPart c = false) :
    Names (spelled (e.text.toList ++ rest)) (e.term.tokens ++ spelled rest) e.name := by
  obtain ⟨name, t⟩ := e
  obtain ⟨hname, ht⟩ := he
  rcases hname with rfl | ⟨words, hne, rfl, hwords⟩
  · have hcs : Equation.text ⟨"", t⟩ = t.text := rfl
    rw [hcs, spelled_term ht hr]
    exact .unnamed
  · obtain ⟨w, ws, rfl⟩ := List.exists_cons_of_ne_nil hne
    have hw : LexesAsWord w := hwords w (by simp)
    have hspace : isWordPart ' ' = false := by decide +kernel
    have hcs : (Equation.text ⟨" ".intercalate (w :: ws), t⟩).toList ++ rest =
        (" ".intercalate (w :: ws)).toList ++ ' ' :: '=' :: ' ' :: (t.text.toList ++ rest) := by
      rw [Equation.text, if_neg (by simp [not_isEmpty_of_words hw])]
      simp
    rw [hcs, spelled_words hwords (head_false hspace), spelled_space,
      spelled_sign_of_mem (by decide), spelled_space, spelled_term ht hr]
    have hkinds : ∀ v ∈ .ofWord w :: ws.map Token.ofWord, v.kind = .word := by
      intro v hv
      obtain ⟨u, -, rfl⟩ := List.mem_map.1 (List.map_cons ▸ hv)
      rfl
    have hn : Names (.ofWord w :: (ws.map Token.ofWord ++ .sign '=' :: (t.tokens ++ spelled rest)))
        (t.tokens ++ spelled rest)
        (" ".intercalate ((.ofWord w :: ws.map Token.ofWord).map Token.text)) :=
      .named hkinds rfl
    rw [← List.map_cons, texts_ofWord] at hn
    exact hn

/-- **The written form of a formula** spells its equations. -/
theorem spelled_formula {es : List Equation} (he : ∀ e ∈ es, e.Spellable) :
    Written (spelled (Formula.text ⟨es⟩).toList) es := by
  induction es with
  | nil =>
    have hcs : (Formula.text ⟨[]⟩).toList = [] := rfl
    rw [hcs, spelled_nil]
    exact .nil rfl
  | cons e es ih =>
    have hes := ih fun e' h => he e' (by simp [h])
    cases es with
    | nil =>
      have hrest : ∀ c ∈ ([] : List Char).head?, isWordPart c = false := nofun
      have hcs : (Formula.text ⟨[e]⟩).toList = e.text.toList ++ [] := by
        rw [Formula.text, List.map_singleton, String.intercalate_singleton, List.append_nil]
      rw [hcs]
      refine .cons (spelled_equation (he e (by simp)) hrest) ?_
      rw [spelled_nil]
      exact .nil rfl
    | cons e' es =>
      have hcomma : isWordPart ',' = false := by decide +kernel
      have hcs : (Formula.text ⟨e :: e' :: es⟩).toList =
          e.text.toList ++ ',' :: ' ' :: (Formula.text ⟨e' :: es⟩).toList := by
        rw [Formula.text, List.map_cons, List.map_cons, String.intercalate_cons_cons,
          String.toList_append, String.toList_append, List.append_assoc]
        rfl
      rw [hcs]
      refine .cons (spelled_equation (he e (by simp)) (head_false hcomma)) ?_
      rw [spelled_comma]
      exact hes

end DiceNotation
