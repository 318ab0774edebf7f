/-
The grammar of formulas as rules, apart from any way of reading by them:

    formula        := equation* end
    equation       := (word+ "=")? exponentiation
    exponentiation := multiplication ("^" exponentiation)?
    multiplication := addition (("*" | "/") addition)*
    addition       := unit (("+" | "-") unit)*
    unit           := dice integer? | integer (dice integer?)? | ("+" | "-") integer
                    | "(" exponentiation ")"

where a dice token takes the integer after it exactly when it holds no digits.
A rule relates the tokens in front of a phrase to those behind it, and to the
term that the phrase stands for.

The rules are ambiguous: `1 -2` is one equation or two, and so is `1 d6`. Used
greedily, they let no phrase end before a token that can carry it on, which
leaves one derivation at most. A greedy derivation is a free one
(`Spells.free`). Under either policy what stands behind a phrase is the end of
what the phrase is read from (`Derives.suffix`), and each equation of a formula
stands behind those before it (`Spells.exists_equations`).
-/
import DiceNotation.Formula
import DiceNotation.Token

namespace DiceNotation

/-- Whether a phrase may end anywhere, or only where it has to. -/
inductive Policy
  | free
  | greedy
  deriving DecidableEq

/-- A phrase may end with `rest` to come, though a token of one of the `kinds` would carry it on. -/
def Policy.Ends (policy : Policy) (kinds : List Kind) (rest : List Token) : Prop :=
  policy = .greedy → ∀ t ∈ rest.head?, t.kind ∉ kinds

/-- The phrases of a term. The last three are what may follow the first operand of an addition, of
a multiplication and of an exponentiation. -/
inductive Phrase
  | unit
  | addition
  | multiplication
  | exponentiation
  | addends (left : Term)
  | factors (left : Term)
  | exponent (base : Term)

/-- `dice integer?`, with the number of faces. -/
inductive Faces : List Token → List Token → Int64 → Prop
  | fused : d.kind = .dice → d.hasDigits = true → Faces (d :: rest) rest d.int
  | apart : d.kind = .dice → d.hasDigits = false → n.kind = .integer →
      Faces (d :: n :: rest) rest n.int

/-- `Derives policy phrase input rest t`: the phrase stands at the front of `input`, with `rest`
behind it, and its term is `t`. -/
inductive Derives (policy : Policy) : Phrase → List Token → List Token → Term → Prop
  | dice : Faces input rest faces → Derives policy .unit input rest (.dice 1 faces)
  | integer : n.kind = .integer → policy.Ends [.dice] rest →
      Derives policy .unit (n :: rest) rest (.int n.int)
  | counted : n.kind = .integer → Faces input rest faces →
      Derives policy .unit (n :: input) rest (.dice n.int faces)
  | positive : s.kind = .plus → n.kind = .integer →
      Derives policy .unit (s :: n :: rest) rest (.int n.int)
  | negative : s.kind = .minus → n.kind = .integer →
      Derives policy .unit (s :: n :: rest) rest (.int (-n.int))
  | group : l.kind = .leftParen → Derives policy .exponentiation input (r :: rest) t →
      r.kind = .rightParen → Derives policy .unit (l :: input) rest t
  | addition : Derives policy .unit input mid left → Derives policy (.addends left) mid rest t →
      Derives policy .addition input rest t
  | addends_end : policy.Ends [.plus, .minus] rest → Derives policy (.addends left) rest rest left
  /-- Sums group to the left: what has been added so far is the left operand. -/
  | addends_more : s.kind ∈ [Kind.plus, .minus] → s.kind.operator? = some op →
      Derives policy .unit input mid right →
      Derives policy (.addends (.binary left op right)) mid rest t →
      Derives policy (.addends left) (s :: input) rest t
  | multiplication : Derives policy .addition input mid left →
      Derives policy (.factors left) mid rest t → Derives policy .multiplication input rest t
  | factors_end : policy.Ends [.star, .slash] rest → Derives policy (.factors left) rest rest left
  | factors_more : s.kind ∈ [Kind.star, .slash] → s.kind.operator? = some op →
      Derives policy .addition input mid right →
      Derives policy (.factors (.binary left op right)) mid rest t →
      Derives policy (.factors left) (s :: input) rest t
  | exponentiation : Derives policy .multiplication input mid base →
      Derives policy (.exponent base) mid rest t → Derives policy .exponentiation input rest t
  | exponent_end : policy.Ends [.caret] rest → Derives policy (.exponent base) rest rest base
  /-- Powers group to the right: all that follows the operator is the right operand. -/
  | exponent_more : s.kind = .caret → Derives policy .exponentiation input rest t →
      Derives policy (.exponent base) (s :: input) rest (.binary base .pow t)

/-- `(word+ "=")?`, with the name of the equation: the words with single spaces between them. -/
inductive Names : List Token → List Token → String → Prop
  | unnamed : Names rest rest ""
  | named : (∀ w ∈ first :: more, w.kind = .word) → e.kind = .equal →
      Names (first :: (more ++ e :: rest)) rest (" ".intercalate ((first :: more).map Token.text))

/-- `equation* end`, with the equations. -/
inductive Spells (policy : Policy) : List Token → List Equation → Prop
  | nil : t.kind = .endOfInput → Spells policy [t] []
  | cons : Names input mid name → Derives policy .exponentiation mid rest t →
      Spells policy rest es → Spells policy input (⟨name, t⟩ :: es)

/-- `equation*` at the front of `input`, with `rest` behind it. -/
inductive Equations (policy : Policy) : List Token → List Token → List Equation → Prop
  | nil : Equations policy rest rest []
  | cons : Names input mid name → Derives policy .exponentiation mid behind t →
      Equations policy behind rest es → Equations policy input rest (⟨name, t⟩ :: es)

/-- Some formula has the tokens, the last of them the end of the input, under the rules. -/
def Sentence (tokens : List Token) : Prop := ∃ es, Spells .free tokens es

/-- Something can follow the tokens that makes a sentence of them. -/
def Viable (tokens : List Token) : Prop := ∃ more, Sentence (tokens ++ more)

variable {policy : Policy} {phrase : Phrase} {input rest : List Token} {t : Term}
  {es : List Equation}

/-! ## What a phrase takes -/

theorem Faces.suffix {faces : Int64} (h : Faces input rest faces) : rest <:+ input := by
  cases h with
  | fused => exact List.suffix_cons _ _
  | apart => exact (List.suffix_cons _ _).trans (List.suffix_cons _ _)

theorem Derives.suffix (h : Derives policy phrase input rest t) : rest <:+ input := by
  induction h with
  | dice hf => exact hf.suffix
  | integer => exact List.suffix_cons _ _
  | counted _ hf => exact hf.suffix.trans (List.suffix_cons _ _)
  | positive | negative => exact (List.suffix_cons _ _).trans (List.suffix_cons _ _)
  | group _ _ _ ih => exact ((List.suffix_cons _ _).trans ih).trans (List.suffix_cons _ _)
  | addition _ _ ih₁ ih₂ | multiplication _ _ ih₁ ih₂ | exponentiation _ _ ih₁ ih₂ =>
    exact ih₂.trans ih₁
  | addends_end | factors_end | exponent_end => exact List.suffix_rfl
  | addends_more _ _ _ _ ih₁ ih₂ | factors_more _ _ _ _ ih₁ ih₂ =>
    exact (ih₂.trans ih₁).trans (List.suffix_cons _ _)
  | exponent_more _ _ ih => exact ih.trans (List.suffix_cons _ _)

theorem Names.suffix {name : String} (h : Names input rest name) : rest <:+ input := by
  cases h with
  | unnamed => exact List.suffix_rfl
  | @named first more e =>
    exact ⟨first :: (more ++ [e]), by rw [List.cons_append, List.append_assoc]; rfl⟩

/-- The fewest tokens that the phrase takes. -/
def Phrase.least : Phrase → Nat
  | .unit | .addition | .multiplication | .exponentiation => 1
  | .addends _ | .factors _ | .exponent _ => 0

theorem Faces.length_lt {faces : Int64} (h : Faces input rest faces) :
    rest.length < input.length := by
  cases h <;> simp only [List.length_cons] <;> omega

theorem Derives.length_le (h : Derives policy phrase input rest t) :
    rest.length + phrase.least ≤ input.length := by
  induction h <;> simp only [Phrase.least, List.length_cons] at *
  case dice hf => exact hf.length_lt
  case counted hf => have := hf.length_lt; omega
  all_goals omega

/-! ## Equations at the front of tokens -/

theorem Equations.suffix (h : Equations policy input rest es) : rest <:+ input := by
  induction h with
  | nil => exact List.suffix_rfl
  | cons hn hd _ ih => exact (ih.trans hd.suffix).trans hn.suffix

theorem Equations.length_le (h : Equations policy input rest es) :
    rest.length + es.length ≤ input.length := by
  induction h with
  | nil => simp
  | cons hn hd _ ih =>
    have hn := hn.suffix.length_le
    have hd := hd.length_le
    simp only [Phrase.least, List.length_cons] at *
    omega

theorem Equations.self_iff : Equations policy rest rest es ↔ es = [] := by
  refine ⟨fun h => ?_, fun h => ?_⟩
  · have := h.length_le
    exact List.length_eq_zero_iff.1 (by omega)
  · rw [h]
    exact .nil

theorem Spells.exists_equations (h : Spells policy input es) {e : Equation} {i : Nat}
    (he : es[i]? = some e) :
    ∃ behind mid, Equations policy input behind (es.take i) ∧ Names behind mid e.name := by
  induction h generalizing i with
  | nil => cases he
  | @cons input mid name rest t es hn hd _ ih =>
    cases i with
    | zero =>
      cases he
      exact ⟨input, mid, .nil, hn⟩
    | succ i =>
      obtain ⟨input', mid', hes, hn'⟩ := ih he
      exact ⟨input', mid', .cons hn hd hes, hn'⟩

/-! ## Greedy derivations -/

theorem Policy.Ends.free {kinds : List Kind} (_ : policy.Ends kinds rest) :
    Policy.free.Ends kinds rest := nofun

theorem Derives.free (h : Derives policy phrase input rest t) :
    Derives .free phrase input rest t := by
  induction h with
  | dice hf => exact .dice hf
  | integer hn he => exact .integer hn he.free
  | counted hn hf => exact .counted hn hf
  | positive hs hn => exact .positive hs hn
  | negative hs hn => exact .negative hs hn
  | group hl _ hr ih => exact .group hl ih hr
  | addition _ _ ih₁ ih₂ => exact .addition ih₁ ih₂
  | addends_end he => exact .addends_end he.free
  | addends_more hs ho _ _ ih₁ ih₂ => exact .addends_more hs ho ih₁ ih₂
  | multiplication _ _ ih₁ ih₂ => exact .multiplication ih₁ ih₂
  | factors_end he => exact .factors_end he.free
  | factors_more hs ho _ _ ih₁ ih₂ => exact .factors_more hs ho ih₁ ih₂
  | exponentiation _ _ ih₁ ih₂ => exact .exponentiation ih₁ ih₂
  | exponent_end he => exact .exponent_end he.free
  | exponent_more hs _ ih => exact .exponent_more hs ih

/-- What the rules give when used greedily, they give. -/
theorem Spells.free (h : Spells policy input es) : Spells .free input es := by
  induction h with
  | nil ht => exact .nil ht
  | cons hn hd _ ih => exact .cons hn hd.free ih

end DiceNotation
