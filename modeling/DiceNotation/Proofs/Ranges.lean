/-
What is read is in range. A number in a text is not negative, so its opposite is in
range too (`toInt_neg_of_nonneg`), and no term that is read has the one number that
has no opposite, or dice that are counted below 0 (`Term.Spellable.literals`,
`Term.Spellable.leaves`). An error that no operator makes is that of a dice leaf
(`Term.Evaluates.exists_leaf`). So what is read never fails for a negative count,
and for its faces only where they are 0 (`parsed_in_range`).
-/
import DiceNotation.Proofs.Draws
import DiceNotation.Proofs.Sound

namespace DiceNotation

variable {σ : Type}

/-- The numbers of a term that stand for themselves, from left to right. -/
def Term.literals : Term → List Int64
  | .int value => [value]
  | .dice _ _ => []
  | .binary left _ right => left.literals ++ right.literals

/-! ## Numbers and names -/

theorem Term.Spellable.literals {t : Term} (h : t.Spellable) :
    ∀ x ∈ t.literals, Int64.minValue < x := by
  induction t with
  | int value => exact List.forall_mem_singleton.2 h
  | dice count faces => exact List.forall_mem_nil _
  | binary left op right ihl ihr => exact List.forall_mem_append.2 ⟨ihl h.1, ihr h.2⟩

theorem Term.Spellable.leaves {t : Term} (h : t.Spellable) :
    ∀ l ∈ t.leaves, 0 ≤ l.count ∧ 0 ≤ l.faces := by
  induction t with
  | int value => exact List.forall_mem_nil _
  | dice count faces => exact List.forall_mem_singleton.2 h
  | binary left op right ihl ihr => exact List.forall_mem_append.2 ⟨ihl h.1, ihr h.2⟩

theorem IsName.exists_start {name : String} (h : IsName name) (hne : name ≠ "") :
    ∃ c cs, name.toList = c :: cs ∧ (Text.isLetter c = true ∨ c = '_') := by
  rcases h with rfl | ⟨words, hwords, rfl, hw⟩
  · exact absurd rfl hne
  obtain ⟨w, ws, rfl⟩ := List.exists_cons_of_ne_nil hwords
  have hword := lexesAsWord_iff.1 (hw w (.head _))
  generalize hcs : w.toList = word at hword
  obtain @⟨c, cs, -, -, hc, -, -⟩ := hword
  rw [isWordStart, Bool.or_eq_true, beq_iff_eq] at hc
  cases ws with
  | nil => exact ⟨c, cs, by rw [String.intercalate_singleton, hcs], hc⟩
  | cons v ws =>
    refine ⟨c, cs ++ " ".toList ++ (" ".intercalate (v :: ws)).toList, ?_, hc⟩
    rw [String.intercalate_cons_cons, String.toList_append, String.toList_append, hcs]
    rfl

/-! ## Errors -/

theorem Term.Evaluates.exists_leaf {r : Roller σ} {term : Term} {cup cup' : Cup σ} {e : DomainError}
    (h : Evaluates r term cup (.error e) cup') (he : ¬ e.OfOperator) :
    ∃ l ∈ term.leaves, ∃ before after, Cup.Rolled r l.count l.faces before (.error e) after := by
  generalize hout : Except.error e = outcome at h
  induction h with
  | int => cases hout
  | @dice count faces cup cup' _ h =>
    subst hout
    exact ⟨⟨count, faces⟩, List.mem_singleton_self _, cup, cup', h⟩
  | left _ ih =>
    obtain ⟨l, hl, hroll⟩ := ih hout
    exact ⟨l, List.mem_append_left _ hl, hroll⟩
  | right _ _ _ ih =>
    obtain ⟨l, hl, hroll⟩ := ih hout
    exact ⟨l, List.mem_append_right _ hl, hroll⟩
  | node => exact absurd (Operator.apply_error hout.symm) he

/-- The numbers of the equation can be negated and its dice counted, its name starts as words do,
and it fails for its dice only where they have no faces. -/
structure Equation.InRange (e : Equation) : Prop where
  literals : ∀ x ∈ e.term.literals, -(2 ^ 63 - 1) ≤ x.toInt ∧ x.toInt ≤ 2 ^ 63 - 1
  counts : ∀ l ∈ e.term.leaves, 0 ≤ l.count.toInt ∧ l.count.toInt ≤ 2 ^ 63 - 1
  faces : ∀ l ∈ e.term.leaves, 0 ≤ l.faces.toInt ∧ l.faces.toInt ≤ 2 ^ 63 - 1
  name : e.name ≠ "" → ∃ c cs, e.name.toList = c :: cs ∧ (Text.isLetter c = true ∨ c = '_')
  negativeCount : ∀ {σ : Type} (r : Roller σ) (cup : Cup σ) (count : Int64),
    (e.term.eval r cup).1 ≠ .error (.negativeCount count)
  invalidFaces : ∀ {σ : Type} (r : Roller σ) (cup : Cup σ) (faces : Int64),
    (e.term.eval r cup).1 = .error (.invalidFaces faces) → faces = 0

theorem Equation.Spellable.inRange {e : Equation} (h : e.Spellable) : e.InRange := by
  obtain ⟨hname, hterm⟩ := h
  have hleaf (l : Leaf) (hl : l ∈ e.term.leaves) : 0 ≤ l.count.toInt ∧ 0 ≤ l.faces.toInt :=
    (hterm.leaves l hl).imp Int64.le_iff_toInt_le.1 Int64.le_iff_toInt_le.1
  have hmax (x : Int64) : x.toInt ≤ 2 ^ 63 - 1 := Int.le_sub_one_of_lt x.toInt_lt
  constructor
  case literals =>
    intro x hx
    have hmin : Int64.minValue.toInt = -2 ^ 63 := by decide
    have hlt := Int64.lt_iff_toInt_lt.1 (hterm.literals x hx)
    exact ⟨by omega, hmax x⟩
  case counts => exact fun l hl => ⟨(hleaf l hl).1, hmax _⟩
  case faces => exact fun l hl => ⟨(hleaf l hl).2, hmax _⟩
  case name => exact hname.exists_start
  case negativeCount =>
    intro σ r cup count herror
    have hev := e.term.evaluates r cup
    rw [herror] at hev
    obtain ⟨l, hl, _, _, hroll⟩ := hev.exists_leaf nofun
    cases hroll with
    | negativeCount _ hneg => exact absurd (hleaf l hl).1 (Int.not_le.2 hneg)
  case invalidFaces =>
    intro σ r cup faces herror
    have hev := e.term.evaluates r cup
    rw [herror] at hev
    obtain ⟨l, hl, _, _, hroll⟩ := hev.exists_leaf nofun
    cases hroll with
    | invalidFaces hnonpos =>
      rw [← Int64.toInt_inj]
      exact Int.le_antisymm hnonpos (hleaf l hl).2

/-- **What is read is in range.** No number of the source overflows when its sign is changed, and of
every equation that is read the numbers, the dice and the name are in range, so that it never fails
for a negative count, and for invalid faces only where there are none. -/
theorem parsed_in_range (bytes : List UInt8) (f : Formula)
    (h : Formula.parse (.ofBytes bytes) = .ok f) :
    (∀ t ∈ (Source.ofBytes bytes).tokens, (-t.int).toInt = -t.int.toInt) ∧
      ∀ e ∈ f.equations, e.InRange :=
  ⟨fun t _ => toInt_neg_of_nonneg t.int_nonneg,
    fun e he => (Formula.sound_of_parse h e he).1.inRange⟩

/-- In `_=-9223372036854775808/0d0` the number is held at the largest before it is negated, and the
dice have no faces. -/
theorem in_range_at_edges :
    Formula.parse (.ofBytes [95, 61, 45, 57, 50, 50, 51, 51, 55, 50, 48, 51, 54, 56, 53, 52, 55, 55,
        53, 56, 48, 56, 47, 48, 100, 48]) =
        .ok ⟨[⟨"_", .binary (.int (-0x7FFFFFFFFFFFFFFF)) .div (.dice 0 0)⟩]⟩ ∧
      Equation.InRange ⟨"_", .binary (.int (-0x7FFFFFFFFFFFFFFF)) .div (.dice 0 0)⟩ :=
  have hparse := by decide +kernel
  ⟨hparse, (parsed_in_range _ _ hparse).2 _ (.head _)⟩

end DiceNotation
