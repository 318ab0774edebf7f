/-
The reader builds the greedy derivation and no other formula. What a stage
between two tokens still demands of the tokens to come is written down in the
words of the grammar (`Stage.Completes`): the unit or operand that is due, what
may follow it in the sum, the product and the power being read, the end of each
open group, and what is demanded behind this equation. One step of the reader takes one
token off that demand (`Stage.completes_cons`), so a whole reading without
limits gives a formula exactly if the tokens spell it greedily
(`ofTokens_unlimited_iff`).
-/
import DiceNotation.Proofs.Grammar
import DiceNotation.Proofs.Run

namespace DiceNotation

/-! ## Phrases by their first token -/

theorem greedy_ends_cons {kinds : List Kind} {t : Token} {ts : List Token} :
    Policy.greedy.Ends kinds (t :: ts) ↔ t.kind ∉ kinds := by
  simp [Policy.Ends]

theorem derives_addition_iff {input rest : List Token} {a : Term} :
    Derives .greedy .addition input rest a ↔
      ∃ mid u, Derives .greedy .unit input mid u ∧ Derives .greedy (.addends u) mid rest a := by
  refine ⟨fun h => ?_, fun h => ?_⟩
  · obtain _ | _ | _ | _ | _ | _ | ⟨hu, ha⟩ := h
    exact ⟨_, _, hu, ha⟩
  · obtain ⟨mid, u, hu, ha⟩ := h
    exact .addition hu ha

theorem derives_multiplication_iff {input rest : List Token} {m : Term} :
    Derives .greedy .multiplication input rest m ↔ ∃ mid a,
      Derives .greedy .addition input mid a ∧ Derives .greedy (.factors a) mid rest m := by
  refine ⟨fun h => ?_, fun h => ?_⟩
  · obtain _ | _ | _ | _ | _ | _ | _ | _ | _ | ⟨ha, hm⟩ := h
    exact ⟨_, _, ha, hm⟩
  · obtain ⟨mid, a, ha, hm⟩ := h
    exact .multiplication ha hm

theorem addends_cons_iff {s : Token} {ts rest : List Token} {left a : Term} {op : Operator}
    (hs : s.kind ∈ [Kind.plus, .minus]) (ho : s.kind.operator? = some op) :
    Derives .greedy (.addends left) (s :: ts) rest a ↔ ∃ mid right,
      Derives .greedy .unit ts mid right ∧
        Derives .greedy (.addends (.binary left op right)) mid rest a := by
  refine ⟨fun h => ?_, fun h => ?_⟩
  · cases h with
    | addends_end he => exact absurd hs (greedy_ends_cons.1 he)
    | addends_more _ ho' hu ha =>
      cases ho.symm.trans ho'
      exact ⟨_, _, hu, ha⟩
  · obtain ⟨mid, right, hu, ha⟩ := h
    exact .addends_more hs ho hu ha

theorem addends_stop_iff {s : Token} {ts rest : List Token} {left a : Term}
    (hs : s.kind ∉ [Kind.plus, .minus]) :
    Derives .greedy (.addends left) (s :: ts) rest a ↔ rest = s :: ts ∧ a = left := by
  refine ⟨fun h => ?_, fun h => ?_⟩
  · cases h with
    | addends_end => exact ⟨rfl, rfl⟩
    | addends_more hs' => exact absurd hs' hs
  · obtain ⟨rfl, rfl⟩ := h
    exact .addends_end (greedy_ends_cons.2 hs)

theorem factors_cons_iff {s : Token} {ts rest : List Token} {left m : Term} {op : Operator}
    (hs : s.kind ∈ [Kind.star, .slash]) (ho : s.kind.operator? = some op) :
    Derives .greedy (.factors left) (s :: ts) rest m ↔ ∃ mid right,
      Derives .greedy .addition ts mid right ∧
        Derives .greedy (.factors (.binary left op right)) mid rest m := by
  refine ⟨fun h => ?_, fun h => ?_⟩
  · cases h with
    | factors_end he => exact absurd hs (greedy_ends_cons.1 he)
    | factors_more _ ho' ha hm =>
      cases ho.symm.trans ho'
      exact ⟨_, _, ha, hm⟩
  · obtain ⟨mid, right, ha, hm⟩ := h
    exact .factors_more hs ho ha hm

theorem factors_stop_iff {s : Token} {ts rest : List Token} {left m : Term}
    (hs : s.kind ∉ [Kind.star, .slash]) :
    Derives .greedy (.factors left) (s :: ts) rest m ↔ rest = s :: ts ∧ m = left := by
  refine ⟨fun h => ?_, fun h => ?_⟩
  · cases h with
    | factors_end => exact ⟨rfl, rfl⟩
    | factors_more hs' => exact absurd hs' hs
  · obtain ⟨rfl, rfl⟩ := h
    exact .factors_end (greedy_ends_cons.2 hs)

theorem exponent_cons_iff {s : Token} {ts rest : List Token} {base e : Term}
    (hs : s.kind = .caret) :
    Derives .greedy (.exponent base) (s :: ts) rest e ↔
      ∃ t, Derives .greedy .exponentiation ts rest t ∧ e = .binary base .pow t := by
  refine ⟨fun h => ?_, fun h => ?_⟩
  · cases h with
    | exponent_end he => exact absurd hs (by simpa using greedy_ends_cons.1 he)
    | exponent_more _ ht => exact ⟨_, ht, rfl⟩
  · obtain ⟨t, ht, rfl⟩ := h
    exact .exponent_more hs ht

theorem exponent_stop_iff {s : Token} {ts rest : List Token} {base e : Term}
    (hs : s.kind ≠ .caret) :
    Derives .greedy (.exponent base) (s :: ts) rest e ↔ rest = s :: ts ∧ e = base := by
  refine ⟨fun h => ?_, fun h => ?_⟩
  · cases h with
    | exponent_end => exact ⟨rfl, rfl⟩
    | exponent_more hs' => exact absurd hs' hs
  · obtain ⟨rfl, rfl⟩ := h
    exact .exponent_end (greedy_ends_cons.2 (by simpa using hs))

/-! ## What a level demands -/

/-- With `operand` read inside it, the level ends with `rest` to come and is the term `t`. -/
def Level.Completes (l : Level) (operand : Term) (input rest : List Token) (t : Term) : Prop :=
  ∃ i₁ i₂ a m e, Derives .greedy (.addends (l.addition operand)) input i₁ a ∧
    Derives .greedy (.factors (joined l.product a)) i₁ i₂ m ∧
    Derives .greedy (.exponent m) i₂ rest e ∧
    t = l.powers.foldl (fun right left => .binary left .pow right) e

theorem Level.Completes.suffix {l : Level} {operand t : Term} {input rest : List Token}
    (h : l.Completes operand input rest t) : rest <:+ input := by
  obtain ⟨_, _, _, _, _, hs, hf, he, -⟩ := h
  exact (he.suffix.trans hf.suffix).trans hs.suffix

theorem derives_exponentiation_iff {input rest : List Token} {t : Term} :
    Derives .greedy .exponentiation input rest t ↔
      ∃ mid u, Derives .greedy .unit input mid u ∧ Level.empty.Completes u mid rest t := by
  refine ⟨fun h => ?_, fun h => ?_⟩
  · obtain _ | _ | _ | _ | _ | _ | _ | _ | _ | _ | _ | _ | ⟨hm, he⟩ := h
    obtain ⟨_, a, ha, hf⟩ := derives_multiplication_iff.1 hm
    obtain ⟨_, u, hu, hs⟩ := derives_addition_iff.1 ha
    exact ⟨_, u, hu, _, _, a, _, _, hs, hf, he, rfl⟩
  · obtain ⟨mid, u, hu, i₁, i₂, a, m, e, hs, hf, he, rfl⟩ := h
    exact .exponentiation (.multiplication (.addition hu hs) hf) he

theorem Kind.operator?_eq_some {k : Kind} {op : Operator} (h : k.operator? = some op) :
    k = .plus ∧ op = .add ∨ k = .minus ∧ op = .sub ∨ k = .star ∧ op = .mul ∨
      k = .slash ∧ op = .div ∨ k = .caret ∧ op = .pow := by
  cases k <;> simp_all [operator?]

theorem Kind.operator?_eq_none {k : Kind} (h : k.operator? = none) :
    k ∉ [Kind.plus, .minus] ∧ k ∉ [Kind.star, .slash] ∧ k ≠ .caret := by
  cases k <;> simp_all [operator?]

namespace Level

variable {l : Level} {u e : Term} {s : Token} {ts rest : List Token} {op : Operator}

theorem completes_addend (hs : s.kind ∈ [Kind.plus, .minus]) (ho : s.kind.operator? = some op)
    (hw : l.waiting u op = { l with sum := some (l.addition u, op) }) :
    l.Completes u (s :: ts) rest e ↔ ∃ mid right, Derives .greedy .unit ts mid right ∧
      (l.waiting u op).Completes right mid rest e := by
  simp only [Completes, addends_cons_iff hs ho, hw]
  refine ⟨fun h => ?_, fun h => ?_⟩
  · obtain ⟨i₁, i₂, a, m, e', ⟨mid, right, hu, ha⟩, h⟩ := h
    exact ⟨mid, right, hu, i₁, i₂, a, m, e', ha, h⟩
  · obtain ⟨mid, right, hu, i₁, i₂, a, m, e', ha, h⟩ := h
    exact ⟨i₁, i₂, a, m, e', ⟨mid, right, hu, ha⟩, h⟩

theorem completes_factor (hs : s.kind ∈ [Kind.star, .slash]) (ho : s.kind.operator? = some op)
    (hw : l.waiting u op = { l with product := some (l.multiplication u, op), sum := none }) :
    l.Completes u (s :: ts) rest e ↔ ∃ mid right, Derives .greedy .unit ts mid right ∧
      (l.waiting u op).Completes right mid rest e := by
  have hn : s.kind ∉ [Kind.plus, .minus] := by
    simp only [List.mem_cons, List.not_mem_nil, or_false] at hs ⊢
    rcases hs with hs | hs <;> simp [hs]
  simp only [Completes, addends_stop_iff hn, hw]
  refine ⟨fun h => ?_, fun h => ?_⟩
  · obtain ⟨_, i₂, _, m, e', ⟨rfl, rfl⟩, hf, h⟩ := h
    obtain ⟨i₁, a, ha, hm⟩ := (factors_cons_iff hs ho).1 hf
    obtain ⟨mid, right, hu, hd⟩ := derives_addition_iff.1 ha
    exact ⟨mid, right, hu, i₁, i₂, a, m, e', hd, hm, h⟩
  · obtain ⟨mid, right, hu, i₁, i₂, a, m, e', hd, hm, h⟩ := h
    exact ⟨_, i₂, _, m, e', ⟨rfl, rfl⟩, (factors_cons_iff hs ho).2
      ⟨i₁, a, derives_addition_iff.2 ⟨mid, right, hu, hd⟩, hm⟩, h⟩

theorem completes_exponent (hs : s.kind = .caret) :
    l.Completes u (s :: ts) rest e ↔ ∃ mid right, Derives .greedy .unit ts mid right ∧
      (l.waiting u .pow).Completes right mid rest e := by
  have hn₁ : s.kind ∉ [Kind.plus, .minus] := by simp [hs]
  have hn₂ : s.kind ∉ [Kind.star, .slash] := by simp [hs]
  simp only [Completes, addends_stop_iff hn₁]
  refine ⟨fun h => ?_, fun h => ?_⟩
  · obtain ⟨_, _, _, _, _, ⟨rfl, rfl⟩, hf, hx, rfl⟩ := h
    obtain ⟨rfl, rfl⟩ := (factors_stop_iff hn₂).1 hf
    obtain ⟨t, ht, rfl⟩ := (exponent_cons_iff hs).1 hx
    obtain ⟨mid, right, hu, i₁, i₂, a, m, e', hd, hm, he, rfl⟩ := derives_exponentiation_iff.1 ht
    exact ⟨mid, right, hu, i₁, i₂, a, m, _, hd, hm, he, rfl⟩
  · obtain ⟨mid, right, hu, i₁, i₂, a, m, e', hd, hm, he, rfl⟩ := h
    have ht : Derives .greedy .exponentiation ts rest e' :=
      derives_exponentiation_iff.2 ⟨mid, right, hu, i₁, i₂, a, m, e', hd, hm, he, rfl⟩
    exact ⟨_, _, _, _, _, ⟨rfl, rfl⟩, (factors_stop_iff hn₂).2 ⟨rfl, rfl⟩,
      (exponent_cons_iff hs).2 ⟨e', ht, rfl⟩, rfl⟩

theorem completes_operator (ho : s.kind.operator? = some op) :
    l.Completes u (s :: ts) rest e ↔ ∃ mid right, Derives .greedy .unit ts mid right ∧
      (l.waiting u op).Completes right mid rest e := by
  rcases Kind.operator?_eq_some ho with ⟨hk, rfl⟩ | ⟨hk, rfl⟩ | ⟨hk, rfl⟩ | ⟨hk, rfl⟩ | ⟨hk, rfl⟩
  · exact completes_addend (by simp [hk]) ho rfl
  · exact completes_addend (by simp [hk]) ho rfl
  · exact completes_factor (by simp [hk]) ho rfl
  · exact completes_factor (by simp [hk]) ho rfl
  · exact completes_exponent hk

theorem completes_of_no_operator (ho : s.kind.operator? = none) :
    l.Completes u (s :: ts) rest e ↔ rest = s :: ts ∧ e = l.exponentiation u := by
  obtain ⟨hn₁, hn₂, hn₃⟩ := Kind.operator?_eq_none ho
  simp only [Completes, addends_stop_iff hn₁]
  refine ⟨fun h => ?_, fun h => ?_⟩
  · obtain ⟨_, _, _, _, _, ⟨rfl, rfl⟩, hf, hx, rfl⟩ := h
    obtain ⟨rfl, rfl⟩ := (factors_stop_iff hn₂).1 hf
    obtain ⟨rfl, rfl⟩ := (exponent_stop_iff hn₃).1 hx
    exact ⟨rfl, rfl⟩
  · obtain ⟨rfl, rfl⟩ := h
    exact ⟨_, _, _, _, _, ⟨rfl, rfl⟩, (factors_stop_iff hn₂).2 ⟨rfl, rfl⟩,
      (exponent_stop_iff hn₃).2 ⟨rfl, rfl⟩, rfl⟩

end Level

/-! ## What a stage demands -/

/-- What the tokens behind an equation have to be, with the equations that they give. A whole input
demands all the equations to come; a part of it demands those up to where it ends. -/
abbrev Demand := List Token → List Equation → Prop

/-- With everything inside `outer` complete and equal to `t`, the tokens end the groups of `outer`,
the innermost first, and the equations from this one on are `es`. -/
def Closes (K : Demand) (name : String) :
    (outer : List Level) → Term → List Token → List Equation → Prop
  | [], t, input, es => ∃ es', K input es' ∧ es = ⟨name, t⟩ :: es'
  | level :: outer, t, input, es => ∃ r mid rest t', input = r :: mid ∧ r.kind = .rightParen ∧
      level.Completes t mid rest t' ∧ Closes K name outer t' rest es

/-- With `operand` read, the tokens complete the equation, and the equations from it on are `es`. -/
def Draft.Completes (K : Demand) (d : Draft) (operand : Term) (input : List Token)
    (es : List Equation) : Prop :=
  ∃ rest t, d.level.Completes operand input rest t ∧ Closes K d.name d.outer t rest es

/-- The tokens go on with a unit and complete the equation, and the equations from it on are
`es`. -/
def Draft.Continues (K : Demand) (d : Draft) (input : List Token) (es : List Equation) : Prop :=
  ∃ rest u, Derives .greedy .unit input rest u ∧ d.Completes K u rest es

/-- The tokens to come complete what is being read, and the equations from the unfinished one on are
`es`. Behind the end of the input nothing is due. -/
def Stage.Completes (K : Demand) : Stage → List Token → List Equation → Prop
  | .equation, [], es => es = []
  | .equation, t :: ts, es => K (t :: ts) es
  | .name words, input, es => ∃ more e mid, input = more ++ e :: mid ∧
      (∀ w ∈ more, w.kind = .word) ∧ e.kind = .equal ∧
      (Draft.named (" ".intercalate (words.reverse ++ more.map Token.text))).Continues K mid es
  | .unit d, input, es => d.Continues K input es
  | .signed negative d, input, es => ∃ n rest, input = n :: rest ∧ n.kind = .integer ∧
      d.Completes K (.int (if negative then -n.int else n.int)) rest es
  | .faces count d, input, es => ∃ n rest, input = n :: rest ∧ n.kind = .integer ∧
      d.Completes K (.dice count n.int) rest es
  | .integer value d, input, es =>
      Policy.greedy.Ends [.dice] input ∧ d.Completes K (.int value) input es ∨
        ∃ rest faces, Faces input rest faces ∧ d.Completes K (.dice value faces) rest es
  | .operator operand d, input, es => d.Completes K operand input es

/-- Of what is demanded between two equations, `t` takes the first token as a step of the reader
does. -/
def Demand.Takes (K : Demand) (t : Token) (ts : List Token) : Prop :=
  ∀ es, K (t :: ts) es ↔
    ∃ stage, Stage.readEquation .unlimited t = .ok stage ∧ stage.Completes K ts es

namespace Stage

variable {K : Demand} {d : Draft} {t : Token} {ts : List Token} {es : List Equation}

theorem afterDice_completes (count : Int64) (ht : t.kind = .dice) :
    (afterDice count t d).Completes K ts es ↔
      ∃ rest faces, Faces (t :: ts) rest faces ∧ d.Completes K (.dice count faces) rest es := by
  unfold afterDice
  split
  case isTrue hd =>
    refine ⟨fun h => ?_, fun h => ?_⟩
    · exact ⟨ts, t.int, .fused ht hd, h⟩
    · obtain ⟨rest, faces, hf, h⟩ := h
      cases hf with
      | fused => exact h
      | apart _ hn => simp [hn] at hd
  case isFalse hd =>
    refine ⟨fun h => ?_, fun h => ?_⟩
    · obtain ⟨n, rest, rfl, hn, h⟩ := h
      exact ⟨rest, n.int, .apart ht (by simpa using hd) hn, h⟩
    · obtain ⟨rest, faces, hf, h⟩ := h
      cases hf with
      | fused _ hd' => exact absurd hd' hd
      | apart _ _ hn => exact ⟨_, rest, rfl, hn, h⟩

/-- What a group demands is a draft of its own, with the level around it set aside. -/
theorem openGroup_continues :
    d.openGroup.Continues K ts es ↔ ∃ r rest t, Derives .greedy .exponentiation ts (r :: rest) t ∧
      r.kind = .rightParen ∧ d.Completes K t rest es := by
  refine ⟨fun h => ?_, fun h => ?_⟩
  · obtain ⟨mid, u, hu, _, t, ht, r, rest, rest', t', rfl, hr, hl, ho⟩ := h
    exact ⟨r, rest, t, derives_exponentiation_iff.2 ⟨mid, u, hu, ht⟩, hr, rest', t', hl, ho⟩
  · obtain ⟨r, rest, t, ht, hr, rest', t', hl, ho⟩ := h
    obtain ⟨mid, u, hu, hc⟩ := derives_exponentiation_iff.1 ht
    exact ⟨mid, u, hu, r :: rest, t, hc, r, rest, rest', t', rfl, hr, hl, ho⟩

theorem named_continues {name : String} :
    (Draft.named name).Continues K ts es ↔ ∃ rest t es', Derives .greedy .exponentiation ts rest t ∧
      K rest es' ∧ es = ⟨name, t⟩ :: es' := by
  refine ⟨fun h => ?_, fun h => ?_⟩
  · obtain ⟨mid, u, hu, rest, t, ht, es', hs, rfl⟩ := h
    exact ⟨rest, t, es', derives_exponentiation_iff.2 ⟨mid, u, hu, ht⟩, hs, rfl⟩
  · obtain ⟨rest, t, es', ht, hs, rfl⟩ := h
    obtain ⟨mid, u, hu, hc⟩ := derives_exponentiation_iff.1 ht
    exact ⟨mid, u, hu, rest, t, hc, es', hs, rfl⟩

/-- Of a draft that demands a unit, `t` takes the first token. -/
theorem continues_cons : d.Continues K (t :: ts) es ↔
    ∃ stage, readUnit .unlimited d t = .ok stage ∧ stage.Completes K ts es := by
  refine ⟨fun h => ?_, fun h => ?_⟩
  · obtain ⟨rest, u, hu, h⟩ := h
    cases hu with
    | dice hf =>
      have ht : t.kind = .dice := by cases hf <;> assumption
      exact ⟨_, by simp [readUnit, ht], (afterDice_completes 1 ht).2 ⟨rest, _, hf, h⟩⟩
    | integer hn he => exact ⟨.integer t.int d, by simp [readUnit, hn], .inl ⟨he, h⟩⟩
    | counted hn hf => exact ⟨.integer t.int d, by simp [readUnit, hn], .inr ⟨rest, _, hf, h⟩⟩
    | positive hs hn => exact ⟨.signed false d, by simp [readUnit, hs], _, rest, rfl, hn, h⟩
    | negative hs hn => exact ⟨.signed true d, by simp [readUnit, hs], _, rest, rfl, hn, h⟩
    | group hl he hr =>
      refine ⟨.unit d.openGroup, by simp only [readUnit, hl]; rfl, ?_⟩
      exact openGroup_continues.2 ⟨_, rest, u, he, hr, h⟩
  · obtain ⟨stage, hs, h⟩ := h
    unfold readUnit at hs
    split at hs
    next ht =>
      cases hs
      obtain ⟨rest, faces, hf, hd⟩ := (afterDice_completes 1 ht).1 h
      exact ⟨rest, _, .dice hf, hd⟩
    next ht =>
      cases hs
      rcases h with ⟨he, hd⟩ | ⟨rest, faces, hf, hd⟩
      · exact ⟨ts, _, .integer ht he, hd⟩
      · exact ⟨rest, _, .counted ht hf, hd⟩
    next ht =>
      cases hs
      obtain ⟨n, rest, rfl, hn, hd⟩ := h
      exact ⟨rest, _, .positive ht hn, hd⟩
    next ht =>
      cases hs
      obtain ⟨n, rest, rfl, hn, hd⟩ := h
      exact ⟨rest, _, .negative ht hn, hd⟩
    next ht =>
      cases hs
      obtain ⟨r, rest, u, he, hr, hd⟩ := openGroup_continues.1 h
      exact ⟨rest, u, .group ht he hr, hd⟩
    next => cases hs

/-- Of an equation and the demand behind it, `t` takes the first token. -/
theorem named_cons :
    (∃ mid name rest u es', Names (t :: ts) mid name ∧
      Derives .greedy .exponentiation mid rest u ∧ K rest es' ∧ es = ⟨name, u⟩ :: es') ↔
    t.kind ≠ .endOfInput ∧
      ∃ stage, readEquation .unlimited t = .ok stage ∧ stage.Completes K ts es := by
  refine ⟨fun h => ?_, fun h => ?_⟩
  · obtain ⟨mid, name, rest, u, es', hn, hd, hs, rfl⟩ := h
    cases hn with
    | unnamed =>
      obtain ⟨stage, ht, h⟩ := continues_cons.1 (named_continues.2 ⟨_, _, _, hd, hs, rfl⟩)
      have he : t.kind ≠ .endOfInput := fun hk => by simp [readUnit, hk] at ht
      have hw : t.kind ≠ .word := fun hk => by simp [readUnit, hk] at ht
      refine ⟨he, stage, ?_, h⟩
      unfold readEquation
      split
      next hk => exact absurd hk he
      next hk => exact absurd hk hw
      next => exact ht
    | named hw he =>
      have ht := hw t (by simp)
      refine ⟨by simp [ht], .name [t.text], by simp [readEquation, ht], ?_⟩
      exact ⟨_, _, _, rfl, fun w hm => hw w (by simp [hm]), he,
        named_continues.2 ⟨_, _, _, hd, hs, rfl⟩⟩
  · obtain ⟨hend, stage, hs, h⟩ := h
    unfold readEquation at hs
    split at hs
    next ht => exact absurd ht hend
    next ht =>
      cases hs
      obtain ⟨more, e, mid, rfl, hm, he, h⟩ := h
      obtain ⟨rest, u, es', hu, hs, rfl⟩ := named_continues.1 h
      refine ⟨_, _, rest, u, es', .named ?_ he, hu, hs, rfl⟩
      simpa using ⟨ht, hm⟩
    next =>
      obtain ⟨rest, u, es', hu, hs, rfl⟩ := named_continues.1 (continues_cons.2 ⟨stage, hs, h⟩)
      exact ⟨_, _, rest, u, es', .unnamed, hu, hs, rfl⟩

theorem readOperator_operator {operand : Term} {op : Operator} (ho : t.kind.operator? = some op) :
    readOperator .unlimited operand d t =
      .ok (.unit (d.withOperator (d.level.waiting operand op))) := by
  unfold readOperator
  rw [ho]
  dsimp only
  split <;> rfl

theorem completes_of_no_operator {operand : Term} (ho : t.kind.operator? = none) :
    d.Completes K operand (t :: ts) es ↔
      Closes K d.name d.outer (d.level.exponentiation operand) (t :: ts) es := by
  simp only [Draft.Completes, Level.completes_of_no_operator ho]
  refine ⟨fun h => ?_, fun h => ?_⟩
  · obtain ⟨_, _, ⟨rfl, rfl⟩, h⟩ := h
    exact h
  · exact ⟨_, _, ⟨rfl, rfl⟩, h⟩

/-- Of what follows an operand, `t` takes the first token; the equation before it may turn out to be
complete. -/
theorem operator_completes {operand : Term} (hK : Demand.Takes K t ts) :
    d.Completes K operand (t :: ts) es ↔
      ∃ stage es', readOperator .unlimited operand d t = .ok stage ∧ stage.Completes K ts es' ∧
        es = (d.completed operand t).toList ++ es' := by
  cases ho : t.kind.operator? with
  | some op =>
    simp only [readOperator_operator ho, Draft.completed, ho, reduceCtorEq, false_and, if_false,
      Option.toList_none, List.nil_append]
    refine ⟨fun h => ?_, fun h => ?_⟩
    · obtain ⟨rest, e, hl, hc⟩ := h
      obtain ⟨mid, u, hu, hw⟩ := (Level.completes_operator ho).1 hl
      exact ⟨_, es, rfl, ⟨mid, u, hu, rest, e, hw, hc⟩, rfl⟩
    · obtain ⟨stage, _, hs, h, rfl⟩ := h
      cases hs
      obtain ⟨mid, u, hu, rest, e, hw, hc⟩ := h
      exact ⟨rest, e, (Level.completes_operator ho).2 ⟨mid, u, hu, hw⟩, hc⟩
  | none =>
    rw [completes_of_no_operator ho]
    cases hd : d.outer with
    | nil =>
      simp only [readOperator, ho, hd, Draft.completed, and_self, if_true, Option.toList_some,
        List.singleton_append]
      refine ⟨fun h => ?_, fun h => ?_⟩
      · obtain ⟨es', hs, rfl⟩ := h
        obtain ⟨stage, ht, h⟩ := (hK _).1 hs
        exact ⟨stage, es', ht, h, rfl⟩
      · obtain ⟨stage, es', ht, h, rfl⟩ := h
        exact ⟨es', (hK _).2 ⟨stage, ht, h⟩, rfl⟩
    | cons level outer =>
      simp only [readOperator, ho, hd, Draft.completed, reduceCtorEq, and_false, if_false,
        Option.toList_none, List.nil_append]
      refine ⟨fun h => ?_, fun h => ?_⟩
      · obtain ⟨r, mid, rest, t', hr, hk, hlevel, hc⟩ := h
        obtain ⟨rfl, rfl⟩ := List.cons.inj hr
        exact ⟨_, es, if_pos hk, ⟨rest, t', hlevel, hc⟩, rfl⟩
      · obtain ⟨stage, _, hs, h, rfl⟩ := h
        split at hs
        next hk =>
          cases hs
          obtain ⟨rest, t', hlevel, hc⟩ := h
          exact ⟨t, ts, rest, t', rfl, hk, hlevel, hc⟩
        next => cases hs

theorem name_completes {words : List String} : (Stage.name words).Completes K (t :: ts) es ↔
    ∃ stage, (Stage.name words).next .unlimited t = .ok stage ∧ stage.Completes K ts es := by
  refine ⟨fun h => ?_, fun h => ?_⟩
  · obtain ⟨more, e, mid, hi, hm, he, h⟩ := h
    cases more with
    | nil =>
      obtain ⟨rfl, rfl⟩ := List.cons.inj hi
      refine ⟨.unit (.named (" ".intercalate words.reverse)), by simp only [next, he], ?_⟩
      simpa [Completes] using h
    | cons w more =>
      obtain ⟨rfl, rfl⟩ := List.cons.inj hi
      refine ⟨.name (t.text :: words), by simp [next, hm t], ?_⟩
      exact ⟨more, e, mid, rfl, fun v hv => hm v (by simp [hv]), he, by simpa using h⟩
  · obtain ⟨stage, hs, h⟩ := h
    simp only [next] at hs
    split at hs
    next ht =>
      cases hs
      obtain ⟨more, e, mid, rfl, hm, he, h⟩ := h
      exact ⟨t :: more, e, mid, rfl, by simpa using ⟨ht, hm⟩, he, by simpa using h⟩
    next ht =>
      cases hs
      exact ⟨[], t, ts, rfl, List.forall_mem_nil _, ht, by simpa [Completes] using h⟩
    next => cases hs

/-- A stage that takes a number only, and makes the operand `f` of it. -/
theorem number_completes {wanting : Stage} {f : Int64 → Term}
    (hn : ∀ stage, wanting.next .unlimited t = .ok stage ↔
      t.kind = .integer ∧ stage = .operator (f t.int) d) :
    (∃ n rest, t :: ts = n :: rest ∧ n.kind = .integer ∧ d.Completes K (f n.int) rest es) ↔
      ∃ stage, wanting.next .unlimited t = .ok stage ∧ stage.Completes K ts es := by
  simp only [hn]
  refine ⟨fun h => ?_, fun h => ?_⟩
  · obtain ⟨n, rest, hi, hk, h⟩ := h
    obtain ⟨rfl, rfl⟩ := List.cons.inj hi
    exact ⟨_, ⟨hk, rfl⟩, h⟩
  · obtain ⟨_, ⟨hk, rfl⟩, h⟩ := h
    exact ⟨t, ts, rfl, hk, h⟩

theorem signed_completes {negative : Bool} : (Stage.signed negative d).Completes K (t :: ts) es ↔
    ∃ stage, (Stage.signed negative d).next .unlimited t = .ok stage ∧ stage.Completes K ts es :=
  number_completes (f := fun n => .int (if negative then -n else n)) fun _ => signed_next_eq_ok_iff

theorem faces_completes {count : Int64} : (Stage.faces count d).Completes K (t :: ts) es ↔
    ∃ stage, (Stage.faces count d).next .unlimited t = .ok stage ∧ stage.Completes K ts es :=
  number_completes (f := .dice count) fun _ => faces_next_eq_ok_iff

theorem integer_completes_dice {value : Int64} (ht : t.kind = .dice) :
    (Stage.integer value d).Completes K (t :: ts) es ↔
      ∃ rest faces, Faces (t :: ts) rest faces ∧ d.Completes K (.dice value faces) rest es := by
  refine ⟨fun h => ?_, .inr⟩
  obtain ⟨he, -⟩ | h := h
  · exact absurd ht (by simpa using greedy_ends_cons.1 he)
  · exact h

theorem integer_completes_operand {value : Int64} (ht : t.kind ≠ .dice) :
    (Stage.integer value d).Completes K (t :: ts) es ↔ d.Completes K (.int value) (t :: ts) es := by
  refine ⟨fun h => ?_, fun h => ?_⟩
  · obtain ⟨-, h⟩ | ⟨rest, faces, hf, -⟩ := h
    · exact h
    · cases hf <;> contradiction
  · exact .inl ⟨greedy_ends_cons.2 (by simpa using ht), h⟩

theorem integer_completes {value : Int64} (hK : Demand.Takes K t ts) :
    (Stage.integer value d).Completes K (t :: ts) es ↔ ∃ stage es',
      (Stage.integer value d).next .unlimited t = .ok stage ∧ stage.Completes K ts es' ∧
        es = ((Stage.integer value d).completed t).toList ++ es' := by
  by_cases ht : t.kind = .dice
  · have hn : (Stage.integer value d).next .unlimited t = .ok (afterDice value t d) := by
      simp only [next, ht]
    rw [integer_completes_dice ht, ← afterDice_completes value ht]
    simp [hn, completed, ht]
  · have hn : (Stage.integer value d).next .unlimited t =
        readOperator .unlimited (.int value) d t := next_integer ht
    simp only [hn, completed, ht, if_false]
    rw [integer_completes_operand ht, operator_completes hK]

/-- **One step of the reader** takes the first token off what a stage demands. -/
theorem completes_cons {stage : Stage} (hK : Demand.Takes K t ts) :
    stage.Completes K (t :: ts) es ↔
      ∃ next es', stage.next .unlimited t = .ok next ∧ next.Completes K ts es' ∧
        es = (stage.completed t).toList ++ es' := by
  cases stage with
  | equation => simpa [completed, Completes, next] using hK es
  | name words => simp [completed, name_completes]
  | unit d => simp [completed, Completes, continues_cons, next]
  | signed negative d => simp [completed, signed_completes]
  | faces count d => simp [completed, faces_completes]
  | integer value d => exact integer_completes hK
  | operator operand d => exact operator_completes hK

end Stage

/-! ## A whole reading -/

theorem reverse_toList (o : Option α) : o.toList.reverse = o.toList := by cases o <;> rfl

theorem Stage.spells_takes {t : Token} {ts : List Token} (hend : t.kind = .endOfInput → ts = []) :
    Demand.Takes (Spells .greedy) t ts := by
  intro es
  by_cases ht : t.kind = .endOfInput
  · obtain rfl := hend ht
    refine ⟨fun h => ?_, fun h => ?_⟩
    · cases h with
      | nil => exact ⟨.equation, readEquation_endOfInput ht, rfl⟩
      | cons hn hd hs => exact absurd ht (named_cons.1 ⟨_, _, _, _, _, hn, hd, hs, rfl⟩).1
    · obtain ⟨stage, hs, h⟩ := h
      cases (readEquation_endOfInput ht).symm.trans hs
      cases h
      exact .nil ht
  · refine ⟨fun h => ?_, fun h => ?_⟩
    · cases h with
      | nil hk => exact absurd hk ht
      | cons hn hd hs => exact (named_cons.1 ⟨_, _, _, _, _, hn, hd, hs, rfl⟩).2
    · obtain ⟨_, _, _, _, _, hn, hd, hs, rfl⟩ := named_cons.2 ⟨ht, h⟩
      exact .cons hn hd hs

/-- From a stage on, the reader reads exactly the equations that the tokens complete. -/
theorem run_eq_ok_iff {input : List Token} (hi : Terminated input) :
    ∀ {stage : Stage} {done : List Equation} {r : Reading},
      Reading.run .unlimited ⟨done, stage⟩ input = .ok r ↔
        ∃ es, stage.Completes (Spells .greedy) input es ∧ r = ⟨es.reverse ++ done, .equation⟩ := by
  induction hi with
  | last ht =>
    intro stage done r
    simp only [Reading.run_cons_eq_ok_iff, Reading.run_nil,
      Stage.completes_cons (Stage.spells_takes fun _ => rfl)]
    refine ⟨fun h => ?_, fun h => ?_⟩
    · obtain ⟨next, hn, hr⟩ := h
      cases hr
      obtain rfl := Stage.next_endOfInput ht hn
      exact ⟨_, ⟨_, [], hn, rfl, rfl⟩, by simp [reverse_toList]⟩
    · obtain ⟨_, ⟨next, es', hn, h, rfl⟩, rfl⟩ := h
      obtain rfl := Stage.next_endOfInput ht hn
      obtain rfl : es' = [] := h
      exact ⟨_, hn, by simp [reverse_toList]⟩
  | cons ht _ ih =>
    intro stage done r
    simp only [Reading.run_cons_eq_ok_iff,
      Stage.completes_cons (Stage.spells_takes fun h => absurd h ht), ih]
    refine ⟨fun h => ?_, fun h => ?_⟩
    · obtain ⟨next, hn, es', h, rfl⟩ := h
      exact ⟨_, ⟨next, es', hn, h, rfl⟩, by simp [reverse_toList]⟩
    · obtain ⟨_, ⟨next, es', hn, h, rfl⟩, rfl⟩ := h
      exact ⟨next, hn, es', h, by simp [reverse_toList]⟩

/-- Without limits, the formula that tokens give is the one they spell greedily. -/
theorem ofTokens_unlimited_iff {tokens : List Token} (ht : Terminated tokens) {f : Formula} :
    Formula.ofTokens .unlimited tokens = .ok f ↔ Spells .greedy tokens f.equations := by
  simp only [Formula.ofTokens_eq_ok_iff, Reading.start, run_eq_ok_iff ht]
  have hc {es : List Equation} :
      Stage.equation.Completes (Spells .greedy) tokens es ↔ Spells .greedy tokens es := by
    cases ht <;> exact Iff.rfl
  refine ⟨fun h => ?_, fun h => ?_⟩
  · obtain ⟨_, ⟨es, h, rfl⟩, hf⟩ := h
    simpa [hf, hc] using h
  · exact ⟨_, ⟨_, hc.2 h, rfl⟩, by simp⟩

end DiceNotation
