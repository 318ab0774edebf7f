/-
Formulas one behind the other. Where a text can end and a token comes instead
that carries nothing on, the reader is as far as at the end of the text
(`Reading.run_seam`), and the equations it has read by then have no part in
those to come (`Reading.run_behind`). So the text of a formula, a separator and
the text of another are the text of both (`parse_append`).
-/
import DiceNotation.Proofs.Layout
import DiceNotation.Proofs.Limits
import DiceNotation.Proofs.RoundTrip

namespace DiceNotation

/-- A token of the kind carries on nothing that can end in front of it: it starts an equation, or it
is the end of the input. -/
def Kind.breaks (kind : Kind) : Bool := kind ∈ [Kind.word, .integer, .leftParen, .endOfInput]

theorem Kind.operator?_of_breaks {kind : Kind} (h : kind.breaks = true) :
    kind.operator? = none ∧ kind ≠ .dice := by
  cases kind <;> simp [breaks, operator?] at h ⊢

/-! ## Where a text can end -/

namespace Stage

variable {limits : Limits} {stage stage' : Stage} {d : Draft} {operand : Term} {t u : Token}

theorem completed_congr (ht : t.kind.breaks = true) (hu : u.kind.breaks = true) :
    stage.completed t = stage.completed u := by
  obtain ⟨hto, htd⟩ := Kind.operator?_of_breaks ht
  obtain ⟨huo, hud⟩ := Kind.operator?_of_breaks hu
  have hd (d : Draft) (operand : Term) : d.completed operand t = d.completed operand u := by
    rw [Draft.completed, Draft.completed, hto, huo]
  cases stage with
  | equation | name | unit | signed | faces => rfl
  | integer value d =>
    rw [completed, completed, if_neg htd, if_neg hud]
    exact hd d (.int value)
  | operator operand d => exact hd d operand

theorem starts_congr (ht : t.kind.breaks = true) (hu : u.kind.breaks = true) :
    stage.starts t = stage.starts u := by
  rw [starts, starts, completed_congr ht hu]

theorem readOperator_completed_of_end (ht : t.kind = .endOfInput)
    (h : readOperator limits operand d t = .ok stage) : (d.completed operand t).isSome = true := by
  have ho : t.kind.operator? = none := by rw [ht]; rfl
  refine completed_isSome_iff.2 ⟨ho, ?_⟩
  cases hd : d.outer with
  | nil => rfl
  | cons level outer => simp [readOperator, ht, Kind.operator?, hd] at h

theorem starts_of_end (ht : t.kind = .endOfInput) (h : stage.next limits t = .ok stage') :
    stage.starts t = true := by
  have hdice : t.kind ≠ .dice := by rw [ht]; nofun
  cases stage with
  | equation => rfl
  | name words => simp [next, ht] at h
  | unit d => simp [next, readUnit_endOfInput ht] at h
  | signed negative d => simp [next, ht] at h
  | faces count d => simp [next, ht] at h
  | integer value d =>
    rw [next_integer hdice] at h
    rw [starts, completed, if_neg hdice, readOperator_completed_of_end ht h, Bool.or_true]
  | operator operand d =>
    rw [starts, completed, readOperator_completed_of_end ht h, Bool.or_true]

end Stage

/-! ## Reading on -/

namespace Reading

variable {limits : Limits} {r : Reading} {e t : Token} {before ts : List Token}

/-- **The seam.** Behind all that the input can end with, a token that carries nothing on is read as
it is behind the equations that are read by then. -/
theorem run_seam (he : e.kind = .endOfInput) (h : run limits .start (before ++ [e]) = .ok r)
    (ht : t.kind.breaks = true) :
    run limits .start (before ++ t :: ts) = run limits ⟨r.done, .equation⟩ (t :: ts) := by
  have hebreaks : e.kind.breaks = true := by rw [he]; rfl
  rw [run_append] at h ⊢
  cases hb : run limits .start before with
  | error x =>
    rw [hb] at h
    cases h
  | ok r' =>
    rw [hb] at h
    obtain ⟨stage, hn, hr⟩ := run_cons_eq_ok_iff.1 h
    cases hr
    have hstarts : r'.stage.starts t = true := by
      rw [Stage.starts_congr ht hebreaks]
      exact Stage.starts_of_end he hn
    change run limits ⟨r'.done, r'.stage⟩ (t :: ts) = _
    rw [run_of_starts r'.done hstarts, Stage.completed_congr ht hebreaks]

end Reading

/-- **Formulas compose.** Where two texts are formulas and the second has no tokens or starts with a
word, an integer or a group, the first, a separator and the second are the formula of the equations
of both. How many these are does not matter, since the limits are on single equations. -/
theorem parse_append (text₁ text₂ : String) (c : Char) (f₁ f₂ : Formula)
    (h₁ : Formula.parse (.ofText text₁) = .ok f₁) (h₂ : Formula.parse (.ofText text₂) = .ok f₂)
    (hc : Text.isSeparator c = true)
    (ht : ∀ t ∈ (Source.ofText text₂).tokens.head?, t.kind.breaks = true) :
    Formula.parse (.ofText (text₁ ++ String.singleton c ++ text₂)) =
      .ok ⟨f₁.equations ++ f₂.equations⟩ := by
  obtain ⟨r₁, hr₁, he₁⟩ := Formula.parse_ofText_eq_ok_iff.1 h₁
  obtain ⟨r₂, hr₂, he₂⟩ := Formula.parse_ofText_eq_ok_iff.1 h₂
  obtain ⟨e, he, hk⟩ := (spelled_terminated text₁.toList).exists_eq_append
  obtain ⟨t, ts, hts⟩ := List.exists_cons_of_ne_nil (spelled_terminated text₂.toList).ne_nil
  have htext : (text₁ ++ String.singleton c ++ text₂).toList =
      text₁.toList ++ ([c] ++ text₂.toList) := by
    simp
  have hbreaks : t.kind.breaks = true := by
    rw [← tokens_ofText_bare, List.map_eq_cons_iff] at hts
    obtain ⟨t', ts', hts, rfl, -⟩ := hts
    exact ht t' (by rw [hts]; rfl)
  have hrun : Reading.run (.atMost 64 1000) .start
      (spelled (text₁.toList ++ ([c] ++ text₂.toList))) =
        .ok ⟨r₂.done ++ r₁.done, r₂.stage⟩ := by
    rw [he] at hr₁
    rw [spelled_row (List.cons_ne_nil c []) (List.forall_mem_singleton.2 hc), hts,
      Reading.run_seam hk hr₁ hbreaks, ← hts, ← List.nil_append r₁.done, Reading.run_behind]
    exact congrArg _ hr₂
  refine Formula.parse_ofText_eq_ok_iff.2 ⟨_, htext ▸ hrun, ?_⟩
  rw [he₁, he₂, List.reverse_append]

/-- Where an equation ends shows at the next token alone: behind the comma here a name starts. -/
theorem parse_append_named :
    Formula.parse (.ofText "d6") = .ok ⟨[⟨"", .dice 1 6⟩]⟩ ∧
      Formula.parse (.ofText "hit = 2") = .ok ⟨[⟨"hit", .int 2⟩]⟩ ∧
      Formula.parse (.ofText ("d6" ++ String.singleton ',' ++ "hit = 2")) =
        .ok ⟨[⟨"", .dice 1 6⟩] ++ [⟨"hit", .int 2⟩]⟩ := by
  have h₁ : Formula.parse (.ofText "d6") = .ok ⟨[⟨"", .dice 1 6⟩]⟩ := by decide +kernel
  have h₂ : Formula.parse (.ofText "hit = 2") = .ok ⟨[⟨"hit", .int 2⟩]⟩ := by decide +kernel
  have ht : ∀ t ∈ (Source.ofText "hit = 2").tokens.head?, t.kind.breaks = true := by
    decide +kernel
  exact ⟨h₁, h₂, parse_append "d6" "hit = 2" ',' _ _ h₁ h₂ (by decide) ht⟩

end DiceNotation
