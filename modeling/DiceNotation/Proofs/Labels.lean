/-
Labels tell results apart. A label is an ordinal, which starts with a digit and
gives its place away (`ordinal_injective`), or a name, which starts as words do
and gives its words away (`intercalate_injective`). So two equations of a formula
have one label only if the source names both with the same words, and labels that
differ are shown differently as Markdown (`labels_unambiguous`).
-/
import DiceNotation.Proofs.Acceptance
import DiceNotation.Proofs.Positions
import DiceNotation.Proofs.Ranges
import DiceNotation.Proofs.Unescaping

namespace DiceNotation

open Text.Markdown (escape)

/-- The words name the equation at place `i` of the equations that `tokens` spell: behind the `i`
before it stand words with these texts and an equals sign. -/
def NamedAt (tokens : List Token) (i : Nat) (words : List String) : Prop :=
  ∃ es ws equals rest, Equations .greedy tokens (ws ++ equals :: rest) es ∧ es.length = i ∧
    (∀ w ∈ ws, w.kind = .word) ∧ equals.kind = .equal ∧ words ≠ [] ∧ words = ws.map Token.text

/-! ## Ordinals -/

theorem isDigit_of_mem_ofNat {n : Nat} {c : Char} (h : c ∈ (Text.Decimal.ofNat n).toList) :
    c.isDigit = true := by
  rw [Text.Decimal.ofNat, Nat.toList_repr] at h
  exact Nat.isDigit_of_mem_toDigits (by decide) (by decide) h

theorem ordinalEnding_mem (n : Nat) : ordinalEnding n ∈ ["st", "nd", "rd", "th"] := by
  unfold ordinalEnding
  split
  · decide
  · split <;> decide

theorem takeWhile_ordinal (n : Nat) :
    (ordinal n).toList.takeWhile Char.isDigit = (Text.Decimal.ofNat n).toList := by
  have hending : ∀ s ∈ ["st", "nd", "rd", "th"], s.toList.takeWhile Char.isDigit = [] := by decide
  rw [ordinal, String.toList_append,
    List.takeWhile_append_of_pos fun _ => isDigit_of_mem_ofNat,
    hending _ (ordinalEnding_mem n), List.append_nil]

theorem ordinal_injective {m n : Nat} (h : ordinal m = ordinal n) : m = n := by
  have hdigits := congrArg (fun s => s.toList.takeWhile Char.isDigit) h
  simp only [takeWhile_ordinal, Text.Decimal.ofNat, Nat.toList_repr] at hdigits
  calc
    m = Nat.ofDigitChars 10 (Nat.toDigits 10 m) 0 := Nat.ofDigitChars_ten_toDigits.symm
    _ = Nat.ofDigitChars 10 (Nat.toDigits 10 n) 0 := by rw [hdigits]
    _ = n := Nat.ofDigitChars_ten_toDigits

theorem exists_ordinal_start (n : Nat) : ∃ c cs, (ordinal n).toList = c :: cs ∧
    c.isDigit = true := by
  have hne : (Text.Decimal.ofNat n).toList ≠ [] := by
    rw [Text.Decimal.ofNat, Nat.toList_repr]
    exact Nat.toDigits_ne_nil
  obtain ⟨c, cs, hcs⟩ := List.exists_cons_of_ne_nil hne
  refine ⟨c, cs ++ (ordinalEnding n).toList, ?_, isDigit_of_mem_ofNat (hcs ▸ List.mem_cons_self)⟩
  rw [ordinal, String.toList_append, hcs]
  rfl

/-! ## Names -/

/-- No name is an ordinal: a name starts as words do. -/
theorem IsName.ne_ordinal {name : String} (h : IsName name) (n : Nat) : name ≠ ordinal n := by
  rintro rfl
  obtain ⟨d, ds, hds, hd⟩ := exists_ordinal_start n
  have hne : ordinal n ≠ "" := by
    intro he
    rw [he] at hds
    cases hds
  obtain ⟨c, cs, hcs, hc⟩ := h.exists_start hne
  obtain ⟨rfl, -⟩ := List.cons.inj (hds.symm.trans hcs)
  rcases hc with hc | rfl
  · rw [not_isLetter_of_isDigit hd] at hc
    cases hc
  · revert hd
    decide

theorem isWordPart_of_mem_word {w : String} (h : LexesAsWord w) {c : Char} (hc : c ∈ w.toList) :
    isWordPart c = true := by
  have hw := lexesAsWord_iff.1 h
  generalize w.toList = cs at hw hc
  obtain ⟨-, -, hstart, hcs, -⟩ := hw
  rcases List.mem_cons.1 hc with rfl | hc
  · exact isWordPart_iff.2 ((isWordStart_iff.1 hstart).imp_right .inr)
  · exact hcs c hc

theorem intercalate_injective {words words' : List String} (hne : words ≠ []) (hne' : words' ≠ [])
    (hw : ∀ w ∈ words, LexesAsWord w) (hw' : ∀ w ∈ words', LexesAsWord w)
    (h : " ".intercalate words = " ".intercalate words') : words = words' := by
  have hsplit {ws : List String} (hne : ws ≠ []) (hws : ∀ w ∈ ws, LexesAsWord w) :
      (" ".intercalate ws).toList.splitOn ' ' = ws.map String.toList := by
    rw [String.toList_intercalate]
    refine List.splitOn_intercalate ' ' ?_ (by simpa using hne)
    intro cs hcs hspace
    obtain ⟨w, hmem, rfl⟩ := List.mem_map.1 hcs
    have hpart := isWordPart_of_mem_word (hws w hmem) hspace
    revert hpart
    decide +kernel
  have hlists := congrArg (fun s => s.toList.splitOn ' ') h
  simp only [hsplit hne hw, hsplit hne' hw'] at hlists
  exact (List.map_inj_right fun _ _ => String.toList_inj.1).1 hlists

theorem IsName.mem {name : String} (h : IsName name) {c : Char} (hc : c ∈ name.toList) :
    c = ' ' ∨ isWordPart c = true := by
  rcases h with rfl | ⟨words, hne, rfl, hw⟩
  · cases hc
  induction words with
  | nil => exact absurd rfl hne
  | cons w ws ih =>
    obtain ⟨hword, hws⟩ := List.forall_mem_cons.1 hw
    cases ws with
    | nil =>
      rw [String.intercalate_singleton] at hc
      exact .inr (isWordPart_of_mem_word hword hc)
    | cons v ws =>
      rw [String.intercalate_cons_cons] at hc
      simp only [String.toList_append, List.mem_append] at hc
      rcases hc with (hc | hc) | hc
      · exact .inr (isWordPart_of_mem_word hword hc)
      · exact .inl (by simpa using hc)
      · exact ih (by simp) hws hc

/-! ## Labels -/

variable {name name' : String} {i j : Nat}

/-- Two labels are the same only if they are one name, or one ordinal of one place. -/
theorem label_eq_iff (h : IsName name) (h' : IsName name') :
    label name i = label name' j ↔ name = name' ∧ (name = "" → i = j) := by
  simp only [label, String.isEmpty_iff]
  by_cases hn : name = ""
  · by_cases hn' : name' = ""
    · rw [if_pos hn, if_pos hn']
      refine ⟨fun he => ?_, fun he => ?_⟩
      · exact ⟨hn.trans hn'.symm, fun _ => Nat.succ_inj.1 (ordinal_injective he)⟩
      · rw [he.2 hn]
    · rw [if_pos hn, if_neg hn']
      refine iff_of_false (fun he => h'.ne_ordinal _ he.symm) ?_
      rintro ⟨rfl, -⟩
      exact hn' hn
  · by_cases hn' : name' = ""
    · rw [if_neg hn, if_pos hn']
      refine iff_of_false (h.ne_ordinal _) ?_
      rintro ⟨rfl, -⟩
      exact hn hn'
    · rw [if_neg hn, if_neg hn']
      exact (and_iff_left fun he => absurd he hn).symm

theorem mem_label (h : IsName name) {c : Char} (hc : c ∈ (label name i).toList) :
    c = ' ' ∨ isWordPart c = true := by
  unfold label at hc
  split at hc
  · have hending : ∀ s ∈ ["st", "nd", "rd", "th"], s.toList.all Text.isLetter = true := by decide
    rw [ordinal, String.toList_append, List.mem_append] at hc
    rcases hc with hc | hc
    · exact .inr (isWordPart_of_isDigit (isDigit_of_mem_ofNat hc))
    · have hletter := List.all_eq_true.1 (hending _ (ordinalEnding_mem _)) c hc
      exact .inr (isWordPart_iff.2 (.inl hletter))
  · exact h.mem hc

theorem Text.letters_visible : Apart letterRanges invisibleRanges := by decide +kernel

theorem Text.numerals_visible : Apart numeralRanges invisibleRanges := by decide +kernel

theorem isGraphic_of_mem_label (h : IsName name) {c : Char} (hc : c ∈ (label name i).toList) :
    Text.isGraphic c = true := by
  rw [Text.isGraphic, Bool.not_eq_true']
  rcases mem_label h hc with rfl | hc
  · decide
  · rcases isWordPart_iff.1 hc with hc | hc | rfl
    · exact Text.letters_visible.not_inRanges hc
    · exact Text.numerals_visible.not_inRanges hc
    · decide

theorem Text.Markdown.escape_injective {s t : String} (hs : ∀ c ∈ s.toList, isGraphic c = true)
    (ht : ∀ c ∈ t.toList, isGraphic c = true) (h : escape s = escape t) : s = t := by
  have hgraphic := escape_eq_iff.1 h
  rw [graphic, graphic, List.filter_eq_self.2 hs, List.filter_eq_self.2 ht] at hgraphic
  exact String.toList_inj.1 hgraphic

/-! ## Names in a source -/

theorem NamedAt.lexesAsWord {s : Source} {words : List String} (h : NamedAt s.tokens i words) :
    ∀ w ∈ words, LexesAsWord w := by
  obtain ⟨es, ws, equals, rest, hes, -, hw, -, -, rfl⟩ := h
  intro w hmem
  obtain ⟨t, ht, rfl⟩ := List.mem_map.1 hmem
  exact lexesAsWord_iff.2 (Lexer.isWord_of_mem _ t (hes.suffix.subset (by simp [ht])) (hw t ht))

theorem Formula.exists_namedAt {s : Source} {f : Formula} (h : parse s = .ok f) {e : Equation}
    (he : f.equations[i]? = some e) (hne : e.name ≠ "") :
    ∃ words, NamedAt s.tokens i words ∧ words ≠ [] ∧ e.name = " ".intercalate words := by
  obtain ⟨input, mid, hes, hn⟩ := ((spells_of_parse h).2 rfl).exists_equations he
  have hlen : (f.equations.take i).length = i := by
    obtain ⟨hi, -⟩ := List.getElem?_eq_some_iff.1 he
    rw [List.length_take]
    omega
  generalize e.name = name at hn hne
  cases hn with
  | unnamed => exact absurd rfl hne
  | @named w ws equals rest hw hk =>
    exact ⟨_, ⟨_, w :: ws, equals, mid, hes, hlen, hw, hk, by simp, rfl⟩, by simp, rfl⟩

/-- **Labels are unambiguous.** Of the equations of a formula two have one label only if the source
names both with the same words. So no name is an ordinal, equations without a name have labels of
their own, and labels that differ are shown differently as Markdown. -/
theorem labels_unambiguous (s : Source) (f : Formula) (h : Formula.parse s = .ok f) :
    (∀ i j e e', i ≠ j → f.equations[i]? = some e → f.equations[j]? = some e' →
      label e.name i = label e'.name j →
        ∃ words, NamedAt s.tokens i words ∧ NamedAt s.tokens j words ∧
          e.name = " ".intercalate words ∧ e'.name = " ".intercalate words) ∧
    (∀ e ∈ f.equations, ∀ n, e.name ≠ ordinal n) ∧
    (∀ i j e e', i ≠ j → f.equations[i]? = some e → f.equations[j]? = some e' →
      e.name = "" → e'.name = "" → label e.name i ≠ label e'.name j) ∧
    ∀ i j e e', f.equations[i]? = some e → f.equations[j]? = some e' →
      label e.name i ≠ label e'.name j → escape (label e.name i) ≠ escape (label e'.name j) := by
  have hname {i : Nat} {e : Equation} (he : f.equations[i]? = some e) : IsName e.name :=
    (Formula.sound_of_parse h e (List.mem_of_getElem? he)).1.1
  refine ⟨?_, ?_, ?_, ?_⟩
  · intro i j e e' hij he he' hl
    obtain ⟨hn, hplace⟩ := (label_eq_iff (hname he) (hname he')).1 hl
    have hne : e.name ≠ "" := fun hempty => hij (hplace hempty)
    obtain ⟨words, hw, hwne, hwords⟩ := Formula.exists_namedAt h he hne
    obtain ⟨words', hw', hwne', hwords'⟩ := Formula.exists_namedAt h he' (hn ▸ hne)
    obtain rfl := intercalate_injective hwne hwne' hw.lexesAsWord hw'.lexesAsWord
      (hwords.symm.trans (hn.trans hwords'))
    exact ⟨words, hw, hw', hwords, hwords'⟩
  · intro e he n
    exact (Formula.sound_of_parse h e he).1.1.ne_ordinal n
  · intro i j e e' hij he he' hempty _ hl
    exact hij (((label_eq_iff (hname he) (hname he')).1 hl).2 hempty)
  · intro i j e e' he he' hl hescape
    exact hl (Text.Markdown.escape_injective (fun _ => isGraphic_of_mem_label (hname he))
      (fun _ => isGraphic_of_mem_label (hname he')) hescape)

/-- In `a b=1 2 a,b=3` the first equation and the third have one label, and are named alike. -/
theorem same_label_of_same_words :
    Formula.parse (.ofText "a b=1 2 a,b=3") =
        .ok ⟨[⟨"a b", .int 1⟩, ⟨"", .int 2⟩, ⟨"a b", .int 3⟩]⟩ ∧
      label "a b" 0 = label "a b" 2 ∧ ∃ words,
        NamedAt (Source.ofText "a b=1 2 a,b=3").tokens 0 words ∧
        NamedAt (Source.ofText "a b=1 2 a,b=3").tokens 2 words ∧
        "a b" = " ".intercalate words ∧ "a b" = " ".intercalate words :=
  have hparse := by decide +kernel
  ⟨hparse, by decide, (labels_unambiguous _ _ hparse).1 0 2 _ _ (by decide) rfl rfl (by decide)⟩

end DiceNotation
