/-
Layout says nothing. No token holds a separator, so none reaches over one
(`Munch.cut`): wherever tokens end, separators can be put in, and a row of them
can be another one, and the tokens keep their kinds and texts
(`Relaid.spelled_eq`); anywhere else a separator changes them
(`Whole.of_spelled_eq`). What the reader makes of tokens depends on kinds and
texts alone, but for the place of an error (`Formula.alike_of_spelling`).
-/
import DiceNotation.Proofs.Positions

namespace DiceNotation

/-! ## Texts with another layout -/

/-- The kinds and texts of the tokens of a source. -/
def Source.spelling (s : Source) : List (Kind × String) := s.tokens.map fun t => (t.kind, t.text)

/-- In front of `after` the characters `before` are made of whole tokens and separators, so there is
a place between two tokens, or at an end, between `before` and `after`. -/
inductive Whole : List Char → List Char → Prop
  | gap : (∀ c ∈ gap, Text.isSeparator c = true) → Whole gap after
  | token : (∀ c ∈ gap, Text.isSeparator c = true) → Munch kind cs (more ++ after) →
      Whole more after → Whole (gap ++ (cs ++ more)) after

/-- The second text is the first with separators put in at an end or between two tokens, or with one
row of separators in place of another. -/
inductive Relaid : List Char → List Char → Prop
  | front : (∀ c ∈ gap, Text.isSeparator c = true) → Relaid text (gap ++ text)
  | back : (∀ c ∈ gap, Text.isSeparator c = true) → Relaid text (text ++ gap)
  | between : Whole before after → (∀ c ∈ gap, Text.isSeparator c = true) →
      Relaid (before ++ after) (before ++ (gap ++ after))
  | exchange : gap ≠ [] → (∀ c ∈ gap, Text.isSeparator c = true) →
      gap' ≠ [] → (∀ c ∈ gap', Text.isSeparator c = true) →
      Relaid (before ++ (gap ++ after)) (before ++ (gap' ++ after))

/-- The results are the same formula, or errors that differ in their places at most. -/
inductive Alike : Except SyntaxError Formula → Except SyntaxError Formula → Prop
  | ok : Alike (.ok f) (.ok f)
  | error : e.expected = e'.expected → e.received.kind = e'.received.kind →
      e.received.text = e'.received.text → Alike (.error e) (.error e')

/-! ## Tokens hold no separators -/

theorem Text.numerals_apart : Apart numeralRanges separatorRanges := by decide +kernel

theorem isSeparator_of_isWordPart {c : Char} (h : isWordPart c = true) :
    Text.isSeparator c = false := by
  rcases isWordPart_iff.1 h with h | h | rfl
  · exact Text.letters_apart.not_inRanges h
  · exact Text.numerals_apart.not_inRanges h
  · decide

theorem Pattern.isSeparator_of_mem {kind : Kind} {cs : List Char} (h : Pattern kind cs) :
    ∀ d ∈ cs, Text.isSeparator d = false := by
  obtain ⟨c, cs, rfl⟩ := List.exists_cons_of_ne_nil h.ne_nil
  rcases h.cons_cases with ⟨hc, rfl⟩ | ⟨hc, hcs⟩ | ⟨hc, hcs⟩
  · exact List.forall_mem_singleton.2 (isSeparator_of_sign hc)
  · exact List.forall_mem_cons.2
      ⟨isSeparator_of_isDigit hc, fun d hd => isSeparator_of_isDigit (hcs d hd)⟩
  · exact List.forall_mem_cons.2
      ⟨isSeparator_of_isWordStart hc, fun d hd => isSeparator_of_isWordPart (hcs d hd)⟩

theorem Pattern.isPrefix_of_separator {kind : Kind} {cs before after : List Char} {c : Char}
    (h : Pattern kind cs) (hc : Text.isSeparator c = true) (hp : cs <+: before ++ c :: after) :
    cs <+: before := by
  have hnot : c ∉ cs := fun hm => by
    rw [h.isSeparator_of_mem c hm] at hc
    cases hc
  have hcut : before ++ [c] <+: before ++ c :: after :=
    (List.prefix_append_right_inj before).2 (List.prefix_append [c] after)
  rcases List.prefix_or_prefix_of_prefix hp hcut with hle | hge
  · rcases List.prefix_concat_iff.1 hle with rfl | hle
    · simp at hnot
    · exact hle
  · exact absurd (hge.subset (by simp)) hnot

/-! ## Tokens in front of separators -/

/-- A token stands in front of other characters too if these carry nothing on that looks like a
token. -/
theorem Munch.of_isPrefix {kind : Kind} {cs more more' : List Char} (h : Munch kind cs more)
    (hp : ∀ kind' cs', Pattern kind' cs' → cs' <+: cs ++ more' → cs' <+: cs ++ more) :
    Munch kind cs more' := by
  cases h with
  | longest hk hl hd =>
    exact .longest hk (fun kind' cs' h' hpre => hl kind' cs' h' (hp kind' cs' h' hpre)) hd
  | unrecognized hs hn =>
    exact .unrecognized hs fun kind' cs' h' hpre => hn kind' cs' h' (hp kind' cs' h' hpre)

theorem Munch.of_append {kind : Kind} {cs more after : List Char}
    (h : Munch kind cs (more ++ after)) : Munch kind cs more :=
  h.of_isPrefix fun _ _ _ hp => by
    rw [← List.append_assoc]
    exact hp.trans (List.prefix_append _ _)

theorem Munch.cut {kind : Kind} {cs more after after' : List Char} {c : Char}
    (h : Munch kind cs (more ++ after)) (hc : Text.isSeparator c = true) :
    Munch kind cs (more ++ c :: after') :=
  h.of_append.of_isPrefix fun _ _ hk hp => by
    rw [← List.append_assoc] at hp
    exact hk.isPrefix_of_separator hc hp

theorem Whole.cut {before after after' : List Char} {c : Char} (h : Whole before after)
    (hc : Text.isSeparator c = true) : Whole before (c :: after') := by
  induction h with
  | gap hg => exact .gap hg
  | token hg hm _ ih => exact .token hg (hm.cut hc) ih

theorem exists_eq_append_of_map {cs text : List Char} {items : List Item}
    (h : cs.map .char ++ items = text.map .char) :
    ∃ rest, text = cs ++ rest ∧ items = rest.map .char := by
  obtain ⟨cs', rest, rfl, hcs, hrest⟩ := List.append_eq_map_iff.1 h
  obtain rfl := List.map_injective_iff.2 (fun _ _ => Item.char.inj) hcs
  exact ⟨rest, rfl, hrest.symm⟩

theorem Tokenized.whole {items : List Item} {ts : List Token} {text : List Char}
    (h : Tokenized items ts) (hi : items = text.map .char) : Whole text [] := by
  induction h generalizing text with
  | endOfInput hg =>
    obtain rfl := List.map_injective_iff.2 (fun _ _ => Item.char.inj) hi
    exact .gap hg
  | malformed =>
    obtain ⟨rest, -, hb⟩ := exists_eq_append_of_map hi
    cases rest <;> cases hb
  | munch hg hm _ _ ih =>
    obtain ⟨rest, rfl, hr⟩ := exists_eq_append_of_map hi
    obtain ⟨more, rfl, rfl⟩ := exists_eq_append_of_map hr
    rw [runOf_map_char, ← List.append_nil more] at hm
    exact .token hg hm (ih rfl)

theorem whole_text (text : List Char) : Whole text [] :=
  (Lexer.tokenized_tokens ⟨text.map .char, .start, false⟩).whole rfl

/-! ## What is spelled -/

theorem spelled_gap {gap after : List Char} (hg : ∀ c ∈ gap, Text.isSeparator c = true) :
    spelled (gap ++ after) = spelled after := by
  induction gap with
  | nil => rfl
  | cons c gap ih =>
    obtain ⟨hc, hg⟩ := List.forall_mem_cons.1 hg
    rw [List.cons_append, spelled_separator hc, ih hg]

theorem spelled_munch {kind : Kind} {cs more : List Char} (h : Munch kind cs more) :
    spelled (cs ++ more) = .plain kind cs :: spelled more := by
  obtain ⟨c, cs, rfl⟩ := List.exists_cons_of_ne_nil h.ne_nil
  have hc := h.isSeparator_head
  obtain ⟨kind', cs', rest, hl, hi, hm⟩ := munches ((cs ++ more).map .char) hc
  have hrun : cs ++ more = cs' ++ runOf rest := by
    rw [← runOf_append, ← hi, runOf_map_char]
  obtain ⟨rfl, he⟩ := h.unique hm (congrArg (c :: ·) hrun)
  obtain ⟨-, rfl⟩ := List.cons.inj he
  exact spelled_lexeme hc hl

theorem spelled_terminated (cs : List Char) : Terminated (spelled cs) := by
  rw [spelled, bareTokens]
  exact (Lexer.tokens_terminated _).map_bare

/-- What whole tokens spell does not depend on what stands behind them, nor does that on them. -/
theorem Whole.spelled_append {before after : List Char} (h : Whole before after) :
    spelled (before ++ after) = (spelled before).dropLast ++ spelled after := by
  induction h with
  | @gap gap after hg =>
    have hgap : spelled (gap ++ []) = spelled [] := spelled_gap hg
    rw [List.append_nil] at hgap
    rw [spelled_gap hg, hgap, spelled_nil]
    rfl
  | token hg hm _ ih =>
    rw [List.append_assoc, List.append_assoc, spelled_gap hg, spelled_gap hg, spelled_munch hm,
      spelled_munch hm.of_append, List.dropLast_cons_of_ne_nil (spelled_terminated _).ne_nil, ih]
    rfl

theorem spelled_row {before gap after : List Char} (hne : gap ≠ [])
    (hg : ∀ c ∈ gap, Text.isSeparator c = true) :
    spelled (before ++ (gap ++ after)) = (spelled before).dropLast ++ spelled after := by
  obtain ⟨c, gap, rfl⟩ := List.exists_cons_of_ne_nil hne
  have hw : Whole before (c :: (gap ++ after)) := (whole_text before).cut (hg c (.head _))
  have hafter : spelled (c :: gap ++ after) = spelled after := spelled_gap hg
  rw [← hafter]
  exact hw.spelled_append

theorem Whole.spelled_insert {before gap after : List Char} (h : Whole before after)
    (hg : ∀ c ∈ gap, Text.isSeparator c = true) :
    spelled (before ++ (gap ++ after)) = spelled (before ++ after) := by
  cases gap with
  | nil => rfl
  | cons c gap => rw [spelled_row (List.cons_ne_nil c gap) hg, h.spelled_append]

/-- **Another layout spells the same.** -/
theorem Relaid.spelled_eq {text text' : List Char} (h : Relaid text text') :
    spelled text = spelled text' := by
  cases h with
  | front hg => exact (spelled_gap hg).symm
  | back hg =>
    have hback := (whole_text text).spelled_insert hg
    rw [List.append_nil, List.append_nil] at hback
    exact hback.symm
  | between hw hg => exact (hw.spelled_insert hg).symm
  | exchange hne hg hne' hg' => rw [spelled_row hne hg, spelled_row hne' hg']

/-! ## Where separators change nothing -/

theorem Munch.spelled_ne {kind : Kind} {front back more after : List Char} {c : Char}
    (h : Munch kind (front ++ back) more) (hfront : front ≠ []) (hback : back ≠ [])
    (hc : Text.isSeparator c = true) :
    spelled (front ++ ([c] ++ after)) ≠ spelled (front ++ (back ++ more)) := by
  intro he
  have hc' : ∀ d ∈ [c], Text.isSeparator d = true := List.forall_mem_singleton.2 hc
  rw [spelled_row (List.cons_ne_nil c []) hc', ← List.append_assoc, spelled_munch h] at he
  have hwhole := whole_text front
  cases hwhole with
  | gap hg =>
    obtain ⟨d, front, rfl⟩ := List.exists_cons_of_ne_nil hfront
    have hd := h.isSeparator_head
    rw [hg d (.head _)] at hd
    cases hd
  | @token gap kind' cs more' _ hg hm =>
    rw [List.append_nil] at hm
    rw [spelled_gap hg, spelled_munch hm,
      List.dropLast_cons_of_ne_nil (spelled_terminated _).ne_nil, List.cons_append] at he
    -- The first token ends in front of the separator, so it has not all the characters.
    have htext := congrArg Token.text (List.cons.inj he).1
    have hcs : cs = gap ++ (cs ++ more') ++ back := String.ofList_injective htext
    have hlen := congrArg List.length hcs
    have hpos := List.length_pos_iff.2 hback
    simp only [List.length_append] at hlen
    omega

/-- A separator that changes nothing comes in between tokens. -/
theorem Whole.of_spelled_eq {before after : List Char} {c : Char} (hc : Text.isSeparator c = true)
    (h : spelled (before ++ ([c] ++ after)) = spelled (before ++ after)) : Whole before after := by
  have hwhole := whole_text (before ++ after)
  generalize ht : before ++ after = text at hwhole
  generalize hend : [] = rest at hwhole
  induction hwhole generalizing before with
  | gap hg =>
    subst ht
    exact .gap fun d hd => hg d (List.mem_append_left _ hd)
  | @token gap kind cs more _ hg hm _ ih =>
    subst hend
    rw [List.append_nil] at hm
    -- The place is among the separators at the front, behind the first token or in the middle.
    rcases List.append_eq_append_iff.1 ht with ⟨gap', rfl, rfl⟩ | ⟨front, rfl, hfront⟩
    · exact .gap fun d hd => hg d (List.mem_append_left _ hd)
    rw [List.append_assoc, List.append_assoc, spelled_gap hg, spelled_gap hg] at h
    rcases List.append_eq_append_iff.1 hfront with ⟨more', rfl, rfl⟩ | ⟨back, rfl, rfl⟩
    · have hcut : Munch kind cs (more' ++ ([c] ++ after)) := hm.cut hc
      rw [List.append_assoc, List.append_assoc, spelled_munch hcut, spelled_munch hm] at h
      exact .token hg hm (ih (List.cons.inj h).2 rfl rfl)
    by_cases hne : front = []
    · rw [hne, List.append_nil]
      exact .gap hg
    by_cases hback : back = []
    · rw [hback, List.append_nil] at hm
      have htoken : Whole (gap ++ (front ++ [])) more := .token hg hm (.gap (List.forall_mem_nil _))
      simpa [hback] using htoken
    exact absurd h (hm.spelled_ne hne hback hc)

/-! ## Readers of one spelling -/

theorem Source.spelling_eq_iff {s s' : Source} :
    s.spelling = s'.spelling ↔ s.tokens.map Token.bare = s'.tokens.map Token.bare := by
  have hbare : ∀ s : Source,
      s.tokens.map Token.bare = s.spelling.map fun x => ⟨.start, x.1, x.2⟩ := fun s => by
    rw [spelling, List.map_map]
    rfl
  have hspelling : ∀ s : Source,
      s.spelling = (s.tokens.map Token.bare).map fun t => (t.kind, t.text) := fun s => by
    rw [spelling, List.map_map]
    rfl
  refine ⟨fun h => ?_, fun h => ?_⟩
  · rw [hbare, hbare, h]
  · rw [hspelling, hspelling, h]

theorem spelling_ofText_eq_iff {text text' : String} :
    (Source.ofText text).spelling = (Source.ofText text').spelling ↔
      spelled text.toList = spelled text'.toList := by
  rw [Source.spelling_eq_iff, tokens_ofText_bare, tokens_ofText_bare]

theorem alike_of_mapError {x y : Except SyntaxError Formula}
    (h : x.mapError SyntaxError.bare = y.mapError SyntaxError.bare) : Alike x y := by
  cases x with
  | error e =>
    cases y with
    | error e' =>
      have he : e.bare = e'.bare := Except.error.inj h
      have hx : e.bare.expected = e'.bare.expected := congrArg SyntaxError.expected he
      have hr : e.bare.received = e'.bare.received := congrArg SyntaxError.received he
      have hk : e.bare.received.kind = e'.bare.received.kind := congrArg Token.kind hr
      have ht : e.bare.received.text = e'.bare.received.text := congrArg Token.text hr
      exact .error hx hk ht
    | ok f => cases h
  | ok f =>
    cases y with
    | error e' => cases h
    | ok f' =>
      cases h
      exact .ok

theorem Formula.ofTokens_bare (limits : Limits) (tokens : List Token) :
    ofTokens limits (tokens.map Token.bare) =
      (ofTokens limits tokens).mapError SyntaxError.bare := by
  unfold ofTokens
  change Except.map _ (Reading.run limits .start _) =
    Except.mapError _ (Except.map _ (Reading.run limits .start _))
  rw [Reading.run_bare]
  cases Reading.run limits .start tokens <;> rfl

theorem Formula.alike_of_spelling (limits : Limits) {s s' : Source}
    (h : s.spelling = s'.spelling) : Alike (ofSource limits s) (ofSource limits s') := by
  refine alike_of_mapError ?_
  rw [ofSource, ofSource, ← ofTokens_bare, ← ofTokens_bare, Source.spelling_eq_iff.1 h]

/-- **Layout says nothing.** Separators put in at an end of a text or between two of its tokens, or
one row of separators in place of another, leave the kinds and texts of its tokens as they are; in
the middle of a token a separator does not. Two inputs whose tokens agree in kinds and texts give
the same formula, or errors that differ in their places at most. So a comma or a line break by
itself parts no equations. -/
theorem layout_independent :
    (∀ text text' : String, Relaid text.toList text'.toList →
      (Source.ofText text).spelling = (Source.ofText text').spelling) ∧
    (∀ (before after : String) (c : Char), Text.isSeparator c = true →
      ((Source.ofText (before ++ String.singleton c ++ after)).spelling =
          (Source.ofText (before ++ after)).spelling ↔
        Whole before.toList after.toList)) ∧
    (∀ s s' : Source, s.spelling = s'.spelling → Alike (Formula.parse s) (Formula.parse s')) ∧
    ∀ text text' : String, Relaid text.toList text'.toList →
      Alike (Formula.parse (.ofText text)) (Formula.parse (.ofText text')) := by
  have hspelling : ∀ text text' : String, Relaid text.toList text'.toList →
      (Source.ofText text).spelling = (Source.ofText text').spelling :=
    fun text text' h => spelling_ofText_eq_iff.2 h.spelled_eq
  refine ⟨hspelling, fun before after c hc => ?_, fun s s' => Formula.alike_of_spelling .standard,
    fun text text' h => ?_⟩
  · have hc' : ∀ d ∈ [c], Text.isSeparator d = true := List.forall_mem_singleton.2 hc
    rw [spelling_ofText_eq_iff, String.toList_append, String.toList_append, String.toList_append,
      String.toList_singleton, List.append_assoc]
    exact ⟨Whole.of_spelled_eq hc, fun hw => hw.spelled_insert hc'⟩
  · exact Formula.alike_of_spelling .standard (hspelling text text' h)

/-- The dice of `2 d6` may stand on a line of their own. -/
theorem dice_on_next_line :
    Relaid "2 d6".toList "2,\n d6".toList ∧
      (Source.ofText "2 d6").spelling = (Source.ofText "2,\n d6").spelling ∧
      Alike (Formula.parse (.ofText "2 d6")) (Formula.parse (.ofText "2,\n d6")) := by
  have hrelaid : Relaid (['2'] ++ ([' '] ++ ['d', '6']))
      (['2'] ++ ([',', '\n', ' '] ++ ['d', '6'])) :=
    .exchange (by simp) (List.all_eq_true.1 rfl) (by simp) (List.all_eq_true.1 rfl)
  obtain ⟨hspelling, -, -, halike⟩ := layout_independent
  exact ⟨hrelaid, hspelling _ _ hrelaid, halike _ _ hrelaid⟩

end DiceNotation
