/-
What the lexer makes of any bytes, said by patterns. The patterns say what the
tokens of each kind look like (`Pattern`). At a character that is no separator
stands the longest text that looks like a token, dice before a word where both
do, or else that character alone (`Munch`); no token goes on past a malformed
byte. A source is made of such tokens, of its malformed bytes, each a token of
its own, and of separators between them (`Tokenized`), and these are the tokens
that the lexer gives, call after call, until it gives no more
(`Lexer.yields_tokenized`).
-/
import DiceNotation.Proofs.Lexemes
import DiceNotation.Proofs.Run
import DiceNotation.Proofs.Pieces

namespace DiceNotation

open Text (Piece)

/-! ## What tokens look like -/

/-- The kinds whose tokens are one certain character. -/
def Kind.signs : List (Kind × Char) :=
  [(.equal, '='), (.leftParen, '('), (.rightParen, ')'), (.caret, '^'), (.star, '*'),
    (.slash, '/'), (.plus, '+'), (.minus, '-')]

/-- The characters look like a token of the kind. -/
inductive Pattern : Kind → List Char → Prop
  | sign : (kind, c) ∈ Kind.signs → Pattern kind [c]
  | dice : c = 'd' ∨ c = 'D' → (∀ d ∈ ds, d.isDigit = true) → Pattern .dice (c :: ds)
  | integer : ds ≠ [] → (∀ d ∈ ds, d.isDigit = true) → Pattern .integer ds
  | word : Text.isLetter c = true ∨ c = '_' →
      (∀ d ∈ cs, Text.isLetter d = true ∨ Text.isNumeral d = true ∨ d = '_') →
      Pattern .word (c :: cs)

/-- The token at the front of `cs ++ more`, by its kind and its text `cs`. -/
inductive Munch : Kind → List Char → List Char → Prop
  | longest : Pattern kind cs →
      (∀ kind' cs', Pattern kind' cs' → cs' <+: cs ++ more → cs'.length ≤ cs.length) →
      (Pattern .dice cs → kind = .dice) → Munch kind cs more
  | unrecognized : Text.isSeparator c = false →
      (∀ kind cs, Pattern kind cs → ¬ cs <+: c :: more) → Munch .unrecognized [c] more

/-- The characters at the front of items, up to the first byte that belongs to none. -/
def runOf : List Item → List Char
  | .char c :: items => c :: runOf items
  | _ => []

/-- The tokens are those that the items are made of, each with the separators before it. -/
inductive Tokenized : List Item → List Token → Prop
  | endOfInput {gap : List Char} : (∀ c ∈ gap, Text.isSeparator c = true) →
      t.kind = .endOfInput → t.text = "" → Tokenized (gap.map .char) [t]
  | malformed {gap : List Char} : (∀ c ∈ gap, Text.isSeparator c = true) →
      t.kind = .malformed → t.text = "" → Tokenized items ts →
      Tokenized (gap.map .char ++ .byte b :: items) (t :: ts)
  | munch {gap : List Char} : (∀ c ∈ gap, Text.isSeparator c = true) →
      Munch t.kind cs (runOf items) → t.text = String.ofList cs → Tokenized items ts →
      Tokenized (gap.map .char ++ (cs.map .char ++ items)) (t :: ts)

theorem isWordStart_iff {c : Char} : isWordStart c = true ↔ Text.isLetter c = true ∨ c = '_' := by
  rw [isWordStart, Bool.or_eq_true, beq_iff_eq]

theorem isWordPart_iff {c : Char} :
    isWordPart c = true ↔ Text.isLetter c = true ∨ Text.isNumeral c = true ∨ c = '_' := by
  rw [isWordPart, Bool.or_eq_true, Bool.or_eq_true, beq_iff_eq, or_assoc]

theorem isWordStart_of_isDigit {c : Char} (h : c.isDigit = true) : isWordStart c = false := by
  have hu : c ≠ '_' := by
    rintro rfl
    cases h
  rw [isWordStart, not_isLetter_of_isDigit h, Bool.false_or, beq_eq_false_iff_ne]
  exact hu

theorem not_isDigit_of_isWordStart {c : Char} (h : isWordStart c = true) :
    ¬ c.isDigit = true := fun hd => by
  rw [isWordStart_of_isDigit hd] at h
  cases h

theorem isWordStart_of_dice {c : Char} (h : c = 'd' ∨ c = 'D') : isWordStart c = true := by
  rcases h with rfl | rfl <;> decide

/-- A sign is a single character; what begins with a digit goes on with digits, and what begins as
words do goes on as words do. -/
theorem Pattern.cons_cases {kind : Kind} {c : Char} {cs : List Char} (h : Pattern kind (c :: cs)) :
    ((kind, c) ∈ Kind.signs ∧ cs = []) ∨ (c.isDigit = true ∧ ∀ d ∈ cs, d.isDigit = true) ∨
      (isWordStart c = true ∧ ∀ d ∈ cs, isWordPart d = true) := by
  cases h with
  | sign hc => exact .inl ⟨hc, rfl⟩
  | dice hc hds =>
    exact .inr (.inr ⟨isWordStart_of_dice hc, fun d hd => isWordPart_of_isDigit (hds d hd)⟩)
  | integer _ hds => exact .inr (.inl (List.forall_mem_cons.1 hds))
  | word hc hcs =>
    exact .inr (.inr ⟨isWordStart_iff.2 hc, fun d hd => isWordPart_iff.2 (hcs d hd)⟩)

theorem pattern_dice_iff {c : Char} {cs : List Char} :
    Pattern .dice (c :: cs) ↔ (c = 'd' ∨ c = 'D') ∧ ∀ d ∈ cs, d.isDigit = true := by
  refine ⟨fun h => ?_, fun h => .dice h.1 h.2⟩
  cases h with
  | sign hc => simp [Kind.signs] at hc
  | dice hc hcs => exact ⟨hc, hcs⟩

theorem Pattern.ne_nil {kind : Kind} {cs : List Char} (h : Pattern kind cs) : cs ≠ [] := by
  cases h with
  | sign => nofun
  | dice => nofun
  | integer h => exact h
  | word => nofun

theorem Munch.ne_nil {kind : Kind} {cs more : List Char} (h : Munch kind cs more) : cs ≠ [] := by
  cases h with
  | longest hp => exact hp.ne_nil
  | unrecognized => nofun

/-! ## The lexer takes the longest -/

theorem runOf_append (cs : List Char) (items : List Item) :
    runOf (cs.map .char ++ items) = cs ++ runOf items := by
  induction cs with
  | nil => rfl
  | cons c cs ih => exact congrArg (c :: ·) ih

theorem runOf_map_char (cs : List Char) : runOf (cs.map .char) = cs := by
  rw [← List.append_nil (cs.map _), runOf_append]
  exact List.append_nil cs

theorem length_le_takeWhile {p : Char → Bool} {cs : List Char} {items : List Item}
    (h : cs <+: runOf items) (hp : ∀ c ∈ cs, p c = true) :
    cs.length ≤ (items.takeWhile (·.satisfies p)).length := by
  induction cs generalizing items with
  | nil => exact Nat.zero_le _
  | cons c cs ih =>
    obtain ⟨hc, hcs⟩ := List.forall_mem_cons.1 hp
    cases items with
    | nil => cases List.prefix_nil.1 h
    | cons i items =>
      cases i with
      | byte b => cases List.prefix_nil.1 h
      | char d =>
        obtain ⟨rfl, ht⟩ := List.cons_prefix_cons.1 h
        rw [List.takeWhile_cons, if_pos (by exact hc)]
        exact Nat.succ_le_succ (ih ht hcs)

/-- No text that looks like a token is longer than what the lexer takes. -/
theorem Pattern.length_le_lexeme {kind : Kind} {cs : List Char} {c : Char} {items : List Item}
    (h : Pattern kind cs) (hp : cs <+: c :: runOf items) :
    cs.length ≤ (lexeme c items).2.length + 1 := by
  obtain ⟨d, ds, rfl⟩ := List.exists_cons_of_ne_nil h.ne_nil
  obtain ⟨rfl, ht⟩ := List.cons_prefix_cons.1 hp
  refine Nat.succ_le_succ ?_
  rcases h.cons_cases with ⟨-, rfl⟩ | ⟨hd, hds⟩ | ⟨hd, hds⟩
  · exact Nat.zero_le _
  · rw [lexeme, if_pos hd]
    exact length_le_takeWhile ht hds
  · rw [lexeme, if_neg (not_isDigit_of_isWordStart hd), if_pos hd]
    exact length_le_takeWhile ht hds

/-- A single character is a sign, or it is none and looks like no sign. -/
theorem Kind.ofChar_signs (c : Char) :
    (ofChar c, c) ∈ signs ∨ ofChar c = .unrecognized ∧ ∀ kind, (kind, c) ∉ signs := by
  unfold ofChar
  repeat' split
  all_goals simp_all [signs]

/-- Word-like text is dice when it looks like dice. -/
theorem Kind.ofWord_eq (c : Char) (cs : List Char) :
    (Pattern .dice (c :: cs) ∧ ofWord c (cs.map .char) = .dice) ∨
      (¬ Pattern .dice (c :: cs) ∧ ofWord c (cs.map .char) = .word) := by
  have hall : (cs.map Item.char).all (·.satisfies Char.isDigit) = cs.all Char.isDigit := by
    rw [List.all_map]
    rfl
  rw [pattern_dice_iff, ofWord, hall]
  by_cases h : (c = 'd' ∨ c = 'D') ∧ ∀ d ∈ cs, d.isDigit = true
  · exact .inl ⟨h, if_pos (by simpa using h)⟩
  · exact .inr ⟨h, if_neg (by simpa using h)⟩

/-- The lexer takes the token that stands at `c`, and leaves the items after it. -/
def Munches (c : Char) (items : List Item) : Prop :=
  ∃ kind cs rest, lexeme c items = (kind, cs.map .char) ∧ items = cs.map .char ++ rest ∧
    Munch kind (c :: cs) (runOf rest)

/-- It does if what it takes looks like a token, for no longer text does. -/
theorem Munches.of_pattern {kind : Kind} {c : Char} {cs : List Char} {items : List Item}
    (hl : lexeme c items = (kind, cs.map .char)) (hi : cs.map .char <+: items)
    (hp : Pattern kind (c :: cs)) (hd : Pattern .dice (c :: cs) → kind = .dice) :
    Munches c items := by
  obtain ⟨rest, rfl⟩ := hi
  refine ⟨kind, cs, rest, hl, rfl, .longest hp (fun kind' cs' h hpre => ?_) hd⟩
  rw [List.cons_append, ← runOf_append] at hpre
  have hle := h.length_le_lexeme hpre
  rwa [hl, List.length_map] at hle

theorem munches_integer {c : Char} (items : List Item) (hd : c.isDigit = true) :
    Munches c items := by
  obtain ⟨cs, hcs, hp⟩ := takeWhile_eq_map Char.isDigit items
  have hl : lexeme c items = (.integer, cs.map .char) := by rw [lexeme, if_pos hd, hcs]
  have hi : cs.map .char <+: items := hcs ▸ List.takeWhile_prefix _
  have hds : ∀ d ∈ c :: cs, d.isDigit = true := List.forall_mem_cons.2 ⟨hd, hp⟩
  refine .of_pattern hl hi (.integer (List.cons_ne_nil c cs) hds) fun h => ?_
  exact absurd hd (not_isDigit_of_isWordStart (isWordStart_of_dice (pattern_dice_iff.1 h).1))

theorem munches_wordlike {c : Char} (items : List Item) (hd : ¬ c.isDigit = true)
    (hw : isWordStart c = true) : Munches c items := by
  obtain ⟨cs, hcs, hp⟩ := takeWhile_eq_map isWordPart items
  have hl : lexeme c items = (.ofWord c (cs.map .char), cs.map .char) := by
    rw [lexeme, if_neg hd, if_pos hw, hcs]
  have hi : cs.map .char <+: items := hcs ▸ List.takeWhile_prefix _
  rcases Kind.ofWord_eq c cs with ⟨h, hk⟩ | ⟨h, hk⟩
  · exact .of_pattern (hk ▸ hl) hi h fun _ => rfl
  · have hword : Pattern .word (c :: cs) :=
      .word (isWordStart_iff.1 hw) fun d hd => isWordPart_iff.1 (hp d hd)
    exact .of_pattern (hk ▸ hl) hi hword (absurd · h)

theorem munches_single {c : Char} (items : List Item) (hs : Text.isSeparator c = false)
    (hd : ¬ c.isDigit = true) (hw : ¬ isWordStart c = true) : Munches c items := by
  have hl : lexeme c items = (.ofChar c, [].map .char) := by
    rw [lexeme, if_neg hd, if_neg hw]
    rfl
  rcases Kind.ofChar_signs c with hc | ⟨hk, hc⟩
  · refine .of_pattern hl List.nil_prefix (.sign hc) fun h => ?_
    exact absurd (isWordStart_of_dice (pattern_dice_iff.1 h).1) hw
  · refine ⟨_, [], items, hk ▸ hl, rfl, .unrecognized hs fun kind cs h hpre => ?_⟩
    obtain ⟨d, ds, rfl⟩ := List.exists_cons_of_ne_nil h.ne_nil
    obtain ⟨rfl, -⟩ := List.cons_prefix_cons.1 hpre
    rcases h.cons_cases with ⟨h, -⟩ | ⟨h, -⟩ | ⟨h, -⟩
    · exact hc kind h
    · exact hd h
    · exact hw h

/-- **The lexer takes the token that stands** at a character which is no separator. -/
theorem munches {c : Char} (items : List Item) (hs : Text.isSeparator c = false) :
    Munches c items := by
  by_cases hd : c.isDigit = true
  · exact munches_integer items hd
  by_cases hw : isWordStart c = true
  · exact munches_wordlike items hd hw
  · exact munches_single items hs hd hw

/-! ## All tokens of a source -/

theorem Tokenized.length_le {items : List Item} {ts : List Token} (h : Tokenized items ts) :
    ts.length ≤ items.length + 1 := by
  induction h with
  | endOfInput => simp
  | malformed _ _ _ _ ih =>
    simp only [List.length_append, List.length_cons]
    omega
  | munch _ hm _ _ ih =>
    have hcs := List.length_pos_iff.2 hm.ne_nil
    simp only [List.length_append, List.length_cons, List.length_map]
    omega

namespace Lexer

/-- The token at the front of items that start with no separator, with the tokens that the items
after it are made of. -/
theorem tokenized_tokenAt {p : Position} {b : Bool} {gap : List Char} {items : List Item}
    {ts : List Token} (hg : ∀ c ∈ gap, Text.isSeparator c = true)
    (hs : ∀ i ∈ items.head?, i.satisfies Text.isSeparator = false)
    (hk : (tokenAt p b items).1.kind ≠ .endOfInput) (ht : Tokenized (tokenAt p b items).2.rest ts) :
    Tokenized (gap.map .char ++ items) ((tokenAt p b items).1 :: ts) := by
  cases items with
  | nil => exact absurd rfl hk
  | cons i items =>
    cases i with
    | byte x => exact .malformed hg rfl rfl ht
    | char c =>
      obtain ⟨kind, cs, rest, hl, rfl, hm⟩ := munches items (hs (.char c) rfl)
      simp only [tokenAt, hl] at ht ⊢
      rw [List.drop_left] at ht
      rw [filterMap_char]
      change Tokenized (gap.map .char ++ ((c :: cs).map .char ++ rest)) _
      exact .munch hg hm rfl ht

theorem items_of_end {p : Position} {b : Bool} {items : List Item}
    (h : (tokenAt p b items).1.kind = .endOfInput) : items = [] := by
  cases items with
  | nil => rfl
  | cons i items =>
    cases i with
    | byte x => cases h
    | char c => exact absurd h (lexeme_not_end c items)

theorem exists_nextToken_eq (lx : Lexer) :
    ∃ (gap : List Char) (items : List Item), lx.rest = gap.map .char ++ items ∧
    (∀ c ∈ gap, Text.isSeparator c = true) ∧
    (∀ i ∈ items.head?, i.satisfies Text.isSeparator = false) ∧
    lx.nextToken = tokenAt (lx.position.afterAll (gap.map .char)) lx.finished items := by
  obtain ⟨gap, hgap, hg⟩ := takeWhile_eq_map Text.isSeparator lx.rest
  refine ⟨gap, lx.rest.dropWhile (·.satisfies Text.isSeparator), ?_, hg, fun i hi => ?_, ?_⟩
  · rw [← hgap, List.takeWhile_append_dropWhile]
  · have hs := List.head?_dropWhile_not (Item.satisfies Text.isSeparator) lx.rest
    rwa [Option.mem_def.1 hi] at hs
  · rw [← hgap]
    rfl

/-- **The items of a source are made of its tokens.** -/
theorem tokenized_tokens (lx : Lexer) : Tokenized lx.rest lx.tokens := by
  fun_induction Lexer.tokens lx with
  | case1 lx next hend =>
    obtain ⟨gap, items, hr, hg, -, hn⟩ := exists_nextToken_eq lx
    rw [show next = _ from hn] at hend ⊢
    cases items_of_end hend
    rw [hr, List.append_nil]
    exact .endOfInput (t := (tokenAt _ lx.finished []).1) hg rfl rfl
  | case2 lx next hend ih =>
    obtain ⟨gap, items, hr, hg, hs, hn⟩ := exists_nextToken_eq lx
    rw [show next = _ from hn] at hend ih ⊢
    rw [hr]
    exact tokenized_tokenAt hg hs hend ih

/-- The tokens are what `next?` gives, call after call, until it gives none. -/
inductive Yields : Lexer → List Token → Prop
  | stop : lx.next? = none → Yields lx []
  | next : lx.next? = some (t, lx') → Yields lx' ts → Yields lx (t :: ts)

theorem finished_nextToken (lx : Lexer) : lx.nextToken.2.finished = lx.finished := by
  obtain ⟨gap, items, -, -, -, hn⟩ := exists_nextToken_eq lx
  rw [hn]
  cases items with
  | nil => rfl
  | cons i items => cases i <;> rfl

theorem nextToken_of_end {lx : Lexer} (h : lx.nextToken.1.kind = .endOfInput) :
    lx.nextToken.2.nextToken = lx.nextToken := by
  obtain ⟨gap, items, -, -, -, hn⟩ := exists_nextToken_eq lx
  rw [hn] at h ⊢
  cases items_of_end h
  rfl

theorem take_subset (n : Nat) (lx : Lexer) : (lx.take n).1 ⊆ lx.tokens := by
  induction n generalizing lx with
  | zero => exact List.nil_subset _
  | succ n ih =>
    have hrest := ih lx.nextToken.2
    by_cases hend : lx.nextToken.1.kind = .endOfInput
    · have hagain := nextToken_of_end hend
      have htokens : lx.nextToken.2.tokens = lx.tokens := tokens_congr hagain
      rw [htokens] at hrest
      refine List.cons_subset.2 ⟨?_, hrest⟩
      rw [tokens_of_end hend]
      exact List.mem_singleton_self _
    · rw [tokens_of_not_end hend]
      exact List.cons_subset_cons _ hrest

theorem next?_of_end {lx : Lexer} (hf : lx.finished = false)
    (h : lx.nextToken.1.kind = .endOfInput) :
    lx.next? = some (lx.nextToken.1, { lx.nextToken.2 with finished := true }) := by
  rw [next?, hf, if_neg (by decide)]
  simp only [h, decide_true]

theorem next?_of_not_end {lx : Lexer} (hf : lx.finished = false)
    (h : lx.nextToken.1.kind ≠ .endOfInput) : lx.next? = some lx.nextToken := by
  have hn : lx.nextToken.2.finished = decide (lx.nextToken.1.kind = .endOfInput) := by
    rw [finished_nextToken, hf, decide_eq_false h]
  rw [next?, if_neg (by simp [hf])]
  exact congrArg (fun b => some (lx.nextToken.1, { lx.nextToken.2 with finished := b })) hn.symm

theorem yields_tokens {lx : Lexer} (hf : lx.finished = false) : lx.Yields lx.tokens := by
  fun_induction Lexer.tokens lx with
  | case1 lx next hend => exact .next (next?_of_end hf hend) (.stop rfl)
  | case2 lx next hend ih =>
    exact .next (next?_of_not_end hf hend) (ih (by rw [finished_nextToken, hf]))

end Lexer

/-! ## Back to the bytes -/

/-- The bytes that an item stands for. -/
def Item.bytes : Item → List UInt8
  | .char c => String.utf8EncodeChar c
  | .byte b => [b]

theorem Item.length_le_bytes (items : List Item) :
    items.length ≤ (items.flatMap Item.bytes).length := by
  induction items with
  | nil => exact Nat.le_refl _
  | cons i items ih =>
    have hi : 0 < i.bytes.length := by
      cases i with
      | char c => exact List.length_pos_iff.2 String.utf8EncodeChar_ne_nil
      | byte b => exact Nat.one_pos
    rw [List.flatMap_cons, List.length_append, List.length_cons]
    omega

theorem Text.Utf8.Reads.bytes_items {bytes : List UInt8} {pieces : List Piece}
    (h : Reads bytes pieces) : (pieces.flatMap Piece.items).flatMap Item.bytes = bytes := by
  induction h with
  | nil => rfl
  | char _ ih =>
    rw [List.flatMap_cons, List.flatMap_append, ih]
    exact congrArg (· ++ _) (List.append_nil _)
  | malformed _ _ ih =>
    rw [List.flatMap_cons, List.flatMap_append, ih, Piece.items, List.flatMap_map]
    exact congrArg (· ++ _) (List.flatMap_singleton' _)

/-- **The tokens of any bytes.** Whatever the bytes are, the lexer gives finitely many tokens, the
end of the input once and last, and at most one for each byte beside it. There is one way to cut
the bytes into characters and malformed sequences. Of the characters and the bytes of malformed
sequences, in order, the tokens are made: nothing is left out but separators between tokens, and
each token is the longest that stands where it starts. -/
theorem Lexer.yields_tokenized (bytes : List UInt8) :
    ∃ pieces tokens, (∀ ps, Text.Utf8.Reads bytes ps ↔ ps = pieces) ∧
      (pieces.flatMap Piece.items).flatMap Item.bytes = bytes ∧
      (ofSource (.ofBytes bytes)).Yields tokens ∧
      Tokenized (pieces.flatMap Piece.items) tokens ∧
      Terminated tokens ∧ tokens.length ≤ bytes.length + 1 := by
  have hbytes := (Text.Utf8.reads_decode bytes).bytes_items
  have ht : Tokenized ((Text.Utf8.decode bytes).flatMap Piece.items)
      (Source.ofBytes bytes).tokens := tokenized_tokens (ofSource (.ofBytes bytes))
  refine ⟨_, _, fun _ => Text.Utf8.reads_iff, hbytes, yields_tokens rfl, ht,
    Source.tokens_terminated _, ?_⟩
  have hle := Item.length_le_bytes ((Text.Utf8.decode bytes).flatMap Piece.items)
  rw [hbytes] at hle
  exact Nat.le_trans ht.length_le (Nat.succ_le_succ hle)

end DiceNotation
