/-
What characters spell, token by token. A token takes all that can belong to it,
so a number or a word is a token of its own in front of whatever cannot carry it
on (`spelled_integer`, `spelled_wordlike`), and a sign always is
(`spelled_sign`). A text is one word to the lexer exactly when it is a row of
word characters that starts as a word does and is no dice token
(`lexesAsWord_iff`); a word in any source is such a text (`Lexer.isWord_of_mem`).
-/
import DiceNotation.Proofs.Placeless

namespace DiceNotation

/-- A token at the start of a source. -/
def Token.plain (kind : Kind) (cs : List Char) : Token := ⟨.start, kind, String.ofList cs⟩

/-- The tokens that characters spell, apart from their places. -/
def spelled (cs : List Char) : List Token := bareTokens (cs.map .char)

@[simp] theorem Source.items_ofText (text : String) :
    (ofText text).items = text.toList.map .char := by
  rw [items, ofText, List.flatMap_map]
  exact (List.map_eq_flatMap).symm

theorem tokens_ofText_bare (text : String) :
    (Source.ofText text).tokens.map Token.bare = spelled text.toList := by
  rw [Source.tokens, Lexer.tokens_bare]
  exact congrArg bareTokens (Source.items_ofText text)

/-! ## Classes of characters -/

theorem toNat_of_isDigit {c : Char} (h : c.isDigit = true) : 48 ≤ c.toNat ∧ c.toNat ≤ 57 := by
  rw [Char.isDigit, Bool.and_eq_true, decide_eq_true_iff, decide_eq_true_iff] at h
  exact h

theorem Text.not_inRanges_of_isDigit {ranges : List (Nat × Nat)} {c : Char}
    (hr : Apart [(48, 57)] ranges) (h : c.isDigit = true) : inRanges ranges c.toNat = false := by
  have hn := toNat_of_isDigit h
  refine hr.not_inRanges ?_
  rw [inRanges, if_neg (by omega), if_pos (by omega)]

theorem isSeparator_of_isDigit {c : Char} (h : c.isDigit = true) : Text.isSeparator c = false :=
  Text.not_inRanges_of_isDigit (by decide) h

theorem not_isLetter_of_isDigit {c : Char} (h : c.isDigit = true) : Text.isLetter c = false :=
  Text.not_inRanges_of_isDigit (by decide +kernel) h

theorem isWordPart_of_isDigit {c : Char} (h : c.isDigit = true) : isWordPart c = true := by
  have hn := toNat_of_isDigit h
  have hc : Text.isNumeral c = true := by
    rw [Text.isNumeral, Text.numeralRanges, Text.inRanges, if_neg (by omega), if_pos (by omega)]
  rw [isWordPart, hc, Bool.or_true, Bool.true_or]

/-! ## One token off the front -/

theorem Kind.ofChar_ne (c : Char) : ofChar c ≠ .endOfInput ∧ ofChar c ≠ .word := by
  unfold ofChar
  repeat' split
  all_goals decide

theorem lexeme_not_end (c : Char) (items : List Item) : (lexeme c items).1 ≠ .endOfInput := by
  unfold lexeme
  split
  · simp
  · split
    · simp only [Kind.ofWord]
      split <;> simp
    · exact (Kind.ofChar_ne c).1

theorem spelled_nil : spelled [] = [.plain .endOfInput []] := by
  rw [spelled, bareTokens, Lexer.tokens_of_end rfl]
  rfl

theorem spelled_separator {c : Char} {cs : List Char} (hc : Text.isSeparator c = true) :
    spelled (c :: cs) = spelled cs := by
  have hn : (⟨(c :: cs).map .char, .start, false⟩ : Lexer).nextToken =
      (⟨cs.map .char, Position.start.after (.char c), false⟩ : Lexer).nextToken := by
    simp [Lexer.nextToken, Item.satisfies, hc]
  rw [spelled, bareTokens, Lexer.tokens_congr hn, Lexer.tokens_bare]
  rfl

/-- The token that starts with a character, and what the items behind it spell. -/
theorem bareTokens_char {c : Char} {items : List Item} (hc : Text.isSeparator c = false) :
    bareTokens (.char c :: items) =
      .plain (lexeme c items).1 (c :: (lexeme c items).2.filterMap Item.char?) ::
        bareTokens (items.drop (lexeme c items).2.length) := by
  have hn : (⟨.char c :: items, .start, false⟩ : Lexer).nextToken =
      Lexer.tokenAt .start false (.char c :: items) := by
    simp [Lexer.nextToken, Item.satisfies, hc]
  rw [bareTokens, Lexer.tokens_of_not_end, hn, List.map_cons, Lexer.tokens_bare]
  · rfl
  · rw [hn]
    exact lexeme_not_end c items

theorem filterMap_char (cs : List Char) : (cs.map Item.char).filterMap Item.char? = cs := by
  rw [List.filterMap_map]
  exact List.filterMap_some

/-- A token that takes characters with the property `p` takes them as far as they go. -/
theorem takeWhile_items {p : Char → Bool} {cs rest : List Char} (hp : ∀ c ∈ cs, p c = true)
    (hr : ∀ c ∈ rest.head?, p c = false) :
    ((cs ++ rest).map Item.char).takeWhile (·.satisfies p) = cs.map Item.char := by
  induction cs with
  | nil =>
    cases rest with
    | nil => rfl
    | cons c rest => simp [Item.satisfies, hr c rfl]
  | cons c cs ih =>
    have hc : Item.satisfies p (.char c) = true := hp c (by simp)
    have ht := ih fun d hd => hp d (by simp [hd])
    rw [List.cons_append, List.map_cons, List.takeWhile_cons, if_pos hc, ht]
    rfl

/-- A token that takes the characters `cs` after its first. -/
theorem spelled_lexeme {c : Char} {cs rest : List Char} {kind : Kind}
    (hc : Text.isSeparator c = false)
    (hl : lexeme c ((cs ++ rest).map .char) = (kind, cs.map .char)) :
    spelled (c :: (cs ++ rest)) = .plain kind (c :: cs) :: spelled rest := by
  have hdrop : ((cs ++ rest).map Item.char).drop (cs.map Item.char).length = rest.map .char := by
    rw [List.map_append, List.drop_left]
  rw [spelled, List.map_cons, bareTokens_char hc, hl]
  dsimp only
  rw [filterMap_char, hdrop]
  rfl

theorem spelled_integer {ds rest : List Char} (hne : ds ≠ []) (hd : ∀ c ∈ ds, c.isDigit = true)
    (hr : ∀ c ∈ rest.head?, c.isDigit = false) :
    spelled (ds ++ rest) = .plain .integer ds :: spelled rest := by
  obtain ⟨c, cs, rfl⟩ := List.exists_cons_of_ne_nil hne
  have hc : c.isDigit = true := hd c (by simp)
  refine spelled_lexeme (isSeparator_of_isDigit hc) ?_
  rw [lexeme, if_pos hc, takeWhile_items (fun d h => hd d (by simp [h])) hr]

theorem spelled_wordlike {c : Char} {cs rest : List Char} (hs : Text.isSeparator c = false)
    (hd : c.isDigit = false) (hc : isWordStart c = true) (hcs : ∀ d ∈ cs, isWordPart d = true)
    (hr : ∀ d ∈ rest.head?, isWordPart d = false) :
    spelled (c :: (cs ++ rest)) = .plain (.ofWord c (cs.map .char)) (c :: cs) :: spelled rest := by
  refine spelled_lexeme hs ?_
  rw [lexeme, if_neg (by simp [hd]), if_pos hc]
  dsimp only
  rw [takeWhile_items hcs hr]

theorem spelled_sign {c : Char} {rest : List Char} (hs : Text.isSeparator c = false)
    (hd : c.isDigit = false) (hc : isWordStart c = false) :
    spelled (c :: rest) = .plain (.ofChar c) [c] :: spelled rest := by
  have hl : lexeme c (([] ++ rest).map .char) = (.ofChar c, [].map .char) := by
    rw [lexeme, if_neg (by simp [hd]), if_neg (by simp [hc])]
    rfl
  exact spelled_lexeme hs hl

/-! ## Words -/

/-- The characters are one word: none of them is left to another token, and they are no dice. -/
inductive IsWord : List Char → Prop
  | mk : Text.isSeparator c = false → c.isDigit = false → isWordStart c = true →
      (∀ d ∈ cs, isWordPart d = true) → Kind.ofWord c (cs.map .char) = .word → IsWord (c :: cs)

/-- To the lexer the text is one word and nothing else. -/
def LexesAsWord (text : String) : Prop :=
  ∃ t e, (Source.ofText text).tokens = [t, e] ∧ t.kind = .word ∧ t.text = text ∧
    e.kind = .endOfInput

theorem IsWord.ne_nil {cs : List Char} (h : IsWord cs) : cs ≠ [] := by
  cases h
  nofun

theorem spelled_word {cs rest : List Char} (hw : IsWord cs)
    (hr : ∀ d ∈ rest.head?, isWordPart d = false) :
    spelled (cs ++ rest) = .plain .word cs :: spelled rest := by
  obtain ⟨hs, hd, hc, hcs, hk⟩ := hw
  rw [List.cons_append, spelled_wordlike hs hd hc hcs hr, hk]

/-- What a token takes after its first character is a row of characters with the property that
the token asks for. -/
theorem takeWhile_eq_map (p : Char → Bool) (items : List Item) :
    ∃ cs : List Char, items.takeWhile (·.satisfies p) = cs.map .char ∧ ∀ c ∈ cs, p c = true := by
  induction items with
  | nil => exact ⟨[], rfl, nofun⟩
  | cons i items ih =>
    obtain ⟨cs, hcs, hp⟩ := ih
    rw [List.takeWhile_cons]
    cases i with
    | byte b => exact ⟨[], rfl, nofun⟩
    | char c =>
      by_cases hc : p c = true
      · refine ⟨c :: cs, ?_, by simpa [hc] using hp⟩
        rw [if_pos (by exact hc), hcs]
        rfl
      · exact ⟨[], if_neg hc, nofun⟩

/-- A lexeme that is a word is a row of word characters. -/
theorem isWord_of_lexeme {c : Char} {items : List Item} (hs : Text.isSeparator c = false)
    (hk : (lexeme c items).1 = .word) :
    IsWord (c :: (lexeme c items).2.filterMap Item.char?) := by
  unfold lexeme at hk ⊢
  split at hk
  next => cases hk
  next hd =>
    rw [if_neg hd]
    split at hk
    next hc =>
      obtain ⟨cs, hcs, hp⟩ := takeWhile_eq_map isWordPart items
      rw [if_pos hc]
      dsimp only at hk ⊢
      rw [hcs] at hk ⊢
      rw [filterMap_char]
      exact .mk hs (by simpa using hd) hc hp hk
    next => exact absurd hk (Kind.ofChar_ne c).2

namespace Lexer

theorem isWord_of_tokenAt {p : Position} {b : Bool} {items : List Item}
    (hs : ∀ i ∈ items.head?, i.satisfies Text.isSeparator = false)
    (hk : (tokenAt p b items).1.kind = .word) : IsWord (tokenAt p b items).1.text.toList := by
  cases items with
  | nil => cases hk
  | cons i items =>
    cases i with
    | byte b => cases hk
    | char c =>
      have hw : IsWord (c :: (lexeme c items).2.filterMap Item.char?) :=
        isWord_of_lexeme (hs (.char c) rfl) hk
      simpa [tokenAt] using hw

theorem isWord_of_nextToken {lx : Lexer} (hk : lx.nextToken.1.kind = .word) :
    IsWord lx.nextToken.1.text.toList := by
  refine isWord_of_tokenAt (fun i hi => ?_) hk
  have hs := List.head?_dropWhile_not (Item.satisfies Text.isSeparator) lx.rest
  rwa [Option.mem_def.1 hi] at hs

/-- The text of a word is a word. -/
theorem isWord_of_mem (lx : Lexer) : ∀ t ∈ lx.tokens, t.kind = .word → IsWord t.text.toList :=
  lx.forall_mem_tokens fun _ => isWord_of_nextToken

end Lexer

theorem lexesAsWord_iff {text : String} : LexesAsWord text ↔ IsWord text.toList := by
  refine ⟨fun h => ?_, fun h => ?_⟩
  · obtain ⟨t, e, hs, hk, ht, -⟩ := h
    have hmem : t ∈ (Lexer.ofSource (.ofText text)).tokens := by
      rw [← Source.tokens, hs]
      exact .head _
    have hw := Lexer.isWord_of_mem _ t hmem hk
    rwa [ht] at hw
  · have hrest : ∀ d ∈ ([] : List Char).head?, isWordPart d = false := nofun
    have hs := spelled_word h hrest
    rw [List.append_nil, spelled_nil, ← tokens_ofText_bare, List.map_eq_cons_iff] at hs
    obtain ⟨t, ts, hts, ht, hs⟩ := hs
    rw [List.map_eq_singleton_iff] at hs
    obtain ⟨e, rfl, he⟩ := hs
    have htext : t.text = String.ofList text.toList := congrArg Token.text ht
    rw [String.ofList_toList] at htext
    exact ⟨t, e, hts, congrArg Token.kind ht, htext, congrArg Token.kind he⟩

end DiceNotation
