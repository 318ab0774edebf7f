/-
Damaged bytes and the text that shows them. No formula has a malformed byte in it or
a replacement character, and no token goes on with either (`Item.Bars`), so up to
the first malformed byte the bytes and their text have the same tokens at the same
places (`Lexer.tokens_barred`). What the reader refuses there it refuses in the same
words, whichever of the two it is (`Stage.exists_refusal`). So damaged bytes are
always refused, at the first malformed byte or in front of it, and the text that
shows them is refused at the same place (`damaged_refused`).
-/
import Mathlib.Data.List.Infix
import DiceNotation.Proofs.Lines
import DiceNotation.Proofs.Pieces

namespace DiceNotation

open Text (Piece)

/-! ## The first malformed byte -/

namespace Text.Utf8

theorem Reads.chars_or_malformed {bytes : List UInt8} {ps : List Piece} (h : Reads bytes ps) :
    (∃ cs : List Char, bytes = cs.flatMap String.utf8EncodeChar) ∨
      ∃ (cs : List Char) (b : UInt8) (bad : List UInt8) (rest : List Piece),
        ps = cs.map .char ++ .malformed (b :: bad) :: rest := by
  induction h with
  | nil => exact .inl ⟨[], rfl⟩
  | @char bs ps c _ ih =>
    rcases ih with ⟨cs, rfl⟩ | ⟨cs, b, bad, rest, rfl⟩
    · exact .inl ⟨c :: cs, rfl⟩
    · exact .inr ⟨c :: cs, b, bad, rest, rfl⟩
  | @malformed bad bs ps hm _ _ =>
    obtain ⟨b, bad, rfl⟩ := List.exists_cons_of_ne_nil hm.ne_nil
    exact .inr ⟨[], b, bad, ps, rfl⟩

theorem exists_malformed {bytes : List UInt8} (h : ¬ (ByteArray.mk bytes.toArray).IsValidUTF8) :
    ∃ (cs : List Char) (b : UInt8) (bad : List UInt8) (ps : List Piece),
      decode bytes = cs.map .char ++ .malformed (b :: bad) :: ps := by
  rcases (reads_decode bytes).chars_or_malformed with ⟨cs, hcs⟩ | hm
  · refine absurd (.intro cs ?_) h
    rw [hcs, List.utf8Encode]
    exact ByteArray.ext List.data_toByteArray.symm
  · exact hm

end Text.Utf8

/-! ## Tokens in front of it -/

/-- Neither separators nor a token goes on with the item. -/
def Item.Bars (i : Item) : Prop :=
  i.satisfies Text.isSeparator = false ∧ i.satisfies isWordPart = false

theorem Item.bars_byte (b : UInt8) : Bars (.byte b) := ⟨rfl, rfl⟩

theorem Item.bars_replacement : Bars (.char '\ufffd') := by
  constructor
  · decide +kernel
  · decide +kernel

variable {i : Item}

theorem Item.Bars.isDigit (hi : i.Bars) : i.satisfies Char.isDigit = false := by
  cases i with
  | byte b => rfl
  | char c =>
    refine Bool.eq_false_iff.2 fun hd => ?_
    have hw : isWordPart c = false := hi.2
    rw [isWordPart_of_isDigit hd] at hw
    cases hw

theorem takeWhile_barred {p : Char → Bool} (hi : i.satisfies p = false) (items more : List Item) :
    (items ++ i :: more).takeWhile (·.satisfies p) = items.takeWhile (·.satisfies p) := by
  induction items with
  | nil => simp [hi]
  | cons j items ih => rw [List.cons_append, List.takeWhile_cons, List.takeWhile_cons, ih]

theorem dropWhile_barred {p : Char → Bool} (hi : i.satisfies p = false) (items more : List Item) :
    (items ++ i :: more).dropWhile (·.satisfies p) =
      items.dropWhile (·.satisfies p) ++ i :: more := by
  induction items with
  | nil => simp [hi]
  | cons j items ih =>
    rw [List.cons_append, List.dropWhile_cons, List.dropWhile_cons, ih]
    split <;> rfl

theorem lexeme_barred (hi : i.Bars) (c : Char) (items more : List Item) :
    lexeme c (items ++ i :: more) = lexeme c items := by
  rw [lexeme, lexeme, takeWhile_barred hi.isDigit, takeWhile_barred hi.2]

theorem lexeme_isPrefix (c : Char) (items : List Item) : (lexeme c items).2 <+: items := by
  unfold lexeme
  split
  · exact List.takeWhile_prefix _
  · split
    · exact List.takeWhile_prefix _
    · exact List.nil_prefix

namespace Lexer

/-- The lexer with more items behind those it has. -/
def followedBy (lx : Lexer) (more : List Item) : Lexer := { lx with rest := lx.rest ++ more }

theorem tokenAt_barred (hi : i.Bars) {items : List Item} (hne : items ≠ []) (p : Position)
    (b : Bool) (more : List Item) : tokenAt p b (items ++ i :: more) =
      ((tokenAt p b items).1, (tokenAt p b items).2.followedBy (i :: more)) := by
  obtain ⟨j, items, rfl⟩ := List.exists_cons_of_ne_nil hne
  cases j with
  | byte x => rfl
  | char c =>
    have hle := (lexeme_isPrefix c items).length_le
    simp only [List.cons_append, tokenAt, lexeme_barred hi, followedBy,
      List.drop_append_of_le_length hle]

theorem tokenAt_afterAll (p : Position) (b : Bool) (items : List Item) :
    (tokenAt p b items).2.position.afterAll (tokenAt p b items).2.rest = p.afterAll items := by
  cases items with
  | nil => rfl
  | cons j items =>
    cases j with
    | byte x => rfl
    | char c =>
      have htake := List.prefix_append_drop (lexeme_isPrefix c items)
      simp only [tokenAt, ← Position.afterAll_append, ← htake, Position.afterAll_cons]

theorem nextToken_afterAll (lx : Lexer) :
    lx.nextToken.2.position.afterAll lx.nextToken.2.rest = lx.position.afterAll lx.rest := by
  rw [nextToken, tokenAt_afterAll, ← Position.afterAll_append, List.takeWhile_append_dropWhile]

theorem nextToken_barred (hi : i.Bars) {lx : Lexer} (h : lx.nextToken.1.kind ≠ .endOfInput)
    (more : List Item) : (lx.followedBy (i :: more)).nextToken =
      (lx.nextToken.1, lx.nextToken.2.followedBy (i :: more)) := by
  have hne : lx.rest.dropWhile (·.satisfies Text.isSeparator) ≠ [] := by
    intro hnil
    rw [nextToken, hnil] at h
    exact h rfl
  rw [nextToken, nextToken, followedBy, takeWhile_barred hi.1, dropWhile_barred hi.1]
  exact tokenAt_barred hi hne _ _ _

theorem nextToken_of_bars (hi : i.Bars) (p : Position) (b : Bool) (more : List Item) :
    nextToken ⟨i :: more, p, b⟩ = tokenAt p b (i :: more) := by
  rw [nextToken, List.takeWhile_cons, List.dropWhile_cons, hi.1]
  rfl

theorem tokens_of_bars (hi : i.Bars) (p : Position) (b : Bool) (more : List Item) :
    tokens ⟨i :: more, p, b⟩ =
      (tokenAt p b (i :: more)).1 :: (tokenAt p b (i :: more)).2.tokens := by
  have hend : (tokenAt p b (i :: more)).1.kind ≠ .endOfInput :=
    fun h => List.cons_ne_nil i more (items_of_end h)
  rw [← nextToken_of_bars hi] at hend ⊢
  exact tokens_of_not_end hend

theorem nextToken_bar (hi : i.Bars) {lx : Lexer} (h : lx.nextToken.1.kind = .endOfInput)
    (more : List Item) : (lx.followedBy (i :: more)).nextToken =
      tokenAt (lx.position.afterAll lx.rest) lx.finished (i :: more) := by
  have hnil : lx.rest.dropWhile (·.satisfies Text.isSeparator) = [] := items_of_end h
  have hall : lx.rest.takeWhile (·.satisfies Text.isSeparator) = lx.rest := by
    have happend := List.takeWhile_append_dropWhile
      (p := (Item.satisfies Text.isSeparator)) (l := lx.rest)
    rwa [hnil, List.append_nil] at happend
  rw [nextToken, followedBy, takeWhile_barred hi.1, dropWhile_barred hi.1, hnil, hall]
  rfl

/-- **No token reaches over a barring item.** In front of it stand the tokens of the items in front
of it alone. -/
theorem tokens_barred (hi : i.Bars) (lx : Lexer) (more : List Item) :
    (lx.followedBy (i :: more)).tokens = lx.tokens.dropLast ++
      tokens ⟨i :: more, lx.position.afterAll lx.rest, lx.finished⟩ := by
  fun_induction Lexer.tokens lx with
  | case1 lx next hend =>
    refine tokens_congr ?_
    rw [nextToken_bar hi hend, nextToken_of_bars hi]
  | case2 lx next hend ih =>
    have hnext := nextToken_barred hi hend more
    have hkind : (lx.followedBy (i :: more)).nextToken.1.kind ≠ .endOfInput := by
      rw [hnext]
      exact hend
    rw [tokens_of_not_end hkind, hnext, ih, nextToken_afterAll, finished_nextToken,
      List.dropLast_cons_of_ne_nil (tokens_terminated _).ne_nil]
    rfl

end Lexer

theorem lexeme_replacement (items : List Item) : lexeme '\ufffd' items = (.unrecognized, []) := by
  have hd : Char.isDigit '\ufffd' = false := by decide
  have hw : isWordStart '\ufffd' = false := by decide +kernel
  rw [lexeme, hd, hw]
  rfl

/-- The tokens of items with a malformed byte among them, and of the same items with a replacement
character in its place, whatever stands behind. -/
theorem Lexer.exists_tokens_eq (items : List Item) (b : UInt8) (more more' : List Item) :
    ∃ before after after',
      tokens ⟨items ++ .byte b :: more, .start, false⟩ =
        before ++ ⟨.atEnd (items ++ [.byte b]), .malformed, ""⟩ :: after ∧
      tokens ⟨items ++ .char '\ufffd' :: more', .start, false⟩ =
        before ++ ⟨.atEnd (items ++ [.byte b]), .unrecognized, "\ufffd"⟩ :: after' := by
  have hplace : .atEnd (items ++ [.byte b]) = (Position.start.afterAll items).after (.byte b) := by
    rw [← Position.start_afterAll, Position.afterAll_append]
    rfl
  have hbyte := tokens_barred (Item.bars_byte b) ⟨items, .start, false⟩ more
  have hchar := tokens_barred Item.bars_replacement ⟨items, .start, false⟩ more'
  rw [tokens_of_bars (Item.bars_byte b)] at hbyte
  rw [tokens_of_bars Item.bars_replacement, tokenAt, lexeme_replacement] at hchar
  rw [hplace]
  exact ⟨_, _, _, hbyte, hchar⟩

/-! ## What is refused -/

/-- No formula has a token of the kind. -/
def Kind.Stray (kind : Kind) : Prop := kind = .malformed ∨ kind = .unrecognized

namespace Stage

variable {limits : Limits} {d : Draft} {t : Token}

theorem readUnit_stray (ht : t.kind.Stray) :
    readUnit limits d t = .error (.unexpected t .integer [.diceTerm, .leftParen]) := by
  rcases ht with ht | ht
  · simp only [readUnit, ht]
  · simp only [readUnit, ht]

theorem readEquation_stray (ht : t.kind.Stray) :
    readEquation limits t = .error (.unexpected t .integer [.diceTerm, .leftParen]) := by
  rcases ht with ht | ht
  · rw [readEquation_eq_readUnit (by simp [ht]) (by simp [ht]), readUnit_stray (.inl ht)]
  · rw [readEquation_eq_readUnit (by simp [ht]) (by simp [ht]), readUnit_stray (.inr ht)]

theorem readOperator_refusal (limits : Limits) (operand : Term) (d : Draft) :
    ∃ x xs, ∀ t : Token, t.kind.Stray →
      readOperator limits operand d t = .error (.unexpected t x xs) := by
  have ho (t : Token) (ht : t.kind.Stray) : t.kind.operator? = none := by
    rcases ht with ht | ht
    · rw [ht]; rfl
    · rw [ht]; rfl
  cases hd : d.outer with
  | nil =>
    refine ⟨.integer, [.diceTerm, .leftParen], fun t ht => ?_⟩
    simp only [readOperator, ho t ht, hd]
    exact readEquation_stray ht
  | cons level outer =>
    refine ⟨.rightParen, [], fun t ht => ?_⟩
    have hr : t.kind ≠ .rightParen := by rcases ht with ht | ht <;> simp [ht]
    simp only [readOperator, ho t ht, hd, if_neg hr]

/-- **A stage refuses stray tokens**, all of them in the same words. -/
theorem exists_refusal (limits : Limits) (stage : Stage) : ∃ x xs, ∀ t : Token, t.kind.Stray →
    stage.next limits t = .error (.unexpected t x xs) := by
  cases stage with
  | equation => exact ⟨_, _, fun t ht => readEquation_stray ht⟩
  | name words =>
    refine ⟨.equal, [], fun t ht => ?_⟩
    rcases ht with ht | ht
    · simp only [next, ht]
    · simp only [next, ht]
  | unit d => exact ⟨_, _, fun t ht => readUnit_stray ht⟩
  | signed negative d | faces count d =>
    refine ⟨.integer, [], fun t ht => ?_⟩
    rcases ht with ht | ht
    · simp only [next, ht]
    · simp only [next, ht]
  | integer value d =>
    obtain ⟨x, xs, hr⟩ := readOperator_refusal limits (.int value) d
    refine ⟨x, xs, fun t ht => ?_⟩
    rw [next_integer (by rcases ht with ht | ht <;> simp [ht])]
    exact hr t ht
  | operator operand d => exact readOperator_refusal limits operand d

end Stage

/-- A run over the tokens in front of a stray one fails among them, whatever follows, or at the
stray one in words that do not depend on it. -/
theorem Reading.run_stray (limits : Limits) (r : Reading) (before : List Token) :
    (∃ e, e.received ∈ before ∧ ∀ ts, run limits r (before ++ ts) = .error e) ∨
      ∃ x xs, ∀ (t : Token) (ts : List Token), t.kind.Stray →
        run limits r (before ++ t :: ts) = .error (.unexpected t x xs) := by
  cases hb : run limits r before with
  | error e =>
    obtain ⟨passed, later, -, hs, -⟩ := run_error_received hb
    refine .inl ⟨e, by rw [hs]; simp, fun ts => ?_⟩
    rw [run_append, hb]
    rfl
  | ok r' =>
    obtain ⟨x, xs, hr⟩ := r'.stage.exists_refusal limits
    refine .inr ⟨x, xs, fun t ts ht => ?_⟩
    exact run_eq_error_iff.2 ⟨before, t, ts, r', rfl, hb, hr t ht⟩

/-! ## Malformed tokens -/

theorem Munch.ne_malformed {kind : Kind} {cs more : List Char} (h : Munch kind cs more) :
    kind ≠ .malformed := by
  rintro rfl
  cases h with
  | longest hp =>
    cases hp with
    | sign hc => simp [Kind.signs] at hc

theorem Tokenized.exists_byte {items : List Item} {ts : List Token} (h : Tokenized items ts)
    {t : Token} (ht : t ∈ ts) (hk : t.kind = .malformed) : ∃ b, .byte b ∈ items := by
  induction h with
  | endOfInput _ he =>
    obtain rfl := List.mem_singleton.1 ht
    cases he.symm.trans hk
  | malformed => exact ⟨_, List.mem_append_right _ (.head _)⟩
  | munch _ hm _ _ ih =>
    rcases List.mem_cons.1 ht with rfl | ht
    · exact absurd hk hm.ne_malformed
    · obtain ⟨b, hb⟩ := ih ht
      exact ⟨b, by simp [hb]⟩

theorem Source.ne_malformed (text : String) :
    ∀ t ∈ (ofText text).tokens, t.kind ≠ .malformed := by
  intro t ht hk
  have hall := Lexer.tokenized_tokens (Lexer.ofSource (.ofText text))
  obtain ⟨b, hb⟩ := hall.exists_byte ht hk
  have hb : .byte b ∈ (ofText text).items := hb
  rw [Source.items_ofText] at hb
  obtain ⟨c, -, hc⟩ := List.mem_map.1 hb
  cases hc

theorem Source.exists_tokens_eq {bytes bad : List UInt8} {cs : List Char} {b : UInt8}
    {rest : List Piece}
    (h : Text.Utf8.decode bytes = cs.map .char ++ .malformed (b :: bad) :: rest) :
    ∃ before after after',
      (ofBytes bytes).tokens =
        before ++ ⟨.atEnd (cs.map .char ++ [.byte b]), .malformed, ""⟩ :: after ∧
      (ofText (ofBytes bytes).text).tokens =
        before ++ ⟨.atEnd (cs.map .char ++ [.byte b]), .unrecognized, "\ufffd"⟩ :: after' := by
  have hbytes : (ofBytes bytes).items =
      cs.map .char ++ .byte b :: (bad.map .byte ++ rest.flatMap Piece.items) := by
    rw [items, ofBytes, h, List.flatMap_append, List.flatMap_map, List.map_eq_flatMap]
    rfl
  have htext : (ofText (ofBytes bytes).text).items =
      cs.map .char ++ .char '\ufffd' :: (rest.map Piece.shown).map .char := by
    rw [items_ofText, text, String.toList_ofList, ofBytes, h]
    simp [Piece.shown, Function.comp_def]
  rw [tokens, tokens, Lexer.ofSource, Lexer.ofSource, hbytes, htext]
  exact Lexer.exists_tokens_eq _ b _ _

/-- The bytes spell characters up to the position, where the first malformed byte stands. -/
def FirstMalformed (bytes : List UInt8) (place : Position) : Prop :=
  ∃ (cs : List Char) (b : UInt8) (bad : List UInt8) (rest : List Piece),
    Text.Utf8.Reads bytes (cs.map .char ++ .malformed (b :: bad) :: rest) ∧
      place = .atEnd (cs.map .char ++ [.byte b])

/-- The bytes are refused with the error `e` and the text that shows them with `e'`, not behind the
first malformed byte, which stands at `place`. -/
structure RefusedAlike (bytes : List UInt8) (place : Position) (e e' : SyntaxError) : Prop where
  ofBytes : Formula.parse (.ofBytes bytes) = .error e
  ofText : Formula.parse (.ofText (Source.ofBytes bytes).text) = .error e'
  position : e'.position = e.position
  expected : e'.expected = e.expected
  /-- Both are about one token in front of the malformed byte, or the first is about this byte and
  the second about the replacement character that shows it. -/
  received : (e'.received = e.received ∧ e.received.kind ≠ .malformed ∧ e.position.Before place) ∨
    (e.received = ⟨place, .malformed, ""⟩ ∧ e'.received = ⟨place, .unrecognized, "\ufffd"⟩ ∧
      e.position = place)

/-- **Damaged bytes are refused, and the text that shows them is refused at the same place.** -/
theorem damaged_refused (bytes : List UInt8)
    (h : ¬ (ByteArray.mk bytes.toArray).IsValidUTF8) :
    ∃ place e e', FirstMalformed bytes place ∧ RefusedAlike bytes place e e' := by
  obtain ⟨cs, b, bad, rest, hdecode⟩ := Text.Utf8.exists_malformed h
  obtain ⟨before, after, after', hbytes, htext⟩ := Source.exists_tokens_eq hdecode
  have hfirst : FirstMalformed bytes (.atEnd (cs.map .char ++ [.byte b])) :=
    ⟨cs, b, bad, rest, Text.Utf8.reads_iff.2 hdecode.symm, rfl⟩
  rcases Reading.run_stray .standard .start before with ⟨e, hmem, hrun⟩ | ⟨x, xs, hrun⟩
  · have hparse : Formula.parse (.ofBytes bytes) = .error e :=
      Formula.ofTokens_eq_error_iff.2 (hbytes ▸ hrun _)
    have hparse' : Formula.parse (.ofText (Source.ofBytes bytes).text) = .error e :=
      Formula.ofTokens_eq_error_iff.2 (htext ▸ hrun _)
    have hkind : e.received.kind ≠ .malformed :=
      Source.ne_malformed _ _ (htext ▸ List.mem_append_left _ hmem)
    have hpairs := (Lexer.ofSource (.ofBytes bytes)).tokens_pairwise
    rw [← Source.tokens, hbytes, List.pairwise_append] at hpairs
    have hplace := (hpairs.2.2 e.received hmem _ (.head _)).2.resolve_left (by simp)
    have hposition := (Formula.received_of_parse hparse).2
    exact ⟨_, e, e, hfirst, hparse, hparse', rfl, rfl, .inl ⟨rfl, hkind, hposition ▸ hplace⟩⟩
  · have hparse : Formula.parse (.ofBytes bytes) = .error (.unexpected _ x xs) :=
      Formula.ofTokens_eq_error_iff.2 (hbytes ▸ hrun _ _ (.inl rfl))
    have hparse' : Formula.parse (.ofText (Source.ofBytes bytes).text) =
        .error (.unexpected _ x xs) :=
      Formula.ofTokens_eq_error_iff.2 (htext ▸ hrun _ _ (.inr rfl))
    exact ⟨_, _, _, hfirst, hparse, hparse', rfl, rfl, .inr ⟨rfl, rfl, rfl⟩⟩

/-- In `x=2^` and two bytes of a character of three an operand is missing where the first of them
stands. -/
theorem damaged_operand_refused :
    ¬ (ByteArray.mk [120, 61, 50, 94, 0xE2, 0x82].toArray).IsValidUTF8 ∧
      ∃ place e e', FirstMalformed [120, 61, 50, 94, 0xE2, 0x82] place ∧
        RefusedAlike [120, 61, 50, 94, 0xE2, 0x82] place e e' := by
  have h : ¬ (ByteArray.mk [120, 61, 50, 94, 0xE2, 0x82].toArray).IsValidUTF8 := by decide +kernel
  exact ⟨h, damaged_refused _ h⟩

end DiceNotation
