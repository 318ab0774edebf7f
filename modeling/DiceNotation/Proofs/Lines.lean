/-
Positions looked up in the text they are about. A source is seen line by line, a
line break as the last item of the line that it ends (`linesOf`), and the lines
leave no item out (`flatten_linesOf`). Every item has its place there
(`Position.item?_ofLast`), and the position of a token is that of its first item,
with one exception: U+001C to U+001E end a line without being separators, so they
are tokens, and a token of them has column 0 of the line that it begins and not
the place where it stands (`positions_name_places`).
-/
import DiceNotation.Proofs.Positions

namespace DiceNotation

open Text (Piece)

/-- The lines of items. A line break is the last item of the line that it ends, and behind the last
line break one more line stands, which may be empty. -/
def linesOf : List Item → List (List Item)
  | [] => [[]]
  | i :: items =>
    if i.breaksLine then [i] :: linesOf items else (linesOf items).modifyHead (i :: ·)

namespace Position

/-- The item at a position. Lines count from 1, and so do the items of a line. -/
def item? (items : List Item) : Position → Option Item
  | ⟨line + 1, column + 1⟩ => (linesOf items)[line]?.bind (·[column]?)
  | _ => none

/-- The place of the last of the items: behind all the others, in the line that these lead to. -/
def ofLast (items : List Item) : Position :=
  ⟨(atEnd items.dropLast).line, (atEnd items.dropLast).column + 1⟩

/-! ## The place of an item -/

theorem one_le_line_atEnd (items : List Item) : 1 ≤ (atEnd items).line := Nat.le_add_right _ _

theorem atEnd_concat (items : List Item) (i : Item) :
    atEnd (items ++ [i]) = (atEnd items).after i := by
  rw [← start_afterAll, ← start_afterAll, afterAll_append]
  rfl

theorem atEnd_cons_of_break {i : Item} (hi : i.breaksLine = true) (items : List Item) :
    atEnd (i :: items) = ⟨(atEnd items).line + 1, (atEnd items).column⟩ := by
  induction items using List.reverseRecOn with
  | nil =>
    rw [← List.nil_append [i], atEnd_concat, after, ← Item.breaksLine, if_pos hi]
    rfl
  | append_singleton items j ih =>
    rw [← List.cons_append, atEnd_concat, atEnd_concat, ih, after, after]
    split <;> rfl

theorem atEnd_cons {i : Item} (hi : i.breaksLine = false) (items : List Item) :
    atEnd (i :: items) =
      if (atEnd items).line = 1 then ⟨1, (atEnd items).column + 1⟩ else atEnd items := by
  induction items using List.reverseRecOn with
  | nil =>
    rw [← List.nil_append [i], atEnd_concat, after, ← Item.breaksLine, if_neg (by simp [hi])]
    rfl
  | append_singleton items j ih =>
    have hline := one_le_line_atEnd items
    rw [← List.cons_append, atEnd_concat, atEnd_concat, ih, after, after]
    by_cases hj : j.satisfies Text.isLineBreak = true
    · have hnext : (atEnd items).line + 1 ≠ 1 := by omega
      simp only [if_pos hj, if_neg hnext]
      split
      next h => rw [h]
      next => rfl
    · rw [if_neg hj, if_neg hj]
      dsimp only
      split <;> rfl

end Position

theorem exists_linesOf (items : List Item) : ∃ line lines, linesOf items = line :: lines := by
  induction items with
  | nil => exact ⟨[], [], rfl⟩
  | cons i items ih =>
    obtain ⟨line, lines, h⟩ := ih
    rw [linesOf]
    split
    · exact ⟨_, _, rfl⟩
    · rw [h]
      exact ⟨_, _, rfl⟩

theorem flatten_linesOf (items : List Item) : (linesOf items).flatten = items := by
  induction items with
  | nil => rfl
  | cons i items ih =>
    obtain ⟨line, lines, h⟩ := exists_linesOf items
    rw [linesOf]
    split
    · rw [List.flatten_cons, ih, List.singleton_append]
    · rw [h] at ih ⊢
      exact congrArg (i :: ·) ih

/-- **Every item has its place** in the lines. -/
theorem Position.item?_next (before : List Item) (i : Item) (rest : List Item) :
    item? (before ++ i :: rest) ⟨(atEnd before).line, (atEnd before).column + 1⟩ = some i := by
  induction before with
  | nil =>
    obtain ⟨line, lines, h⟩ := exists_linesOf rest
    change (linesOf (i :: rest))[0]?.bind (·[0]?) = some i
    rw [linesOf, h]
    split <;> rfl
  | cons b before ih =>
    obtain ⟨line, lines, h⟩ := exists_linesOf (before ++ i :: rest)
    rw [List.cons_append]
    generalize hq : atEnd before = q at ih
    obtain ⟨n, column⟩ := q
    obtain ⟨n, rfl⟩ : ∃ m, n = m + 1 := by
      have := hq ▸ one_le_line_atEnd before
      exact ⟨n - 1, by dsimp only at this; omega⟩
    -- A line break in front is a line of its own; any other item is one more in the first line.
    by_cases hb : b.breaksLine = true
    · rw [atEnd_cons_of_break hb, hq]
      change (linesOf (b :: (before ++ i :: rest)))[n + 1]?.bind (·[column]?) = some i
      rw [linesOf, if_pos hb]
      exact ih
    · rw [atEnd_cons (by simpa using hb), hq]
      have hlines : linesOf (b :: (before ++ i :: rest)) = (b :: line) :: lines := by
        rw [linesOf, if_neg hb, h]
        rfl
      rw [item?, h] at ih
      cases n with
      | zero =>
        change (linesOf (b :: (before ++ i :: rest)))[0]?.bind (·[column + 1]?) = some i
        rw [hlines]
        exact ih
      | succ n =>
        change (linesOf (b :: (before ++ i :: rest)))[n + 1]?.bind (·[column]?) = some i
        rw [hlines]
        exact ih

theorem Position.item?_ofLast {items all : List Item} {i : Item} (h : items ++ [i] <+: all) :
    item? all (ofLast (items ++ [i])) = some i := by
  obtain ⟨rest, rfl⟩ := h
  rw [ofLast, List.dropLast_concat, List.append_assoc]
  exact item?_next items i rest

/-! ## Tokens that end a line -/

/-- The token is a line break itself. -/
def Token.BreaksLine (t : Token) : Prop :=
  t.kind = .unrecognized ∧ (t.text = "\x1c" ∨ t.text = "\x1d" ∨ t.text = "\x1e")

instance (t : Token) : Decidable t.BreaksLine := inferInstanceAs (Decidable (_ ∧ _))

/-- The line breaks that separate no tokens. -/
theorem eq_of_isLineBreak {c : Char} (h : Text.isLineBreak c = true)
    (hs : Text.isSeparator c = false) : c = '\x1c' ∨ c = '\x1d' ∨ c = '\x1e' := by
  have hn : c.toNat = 0x1C ∨ c.toNat = 0x1D ∨ c.toNat = 0x1E := by
    simp only [Text.isLineBreak, Text.isSeparator, Text.inRanges, Text.lineBreakRanges,
      Text.separatorRanges] at h hs
    grind
  rw [← Char.ofNat_toNat c]
  rcases hn with hn | hn | hn
  all_goals simp [hn]

theorem isLineBreak_of_sign {kind : Kind} {c : Char} (h : (kind, c) ∈ Kind.signs) :
    Text.isLineBreak c = false := by
  have hs : ∀ x ∈ Kind.signs, Text.isLineBreak x.2 = false := by decide
  exact hs _ h

theorem isLineBreak_of_isDigit {c : Char} (h : c.isDigit = true) : Text.isLineBreak c = false :=
  Text.not_inRanges_of_isDigit (by decide) h

theorem Text.letters_apart_lineBreaks : Apart letterRanges lineBreakRanges := by decide +kernel

theorem isLineBreak_of_isWordStart {c : Char} (h : isWordStart c = true) :
    Text.isLineBreak c = false := by
  rcases isWordStart_iff.1 h with h | rfl
  · exact Text.letters_apart_lineBreaks.not_inRanges h
  · decide

theorem Pattern.isLineBreak_head {kind : Kind} {c : Char} {cs : List Char}
    (h : Pattern kind (c :: cs)) : Text.isLineBreak c = false := by
  rcases h.cons_cases with ⟨hc, -⟩ | ⟨hc, -⟩ | ⟨hc, -⟩
  · exact isLineBreak_of_sign hc
  · exact isLineBreak_of_isDigit hc
  · exact isLineBreak_of_isWordStart hc

theorem Munch.isLineBreak_iff {t : Token} {c : Char} {cs more : List Char}
    (h : Munch t.kind (c :: cs) more) (ht : t.text = String.ofList (c :: cs)) :
    Text.isLineBreak c = true ↔ t.BreaksLine := by
  constructor
  · intro hc
    have hs := eq_of_isLineBreak hc h.isSeparator_head
    generalize hk : t.kind = kind at h
    cases h with
    | longest hp =>
      rw [hp.isLineBreak_head] at hc
      cases hc
    | unrecognized =>
      refine ⟨hk, ?_⟩
      rcases hs with rfl | rfl | rfl
      · exact .inl ht
      · exact .inr (.inl ht)
      · exact .inr (.inr ht)
  · rintro ⟨-, hb⟩
    rw [ht] at hb
    rcases hb with hb | hb | hb
    all_goals
      obtain rfl := (List.cons.inj (String.ofList_injective hb)).1
      decide

/-- The item is the first of the token: the first character of its text, or the byte that is
malformed. -/
def Item.Starts : Item → Token → Prop
  | .char c, t => t.text.toList.head? = some c
  | .byte _, t => t.kind = .malformed

theorem Located.starts {before items : List Item} {ts : List (Token × List Item)}
    (h : Located before items ts) : ∀ t ∈ ts, t.1.kind ≠ .endOfInput → t.2 <+: before ++ items ∧
      ∃ q i, t.2 = q ++ [i] ∧ i.Starts t.1 ∧ (i.breaksLine = true ↔ t.1.BreaksLine) := by
  induction h with
  | endOfInput _ hk => exact List.forall_mem_singleton.2 fun h => absurd hk h
  | @malformed b items ts before t gap _ hk _ _ ih =>
    refine List.forall_mem_cons.2 ⟨fun _ => ⟨?_, _, _, rfl, hk, ?_⟩, ?_⟩
    · exact ⟨items, by simp⟩
    · exact iff_of_false Bool.false_ne_true fun hb => by cases hk.symm.trans hb.1
    · simpa using ih
  | @munch c cs items before ts t gap _ hm ht _ ih =>
    refine List.forall_mem_cons.2 ⟨fun _ => ⟨?_, _, _, rfl, ?_, hm.isLineBreak_iff ht⟩, ?_⟩
    · exact ⟨cs.map .char ++ items, by simp⟩
    · rw [Item.Starts, ht, String.toList_ofList]
      rfl
    · simpa using ih

/-- What an error is about is a token of the source, and the position is the token's. -/
theorem Formula.received_of_parse {s : Source} {e : SyntaxError} (h : parse s = .error e) :
    e.received ∈ s.tokens ∧ e.position = e.received.position := by
  obtain ⟨before, after, -, hs, -, -, hp⟩ :=
    Reading.run_error_received (ofTokens_eq_error_iff.1 h)
  have hs : s.tokens = before ++ e.received :: after := hs
  exact ⟨hs ▸ by simp, hp⟩

/-- What the position of a token names among `items`, where `read` are those up to the first item of
the token: the place of this item, or column 0 of the next line if the token is a line break. -/
structure Token.Placed (items read : List Item) (t : Token) : Prop where
  line : 1 ≤ t.position.line
  named : ¬ t.BreaksLine → t.position = .ofLast read ∧ 1 ≤ t.position.column ∧
    ∃ i, Position.item? items t.position = some i ∧ i.Starts t
  missed : t.BreaksLine → t.position = ⟨(Position.ofLast read).line + 1, 0⟩ ∧
    Position.item? items t.position = none ∧
      ∃ i, Position.item? items (.ofLast read) = some i ∧ i.Starts t

theorem Position.atEnd_eq_ofLast (items : List Item) (i : Item) : atEnd (items ++ [i]) =
    if i.breaksLine then ⟨(ofLast (items ++ [i])).line + 1, 0⟩ else ofLast (items ++ [i]) := by
  rw [atEnd_concat, ofLast, List.dropLast_concat]
  rfl

theorem Token.placed_of_atEnd {items read : List Item} {t : Token} {i : Item}
    (hp : t.position = .atEnd (read ++ [i])) (hr : read ++ [i] <+: items) (hi : i.Starts t)
    (hb : i.breaksLine = true ↔ t.BreaksLine) : t.Placed items (read ++ [i]) where
  line := hp ▸ Position.one_le_line_atEnd _
  named := by
    intro h
    rw [Position.atEnd_eq_ofLast, if_neg (hb.not.2 h)] at hp
    rw [hp]
    exact ⟨rfl, Nat.le_add_left _ _, i, Position.item?_ofLast hr, hi⟩
  missed := by
    intro h
    rw [Position.atEnd_eq_ofLast, if_pos (hb.2 h)] at hp
    rw [hp]
    exact ⟨rfl, rfl, i, Position.item?_ofLast hr, hi⟩

/-- **A position names the place of its token**, unless the token is a line break. Whatever the bytes
are, there is one way to cut their characters and malformed bytes into tokens, and the lexer gives
these. At the position of a token other than the end of the input stands the item that it starts
with, and only the tokens U+001C to U+001E have the column 0 of the next line, where nothing stands.
The position of a syntax error is that of the token that it is about. -/
theorem positions_name_places (bytes : List UInt8) :
    ∃ pieces ts, (∀ ps, Text.Utf8.Reads bytes ps ↔ ps = pieces) ∧
      Located [] (pieces.flatMap Piece.items) ts ∧
      (∀ ts', Located [] (pieces.flatMap Piece.items) ts' → ts'.map lexemeOf = ts.map lexemeOf) ∧
      (Lexer.ofSource (.ofBytes bytes)).Yields (ts.map Prod.fst) ∧
      (∀ t ∈ ts, t.1.kind ≠ .endOfInput → t.1.Placed (pieces.flatMap Piece.items) t.2) ∧
      ∀ e, Formula.parse (.ofBytes bytes) = .error e →
        e.position = e.received.position ∧ ∃ read, (e.received, read) ∈ ts := by
  obtain ⟨ts, hts⟩ := (Lexer.ofSource (.ofBytes bytes)).exists_stands [] rfl
  have hl : Located [] ((Text.Utf8.decode bytes).flatMap Piece.items) ts := hts.located
  refine ⟨_, ts, fun _ => Text.Utf8.reads_iff, hl, fun ts' h => h.unique hl, ?_, fun t ht hk => ?_,
    fun e he => ?_⟩
  · rw [hts.tokens]
    exact Lexer.yields_tokens rfl
  · obtain ⟨hr, read, i, hread, hi, hb⟩ := hl.starts t ht hk
    have hp := hts.position_atEnd t ht
    rw [hread] at hp hr ⊢
    exact Token.placed_of_atEnd hp hr hi hb
  · obtain ⟨ht, hp⟩ := Formula.received_of_parse he
    have ht : e.received ∈ ts.map Prod.fst := hts.tokens ▸ ht
    obtain ⟨t, ht, hreceived⟩ := List.mem_map.1 ht
    exact ⟨hp, t.2, hreceived ▸ ht⟩

/-- U+001C is the first item of line 1. Its token, and the error that this is no formula, have column
0 of line 2, where no item is. -/
theorem separator_misplaced :
    (Source.ofBytes [0x1C]).tokens =
        [⟨⟨2, 0⟩, .unrecognized, "\x1c"⟩, ⟨⟨2, 0⟩, .endOfInput, ""⟩] ∧
      Position.item? (Source.ofBytes [0x1C]).items ⟨2, 0⟩ = none ∧
      Position.item? (Source.ofBytes [0x1C]).items ⟨1, 1⟩ = some (.char '\x1c') ∧
      Formula.parse (.ofBytes [0x1C]) = .error (.unexpected ⟨⟨2, 0⟩, .unrecognized, "\x1c"⟩ .integer
        [.diceTerm, .leftParen]) := by
  decide +kernel

end DiceNotation
