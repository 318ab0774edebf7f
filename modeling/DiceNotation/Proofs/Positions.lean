/-
Where tokens stand. The position of a token tells how much of the source is read
once its first item is: the lines are the line breaks in it, and the column is
what stands after the last of them (`Position.atEnd`). What is read by then is
settled by the source alone: there is one way to make its items of tokens and
separators (`Located.unique`), and the lexer, which goes forward item by item,
takes this one and gives each token the position of its place
(`Lexer.exists_stands`).
-/
import Mathlib.Data.List.DropRight
import DiceNotation.Proofs.MaximalMunch

namespace DiceNotation

open Text (Piece)

/-! ## The position at the end of items -/

/-- The item ends a line. -/
def Item.breaksLine (i : Item) : Bool := i.satisfies Text.isLineBreak

/-- The position of the last of the items: one line more than there are line breaks, and as many
columns as there are items after the last line break. -/
def Position.atEnd (items : List Item) : Position :=
  ⟨1 + items.countP Item.breaksLine, (items.rtakeWhile (!·.breaksLine)).length⟩

theorem Position.start_afterAll (items : List Item) : start.afterAll items = atEnd items := by
  induction items using List.reverseRecOn with
  | nil => rfl
  | append_singleton items i ih =>
    rw [afterAll_append, ih, afterAll_cons, afterAll_nil, after, atEnd, atEnd, ← Item.breaksLine]
    by_cases hi : i.breaksLine = true
    · rw [if_pos hi, List.rtakeWhile_concat_neg _ _ _ (by simp [hi])]
      simp [hi, Nat.add_assoc]
    · rw [if_neg hi, List.rtakeWhile_concat_pos _ _ _ (by simpa using hi)]
      simp [hi]

theorem Position.atEnd_eq_or_before {before items : List Item} (h : before <+: items) :
    before = items ∨ (atEnd before).Before (atEnd items) := by
  obtain ⟨more, rfl⟩ := h
  cases more with
  | nil => exact .inl (List.append_nil _).symm
  | cons i more =>
    refine .inr ?_
    rw [← start_afterAll, ← start_afterAll, afterAll_append, afterAll_cons]
    have hi := (start.afterAll before).before_after i
    rcases ((start.afterAll before).after i).afterAll_eq_or_before more with hm | hm
    · rwa [← hm]
    · exact hi.trans hm

/-! ## Where tokens start -/

/-- The tokens that the items after `before` are made of, each with all that is read once its first
item is. For the end of the input this is the whole source. -/
inductive Located : List Item → List Item → List (Token × List Item) → Prop
  | endOfInput {gap : List Char} : (∀ c ∈ gap, Text.isSeparator c = true) →
      t.kind = .endOfInput → t.text = "" →
      Located before (gap.map .char) [(t, before ++ gap.map .char)]
  | malformed {gap : List Char} : (∀ c ∈ gap, Text.isSeparator c = true) →
      t.kind = .malformed → t.text = "" →
      Located (before ++ gap.map .char ++ [.byte b]) items ts →
      Located before (gap.map .char ++ .byte b :: items)
        ((t, before ++ gap.map .char ++ [.byte b]) :: ts)
  | munch {gap : List Char} : (∀ c ∈ gap, Text.isSeparator c = true) →
      Munch t.kind (c :: cs) (runOf items) → t.text = String.ofList (c :: cs) →
      Located (before ++ gap.map .char ++ (c :: cs).map .char) items ts →
      Located before (gap.map .char ++ ((c :: cs).map .char ++ items))
        ((t, before ++ gap.map .char ++ [.char c]) :: ts)

/-! ## One way to cut items into tokens -/

theorem Text.letters_apart : Apart letterRanges separatorRanges := by decide +kernel

theorem isSeparator_of_isWordStart {c : Char} (h : isWordStart c = true) :
    Text.isSeparator c = false := by
  rcases isWordStart_iff.1 h with h | rfl
  · exact Text.letters_apart.not_inRanges h
  · decide

theorem isSeparator_of_sign {kind : Kind} {c : Char} (h : (kind, c) ∈ Kind.signs) :
    Text.isSeparator c = false := by
  have hs : ∀ x ∈ Kind.signs, Text.isSeparator x.2 = false := by decide
  exact hs _ h

theorem Munch.isSeparator_head {kind : Kind} {c : Char} {cs more : List Char}
    (h : Munch kind (c :: cs) more) : Text.isSeparator c = false := by
  cases h with
  | unrecognized hc => exact hc
  | longest hp =>
    rcases hp.cons_cases with ⟨hc, -⟩ | ⟨hc, -⟩ | ⟨hc, -⟩
    · exact isSeparator_of_sign hc
    · exact isSeparator_of_isDigit hc
    · exact isSeparator_of_isWordStart hc

theorem isWordStart_of_sign {kind : Kind} {c : Char} (h : (kind, c) ∈ Kind.signs) :
    isWordStart c = false ∧ c.isDigit = false := by
  have hs : ∀ x ∈ Kind.signs, isWordStart x.2 = false ∧ x.2.isDigit = false := by decide
  exact hs _ h

theorem Kind.signs_inj {kind kind' : Kind} {c : Char} (h : (kind, c) ∈ signs)
    (h' : (kind', c) ∈ signs) : kind = kind' := by
  have hs : ∀ x ∈ signs, ∀ y ∈ signs, x.2 = y.2 → x.1 = y.1 := by decide
  exact hs _ h _ h' rfl

/-- What a text looks like is settled by its first character, but for dice, which are words too. -/
theorem Pattern.kind_eq {kind kind' : Kind} {cs : List Char} (h : Pattern kind cs)
    (h' : Pattern kind' cs) : kind = kind' ∨ Pattern .dice cs ∧ (kind = .word ∨ kind' = .word) := by
  cases h with
  | sign hc =>
    obtain ⟨hw, hd⟩ := isWordStart_of_sign hc
    cases h' with
    | sign hc' => exact .inl (Kind.signs_inj hc hc')
    | dice hc' => rw [isWordStart_of_dice hc'] at hw; cases hw
    | integer _ hds => rw [hds _ (.head _)] at hd; cases hd
    | word hc' => rw [isWordStart_iff.2 hc'] at hw; cases hw
  | dice hc hcs =>
    have hw := isWordStart_of_dice hc
    cases h' with
    | sign hc' => rw [(isWordStart_of_sign hc').1] at hw; cases hw
    | dice => exact .inl rfl
    | integer _ hds => exact absurd (hds _ (.head _)) (not_isDigit_of_isWordStart hw)
    | word => exact .inr ⟨.dice hc hcs, .inr rfl⟩
  | integer hne hds =>
    cases h' with
    | sign hc' => exact absurd (hds _ (.head _)) (by simp [(isWordStart_of_sign hc').2])
    | dice hc' =>
      exact absurd (hds _ (.head _)) (not_isDigit_of_isWordStart (isWordStart_of_dice hc'))
    | integer => exact .inl rfl
    | word hc' =>
      exact absurd (hds _ (.head _)) (not_isDigit_of_isWordStart (isWordStart_iff.2 hc'))
  | word hc hcs =>
    have hw := isWordStart_iff.2 hc
    cases h' with
    | sign hc' => rw [(isWordStart_of_sign hc').1] at hw; cases hw
    | dice hc' hcs' => exact .inr ⟨.dice hc' hcs', .inl rfl⟩
    | integer _ hds => exact absurd (hds _ (.head _)) (not_isDigit_of_isWordStart hw)
    | word => exact .inl rfl

/-- **One token stands at the front of characters.** -/
theorem Munch.unique {kind kind' : Kind} {cs cs' more more' : List Char} (h : Munch kind cs more)
    (h' : Munch kind' cs' more') (he : cs ++ more = cs' ++ more') : kind = kind' ∧ cs = cs' := by
  cases h with
  | longest hp hl hd =>
    cases h' with
    | longest hp' hl' hd' =>
      have hlen : cs.length = cs'.length := by
        have := hl kind' cs' hp' (he ▸ List.prefix_append cs' more')
        have := hl' kind cs hp (he ▸ List.prefix_append cs more)
        omega
      obtain ⟨rfl, -⟩ := List.append_inj he hlen
      refine ⟨?_, rfl⟩
      rcases hp.kind_eq hp' with hk | ⟨hdice, rfl | rfl⟩
      · exact hk
      · cases hd hdice
      · cases hd' hdice
    | @unrecognized c _ hc hn =>
      exact absurd (show cs <+: c :: more' from ⟨more, he⟩) (hn kind cs hp)
  | @unrecognized c _ hc hn =>
    cases h' with
    | longest hp' =>
      exact absurd (show cs' <+: c :: more from ⟨more', he.symm⟩) (hn kind' cs' hp')
    | unrecognized =>
      obtain ⟨rfl, -⟩ := List.cons.inj he
      exact ⟨rfl, rfl⟩

theorem gap_unique {gap gap' : List Char} {items items' : List Item}
    (hg : ∀ c ∈ gap, Text.isSeparator c = true) (hg' : ∀ c ∈ gap', Text.isSeparator c = true)
    (hi : ∀ i ∈ items.head?, i.satisfies Text.isSeparator = false)
    (hi' : ∀ i ∈ items'.head?, i.satisfies Text.isSeparator = false)
    (he : gap.map .char ++ items = gap'.map .char ++ items') : gap = gap' ∧ items = items' := by
  induction gap generalizing gap' with
  | nil =>
    cases gap' with
    | nil => exact ⟨rfl, he⟩
    | cons c gap' =>
      obtain rfl : items = _ := he
      exact absurd (hi (.char c) rfl) (by simp [Item.satisfies, hg' c (.head _)])
  | cons c gap ih =>
    cases gap' with
    | nil =>
      obtain rfl : _ = items' := he
      exact absurd (hi' (.char c) rfl) (by simp [Item.satisfies, hg c (.head _)])
    | cons c' gap' =>
      obtain ⟨hc, ht⟩ := List.cons.inj he
      cases hc
      obtain ⟨rfl, rfl⟩ :=
        ih (List.forall_mem_cons.1 hg).2 (List.forall_mem_cons.1 hg').2 ht
      exact ⟨rfl, rfl⟩

/-- What stands behind the separators at the front of items settles the token there. -/
inductive Located.Front (read : List Item) : List Item → List (Token × List Item) → Prop
  | endOfInput : t.kind = .endOfInput → t.text = "" → Front read [] [(t, read)]
  | malformed : t.kind = .malformed → t.text = "" → Located (read ++ [.byte b]) items ts →
      Front read (.byte b :: items) ((t, read ++ [.byte b]) :: ts)
  | munch : Munch t.kind (c :: cs) (runOf items) → t.text = String.ofList (c :: cs) →
      Located (read ++ (c :: cs).map .char) items ts →
      Front read ((c :: cs).map .char ++ items) ((t, read ++ [.char c]) :: ts)

theorem Located.front {before items : List Item} {gap : List Char} {ts : List (Token × List Item)}
    (h : Located before (gap.map .char ++ items) ts)
    (hg : ∀ c ∈ gap, Text.isSeparator c = true)
    (hi : ∀ i ∈ items.head?, i.satisfies Text.isSeparator = false) :
    Front (before ++ gap.map .char) items ts := by
  generalize he : gap.map .char ++ items = all at h
  cases h with
  | @endOfInput t _ gap' hg' hk ht =>
    obtain ⟨rfl, rfl⟩ := gap_unique hg hg' hi (by nofun) (he.trans (List.append_nil _).symm)
    exact .endOfInput hk ht
  | malformed hg' hk ht hl =>
    obtain ⟨rfl, rfl⟩ := gap_unique hg hg' hi (by simp [Item.satisfies]) he
    exact .malformed hk ht hl
  | munch hg' hm ht hl =>
    obtain ⟨rfl, rfl⟩ := gap_unique hg hg' hi (by simp [Item.satisfies, hm.isSeparator_head]) he
    exact .munch hm ht hl

/-- What a located token is: its kind, its text and what is read once its first item is. -/
def lexemeOf (t : Token × List Item) : Kind × String × List Item := (t.1.kind, t.1.text, t.2)

/-- **There is one way to cut items into tokens**, each at its place. -/
theorem Located.unique {before items : List Item} {ts ts' : List (Token × List Item)}
    (h : Located before items ts) (h' : Located before items ts') :
    ts.map lexemeOf = ts'.map lexemeOf := by
  induction h generalizing ts' with
  | @endOfInput t before gap hg hk ht =>
    rw [← List.append_nil (gap.map Item.char)] at h'
    cases h'.front hg (by nofun) with
    | endOfInput hk' ht' => simp [lexemeOf, hk, hk', ht, ht']
  | malformed hg hk ht _ ih =>
    cases h'.front hg (by simp [Item.satisfies]) with
    | malformed hk' ht' hl => simp [lexemeOf, hk, hk', ht, ht', ih hl]
  | @munch c cs items before ts t gap hg hm ht _ ih =>
    have hf := h'.front hg (by simp [Item.satisfies, hm.isSeparator_head])
    generalize he : (c :: cs).map Item.char ++ items = rest at hf
    cases hf with
    | endOfInput => cases he
    | malformed => cases he
    | @munch c' cs' items' ts' t' hm' ht' hl =>
      have hrun : (c :: cs) ++ runOf items = (c' :: cs') ++ runOf items' := by
        rw [← runOf_append, ← runOf_append, he]
      obtain ⟨hk, hcs⟩ := hm.unique hm' hrun
      obtain ⟨rfl, rfl⟩ := List.cons.inj hcs
      obtain rfl := List.append_cancel_left he
      simp [lexemeOf, hk, ht, ht', ih hl]

/-! ## Places go forward -/

/-- The token is located behind the items, or at the end of them if it is the end of the input. -/
def Behind (before : List Item) (t : Token × List Item) : Prop :=
  before <+: t.2 ∧ (t.1.kind ≠ .endOfInput → before ≠ t.2)

theorem Behind.of_isPrefix {before items : List Item} {t : Token × List Item}
    (h : Behind items t) (hp : before <+: items) : Behind before t := by
  refine ⟨hp.trans h.1, fun hk he => h.2 hk ?_⟩
  exact h.1.eq_of_length_le (he ▸ hp.length_le)

theorem behind_append {before gap : List Item} {i : Item} {t : Token} :
    Behind before (t, before ++ gap ++ [i]) := by
  refine ⟨?_, fun _ => ?_⟩
  · rw [List.append_assoc]
    exact List.prefix_append _ _
  · simp

namespace Located

variable {before items : List Item} {ts : List (Token × List Item)}

theorem behind (h : Located before items ts) : ∀ t ∈ ts, Behind before t := by
  induction h with
  | endOfInput _ hk =>
    refine List.forall_mem_singleton.2 ⟨List.prefix_append _ _, fun h => absurd hk h⟩
  | malformed _ _ _ _ ih =>
    refine List.forall_mem_cons.2 ⟨behind_append, fun t ht => (ih t ht).of_isPrefix ?_⟩
    rw [List.append_assoc]
    exact List.prefix_append _ _
  | munch _ _ _ _ ih =>
    refine List.forall_mem_cons.2 ⟨behind_append, fun t ht => (ih t ht).of_isPrefix ?_⟩
    rw [List.append_assoc]
    exact List.prefix_append _ _

theorem pairwise (h : Located before items ts) : ts.Pairwise fun t u => Behind t.2 u := by
  induction h with
  | endOfInput => exact List.pairwise_singleton _ _
  | malformed _ _ _ hl ih => exact List.pairwise_cons.2 ⟨hl.behind, ih⟩
  | munch _ _ _ hl ih =>
    refine List.pairwise_cons.2 ⟨fun u hu => (hl.behind u hu).of_isPrefix ?_, ih⟩
    exact List.prefix_append_right_inj _ |>.2 (List.prefix_append [_] _)

end Located

theorem Behind.before {t u : Token × List Item} (h : Behind t.2 u)
    (ht : t.1.position = Position.atEnd t.2) (hu : u.1.position = Position.atEnd u.2) :
    (u.1.kind ≠ .endOfInput → t.1.position.Before u.1.position) ∧
      ¬ u.1.position.Before t.1.position := by
  rw [ht, hu]
  rcases Position.atEnd_eq_or_before h.1 with he | hb
  · rw [he]
    exact ⟨fun hk => absurd he (h.2 hk), fun hb => hb.ne rfl⟩
  · exact ⟨fun _ => hb, fun hb' => (hb.trans hb').ne rfl⟩

/-! ## The lexer keeps the positions -/

namespace Lexer

/-- The tokens of the lexer with what is read once their first items are, where the lexer has come
to the end of `before`: each has the position of its place. -/
structure Stands (lx : Lexer) (before : List Item) (ts : List (Token × List Item)) : Prop where
  located : Located before lx.rest ts
  tokens : ts.map Prod.fst = lx.tokens
  position : ∀ t ∈ ts, t.1.position = Position.start.afterAll t.2

theorem Stands.position_atEnd {lx : Lexer} {before : List Item} {ts : List (Token × List Item)}
    (h : lx.Stands before ts) : ∀ t ∈ ts, t.1.position = Position.atEnd t.2 := by
  intro t ht
  rw [← Position.start_afterAll]
  exact h.position t ht

/-- The token at the front of items that start with no separator stands where it should if the
tokens after it do. -/
theorem stands_tokenAt {lx : Lexer} {before items : List Item} {gap : List Char} {p : Position}
    {b : Bool} (hr : lx.rest = gap.map .char ++ items)
    (hg : ∀ c ∈ gap, Text.isSeparator c = true)
    (hs : ∀ i ∈ items.head?, i.satisfies Text.isSeparator = false)
    (hp : p = Position.start.afterAll (before ++ gap.map .char))
    (ht : lx.tokens = (tokenAt p b items).1 :: (tokenAt p b items).2.tokens)
    (hk : (tokenAt p b items).1.kind ≠ .endOfInput)
    (h : ∀ before', (tokenAt p b items).2.position = Position.start.afterAll before' →
      ∃ ts, (tokenAt p b items).2.Stands before' ts) : ∃ ts, lx.Stands before ts := by
  cases items with
  | nil => exact absurd rfl hk
  | cons i items =>
    cases i with
    | byte x =>
      have hplace : p.after (.byte x) =
          Position.start.afterAll (before ++ gap.map .char ++ [.byte x]) := by
        rw [Position.afterAll_append, ← hp]
        rfl
      obtain ⟨ts, hts⟩ := h _ hplace
      refine ⟨((tokenAt p b (.byte x :: items)).1, before ++ gap.map .char ++ [.byte x]) :: ts,
        ?_, ?_, ?_⟩
      · rw [hr]
        exact .malformed hg rfl rfl hts.located
      · rw [ht, List.map_cons, hts.tokens]
      · exact List.forall_mem_cons.2 ⟨hplace, hts.position⟩
    | char c =>
      obtain ⟨kind, cs, rest, hl, rfl, hm⟩ := munches items (hs (.char c) rfl)
      have hplace : p.after (.char c) =
          Position.start.afterAll (before ++ gap.map .char ++ [.char c]) := by
        rw [Position.afterAll_append, ← hp]
        rfl
      have hnext : (p.after (.char c)).afterAll (cs.map .char) =
          Position.start.afterAll (before ++ gap.map .char ++ (c :: cs).map .char) := by
        rw [Position.afterAll_append, ← hp]
        rfl
      have htoken : tokenAt p b (.char c :: (cs.map .char ++ rest)) =
          (⟨p.after (.char c), kind, String.ofList (c :: cs)⟩,
            ⟨rest, (p.after (.char c)).afterAll (cs.map .char), b⟩) := by
        simp only [tokenAt, hl, filterMap_char, List.drop_left]
      rw [htoken] at ht h
      obtain ⟨ts, hts⟩ := h _ hnext
      refine ⟨(⟨p.after (.char c), kind, String.ofList (c :: cs)⟩,
        before ++ gap.map .char ++ [.char c]) :: ts, ?_, ?_, ?_⟩
      · rw [hr]
        exact .munch hg hm rfl hts.located
      · rw [ht, List.map_cons, hts.tokens]
      · exact List.forall_mem_cons.2 ⟨hplace, hts.position⟩

/-- **Each token has the position of its place.** -/
theorem exists_stands (lx : Lexer) (before : List Item)
    (hp : lx.position = Position.start.afterAll before) : ∃ ts, lx.Stands before ts := by
  fun_induction Lexer.tokens lx generalizing before with
  | case1 lx next hend =>
    obtain ⟨gap, items, hr, hg, -, hn⟩ := exists_nextToken_eq lx
    rw [show next = _ from hn] at hend
    cases items_of_end hend
    have hplace : lx.nextToken.1.position =
        Position.start.afterAll (before ++ gap.map .char) := by
      rw [hn, Position.afterAll_append, ← hp]
      rfl
    refine ⟨[(lx.nextToken.1, before ++ gap.map .char)], ?_, ?_, ?_⟩
    · rw [hr, List.append_nil]
      exact .endOfInput hg (by rw [hn]; rfl) (by rw [hn]; rfl)
    · rw [tokens_of_end (by rwa [hn]), List.map_singleton]
    · exact List.forall_mem_singleton.2 hplace
  | case2 lx next hend ih =>
    obtain ⟨gap, items, hr, hg, hs, hn⟩ := exists_nextToken_eq lx
    have ht := tokens_of_not_end hend
    rw [show next = _ from hn] at hend ih
    rw [hn] at ht
    exact stands_tokenAt hr hg hs (by rw [Position.afterAll_append, hp]) ht hend ih

end Lexer

/-- **Positions count lines and columns.** Whatever the bytes are, there is one way to cut their
characters and malformed bytes into tokens. These are the tokens that the lexer gives, and the
position of each counts the lines and columns of what is read once its first item is. So positions
go forward, and the end of the input does not stand before the last token. -/
theorem positions_count (bytes : List UInt8) :
    ∃ pieces ts, (∀ ps, Text.Utf8.Reads bytes ps ↔ ps = pieces) ∧
      Located [] (pieces.flatMap Piece.items) ts ∧
      (∀ ts', Located [] (pieces.flatMap Piece.items) ts' → ts'.map lexemeOf = ts.map lexemeOf) ∧
      (Lexer.ofSource (.ofBytes bytes)).Yields (ts.map Prod.fst) ∧
      (∀ n, ((Lexer.ofSource (.ofBytes bytes)).take n).1 ⊆ ts.map Prod.fst) ∧
      (∀ t ∈ ts, t.1.position = Position.atEnd t.2) ∧
      ts.Pairwise fun t u => (u.1.kind ≠ .endOfInput → t.1.position.Before u.1.position) ∧
        ¬ u.1.position.Before t.1.position := by
  obtain ⟨ts, hts⟩ := (Lexer.ofSource (.ofBytes bytes)).exists_stands [] rfl
  have hl : Located [] ((Text.Utf8.decode bytes).flatMap Piece.items) ts := hts.located
  have hp := hts.position_atEnd
  refine ⟨_, ts, fun _ => Text.Utf8.reads_iff, hl, fun ts' h => h.unique hl, ?_, fun n => ?_, hp, ?_⟩
  · rw [hts.tokens]
    exact Lexer.yields_tokens rfl
  · rw [hts.tokens]
    exact Lexer.take_subset n _
  · exact hl.pairwise.imp_of_mem fun ht hu h => h.before (hp _ ht) (hp _ hu)

end DiceNotation
