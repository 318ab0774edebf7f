/-
Damaged text cut into pieces, said without the decoder: where an encoded
character stands the piece is that character, and where none does it is the
longest run of bytes that begins some encoded character, or one byte if the byte
there begins none (`Malformed`). There is one such cut of any bytes, and it is
the one that decoding makes (`reads_iff`).

A lead byte says how many bytes are to follow it and in which range the first
of them lies; a row of bytes that keeps to the ranges is a `Follow`. Such rows
are what stands behind the first byte of an encoded character
(`follow_of_encoded`, `exists_encoded_of_follow`), and one that is too short can
always be carried on (`Follow.extend`), so bytes begin a character exactly as
long as they are in range (`begins_cons_iff`).
-/
import Mathlib.Data.List.Basic
import DiceNotation.Source.Encoded

namespace DiceNotation

namespace Text.Utf8

/-- The bytes begin an encoded character, or are one. -/
def Begins (bs : List UInt8) : Prop := ∃ c, bs <+: String.utf8EncodeChar c

/-- At the front of `bad ++ rest` no character is encoded, and `bad` is as many bytes as begin
one, or a single byte where not even that begins one. -/
structure Malformed (bad rest : List UInt8) : Prop where
  ne_nil : bad ≠ []
  not_encoded : ∀ c, ¬ String.utf8EncodeChar c <+: bad ++ rest
  begins : Begins bad ∨ bad.length = 1
  longest : ∀ bs, bs <+: bad ++ rest → Begins bs → bs.length ≤ bad.length

/-- The pieces are those that the bytes spell, one after the other. -/
inductive Reads : List UInt8 → List Piece → Prop
  | nil : Reads [] []
  | char : Reads bs ps → Reads (String.utf8EncodeChar c ++ bs) (.char c :: ps)
  | malformed : Malformed bad bs → Reads bs ps → Reads (bad ++ bs) (.malformed bad :: ps)

/-- The bytes are in the ranges that are asked of bytes after a lead byte: the first between `low`
and `high`, the others in the general range. -/
def Follow (low high : UInt8) : List UInt8 → Prop
  | [] => True
  | b :: bs => low ≤ b ∧ b ≤ high ∧ Follow 0x80 0xBF bs

theorem Follow.nil {low high : UInt8} : Follow low high [] := trivial

theorem Follow.of_isPrefix {low high : UInt8} {bs bs' : List UInt8} (h : Follow low high bs')
    (hp : bs <+: bs') : Follow low high bs := by
  induction bs generalizing low high bs' with
  | nil => trivial
  | cons b bs ih =>
    obtain ⟨t, rfl⟩ := hp
    exact ⟨h.1, h.2.1, ih h.2.2 (List.prefix_append bs t)⟩

theorem Follow.exists_of_length {low high : UInt8} (hr : low ≤ high) :
    ∀ n : Nat, ∃ bs, Follow low high bs ∧ bs.length = n
  | 0 => ⟨[], .nil, rfl⟩
  | n + 1 => by
    have hg : (0x80 : UInt8) ≤ 0xBF := by decide
    obtain ⟨bs, hf, hn⟩ := exists_of_length hg n
    exact ⟨low :: bs, ⟨UInt8.le_refl low, hr, hf⟩, congrArg (· + 1) hn⟩

theorem Follow.extend {low high : UInt8} {bs : List UInt8} (hr : low ≤ high)
    (h : Follow low high bs) {n : Nat} (hn : bs.length ≤ n) :
    ∃ more, Follow low high (bs ++ more) ∧ (bs ++ more).length = n := by
  induction bs generalizing low high n with
  | nil => exact exists_of_length hr n
  | cons b bs ih =>
    obtain ⟨n, rfl⟩ : ∃ k, n = k + 1 := ⟨n - 1, by simp at hn; omega⟩
    obtain ⟨more, hm, hl⟩ := ih (by decide) h.2.2 (by simpa using hn)
    exact ⟨more, ⟨h.1, h.2.1, hm⟩, by simpa using hl⟩

/-! ## Encoded characters -/

theorem lead?_cases {b : UInt8} {l : Lead} (h : lead? b = some l) :
    0x80 ≤ l.low.toNat ∧ l.low.toNat ≤ l.high.toNat ∧ l.high.toNat ≤ 0xBF ∧
    ((l.more = 1 ∧ 0xC2 ≤ b.toNat ∧ b.toNat < 0xE0) ∨
      (l.more = 2 ∧ 0xE0 ≤ b.toNat ∧ b.toNat < 0xF0 ∧
        (b.toNat = 0xE0 → 0xA0 ≤ l.low.toNat) ∧ (b.toNat = 0xED → l.high.toNat ≤ 0x9F)) ∨
      (l.more = 3 ∧ 0xF0 ≤ b.toNat ∧ b.toNat < 0xF5 ∧
        (b.toNat = 0xF0 → 0x90 ≤ l.low.toNat) ∧ (b.toNat = 0xF4 → l.high.toNat ≤ 0x8F))) := by
  obtain ⟨n, hn, rfl⟩ : ∃ n, n < 256 ∧ b = UInt8.ofNat n := ⟨b.toNat, b.toNat_lt, by simp⟩
  rw [lead?_ofNat hn] at h
  rw [UInt8.toNat_ofNat_of_lt' hn]
  repeat' split at h
  all_goals simp only [Option.some.injEq, reduceCtorEq] at h
  all_goals
    subst h
    simp only [UInt8.reduceToNat, true_and]
    omega

theorem exists_char {n : Nat} (h : n.isValidChar) : ∃ c : Char, c.val.toNat = n :=
  ⟨.ofNatAux n h, rfl⟩

theorem ofNat_eq {b : UInt8} {n : Nat} (h : n = b.toNat) : UInt8.ofNat n = b := by
  rw [h, UInt8.ofNat_toNat]

theorem exists_encoded_of_follow {b : UInt8} {l : Lead} {tail : List UInt8}
    (hl : lead? b = some l) (hf : Follow l.low l.high tail) (hn : tail.length = l.more) :
    ∃ c, String.utf8EncodeChar c = b :: tail := by
  obtain ⟨hlow, -, hhigh, ⟨hm, hb⟩ | ⟨hm, hb⟩ | ⟨hm, hb⟩⟩ := lead?_cases hl
  -- the ranges put the code point among those that take this number of bytes
  · obtain ⟨x, rfl⟩ := List.length_eq_one_iff.1 (hn.trans hm)
    simp only [Follow, UInt8.le_iff_toNat_le, and_true] at hf
    obtain ⟨c, hc⟩ := exists_char (n := (b.toNat - 0xC0) * 64 + (x.toNat - 0x80))
      (by simp only [Nat.isValidChar]; omega)
    refine ⟨c, ?_⟩
    simp only [String.utf8EncodeChar, hc]
    rw [if_neg (by omega), if_pos (by omega), ofNat_eq (b := b) (by omega),
      ofNat_eq (b := x) (by omega)]
  · obtain ⟨x, y, rfl⟩ := List.length_eq_two.1 (hn.trans hm)
    simp only [Follow, UInt8.le_iff_toNat_le, UInt8.reduceToNat, and_true] at hf
    obtain ⟨c, hc⟩ := exists_char
      (n := ((b.toNat - 0xE0) * 64 + (x.toNat - 0x80)) * 64 + (y.toNat - 0x80))
      (by simp only [Nat.isValidChar]; omega)
    refine ⟨c, ?_⟩
    simp only [String.utf8EncodeChar, hc]
    rw [if_neg (by omega), if_neg (by omega), if_pos (by omega), ofNat_eq (b := b) (by omega),
      ofNat_eq (b := x) (by omega), ofNat_eq (b := y) (by omega)]
  · obtain ⟨x, y, z, rfl⟩ := List.length_eq_three.1 (hn.trans hm)
    simp only [Follow, UInt8.le_iff_toNat_le, UInt8.reduceToNat, and_true] at hf
    obtain ⟨c, hc⟩ := exists_char
      (n := (((b.toNat - 0xF0) * 64 + (x.toNat - 0x80)) * 64 + (y.toNat - 0x80)) * 64 +
        (z.toNat - 0x80))
      (by simp only [Nat.isValidChar]; omega)
    refine ⟨c, ?_⟩
    simp only [String.utf8EncodeChar, hc]
    rw [if_neg (by omega), if_neg (by omega), if_neg (by omega), ofNat_eq (b := b) (by omega),
      ofNat_eq (b := x) (by omega), ofNat_eq (b := y) (by omega), ofNat_eq (b := z) (by omega)]

theorem ofNat_between {n : Nat} {low high : UInt8} (hl : low.toNat ≤ n) (hh : n ≤ high.toNat) :
    low ≤ .ofNat n ∧ .ofNat n ≤ high := by
  have hn : n < 256 := Nat.lt_of_le_of_lt hh high.toNat_lt
  rw [UInt8.le_iff_toNat_le, UInt8.le_iff_toNat_le, UInt8.toNat_ofNat_of_lt' hn]
  exact ⟨hl, hh⟩

/-- A byte that stands for six bits of a code point is in the general range. -/
theorem Follow.six_bits {bs : List UInt8} (h : Follow 0x80 0xBF bs) (n : Nat) :
    Follow 0x80 0xBF (.ofNat (n % 64 + 128) :: bs) := by
  have hb : (0x80 : UInt8) ≤ .ofNat (n % 64 + 128) ∧ .ofNat (n % 64 + 128) ≤ (0xBF : UInt8) :=
    ofNat_between (by simp) (by simp only [UInt8.reduceToNat]; omega)
  exact ⟨hb.1, hb.2, h⟩

/-- The first byte of a longer encoded character is a lead byte, and behind it stands what is to
follow. -/
theorem follow_of_encoded {c : Char} {b : UInt8} {tail : List UInt8}
    (h : String.utf8EncodeChar c = b :: tail) (hb : ¬ b < 0x80) :
    ∃ l, lead? b = some l ∧ Follow l.low l.high tail ∧ tail.length = l.more := by
  have hv : c.val.toNat.isValidChar := c.valid
  generalize hn : c.val.toNat = n at hv
  have hmax : n < 0x110000 := by simp only [Nat.isValidChar] at hv; omega
  simp only [String.utf8EncodeChar, hn] at h
  split at h
  · cases h
    have hlt : n < 256 := by omega
    rw [UInt8.lt_iff_toNat_lt, UInt8.toNat_ofNat_of_lt' hlt] at hb
    simp only [UInt8.reduceToNat] at hb
    omega
  split at h
  · cases h
    exact ⟨_, by rw [lead?_ofNat (by omega), if_neg (by omega), if_pos (by omega)],
      .six_bits .nil n, rfl⟩
  split at h
  · obtain ⟨low, high, hl, hlow, hhigh⟩ := exists_lead?_of_three (by omega) (by omega) hv
    obtain ⟨hx, hx'⟩ := ofNat_between hlow hhigh
    cases h
    exact ⟨_, hl, ⟨hx, hx', .six_bits .nil n⟩, rfl⟩
  · obtain ⟨low, high, hl, hlow, hhigh⟩ := exists_lead?_of_four (by omega) hv
    obtain ⟨hx, hx'⟩ := ofNat_between hlow hhigh
    cases h
    exact ⟨_, hl, ⟨hx, hx', .six_bits (.six_bits .nil n) (n / 64)⟩, rfl⟩

/-- Bytes begin an encoded character of more than one byte when the first is a lead byte and the
others are some of those that are to follow it. -/
theorem begins_cons_iff {b : UInt8} {bs : List UInt8} (hb : ¬ b < 0x80) :
    Begins (b :: bs) ↔ ∃ l, lead? b = some l ∧ Follow l.low l.high bs ∧ bs.length ≤ l.more := by
  constructor
  · rintro ⟨c, t, ht⟩
    obtain ⟨l, hl, hf, hn⟩ := follow_of_encoded ht.symm hb
    refine ⟨l, hl, hf.of_isPrefix (List.prefix_append bs t), ?_⟩
    exact hn ▸ (List.prefix_append bs t).length_le
  · rintro ⟨l, hl, hf, hn⟩
    have hr : l.low ≤ l.high := UInt8.le_iff_toNat_le.2 (lead?_cases hl).2.1
    obtain ⟨more, hf, hn⟩ := hf.extend hr hn
    obtain ⟨c, hc⟩ := exists_encoded_of_follow hl hf hn
    exact ⟨c, more, hc.symm⟩

/-! ## Malformed sequences -/

theorem length_le_of_prefix_cons {α : Type} {p : List α → Prop} {b : α} {bs : List α} {n : Nat}
    (h : ∀ as, as <+: bs → p (b :: as) → as.length ≤ n) :
    ∀ as, as <+: b :: bs → p as → as.length ≤ n + 1
  | [], _, _ => Nat.zero_le _
  | a :: as, ha, hp => by
    obtain ⟨rfl, ht⟩ := List.cons_prefix_cons.1 ha
    exact Nat.succ_le_succ (h as ht hp)

/-- Where the bytes that are to follow do not all come, those that do are taken, and no more. -/
theorem continued_malformed (code : Nat) (taken : List UInt8) {low high : UInt8} {more : Nat}
    {bs : List UInt8} (h : ∀ tail, tail <+: bs → Follow low high tail → tail.length ≠ more) :
    ∃ tail rest, bs = tail ++ rest ∧ Follow low high tail ∧ tail.length < more ∧
      (∀ p, p <+: bs → Follow low high p → p.length ≤ tail.length) ∧
      continued code taken low high more bs = (.malformed (taken.reverse ++ tail), rest) := by
  fun_induction continued code taken low high more bs with
  | case1 code taken low high bs => exact absurd rfl (h [] (List.nil_prefix) trivial)
  | case2 code taken low high more =>
    refine ⟨[], [], rfl, trivial, by simp, fun p hp _ => ?_, by simp⟩
    simp [List.prefix_nil.1 hp]
  | case3 code taken low high more b bs hb ih =>
    obtain ⟨tail, rest, rfl, hf, hn, hmax, he⟩ := ih fun tail ht hf hn =>
      h (b :: tail) (List.cons_prefix_cons.2 ⟨rfl, ht⟩) ⟨hb.1, hb.2, hf⟩ (by simpa using hn)
    refine ⟨b :: tail, rest, rfl, ⟨hb.1, hb.2, hf⟩, by simpa using hn, ?_, ?_⟩
    · exact length_le_of_prefix_cons fun p hp hpf => hmax p hp hpf.2.2
    · rw [he, List.reverse_cons, List.append_assoc, List.singleton_append]
  | case4 code taken low high more b bs hb =>
    refine ⟨[], b :: bs, rfl, trivial, by simp, fun p hp hpf => ?_, by simp⟩
    cases p with
    | nil => simp
    | cons x p =>
      obtain ⟨rfl, -⟩ := List.cons_prefix_cons.1 hp
      exact absurd ⟨hpf.1, hpf.2.1⟩ hb

theorem Follow.le_of_mem {low high : UInt8} {bs : List UInt8} (h : Follow low high bs)
    (hl : 0x80 ≤ low) : ∀ b ∈ bs, 0x80 ≤ b := by
  induction bs generalizing low high with
  | nil => exact List.forall_mem_nil _
  | cons b bs ih => exact List.forall_mem_cons.2 ⟨UInt8.le_trans hl h.1, ih h.2.2 (by decide)⟩

theorem toNat_ofNat {b : UInt8} (h : b < 0x80) : (Char.ofNat b.toNat).toNat = b.toNat := by
  simp only [UInt8.lt_iff_toNat_lt, UInt8.reduceToNat] at h
  have hv : b.toNat.isValidChar := by simp only [Nat.isValidChar]; omega
  rw [Char.ofNat, dif_pos hv]
  rfl

theorem utf8EncodeChar_ofNat {b : UInt8} (h : b < 0x80) :
    String.utf8EncodeChar (Char.ofNat b.toNat) = [b] := by
  have hc : (Char.ofNat b.toNat).val.toNat = b.toNat := toNat_ofNat h
  simp only [UInt8.lt_iff_toNat_lt, UInt8.reduceToNat] at h
  simp only [String.utf8EncodeChar, hc]
  rw [if_pos (by omega), UInt8.ofNat_toNat]

theorem encoded_of_lt {b : UInt8} (h : b < 0x80) : ∃ c, String.utf8EncodeChar c = [b] :=
  ⟨_, utf8EncodeChar_ofNat h⟩

theorem eq_of_mem_encoded {c : Char} {b : UInt8} (hb : b ∈ String.utf8EncodeChar c)
    (hlt : b < 0x80) : c = Char.ofNat b.toNat := by
  obtain ⟨x, tail, he⟩ := List.exists_cons_of_ne_nil (String.utf8EncodeChar_ne_nil (c := c))
  have hdecode := decode_utf8EncodeChar c []
  rw [he] at hb hdecode
  by_cases hx : x < 0x80
  · have hd := decode_utf8EncodeChar (Char.ofNat x.toNat) (tail ++ [])
    rw [utf8EncodeChar_ofNat hx] at hd
    obtain ⟨hc, -⟩ := List.cons.inj (hdecode.symm.trans hd)
    obtain rfl := Piece.char.inj hc
    rw [utf8EncodeChar_ofNat hx] at he
    obtain ⟨-, rfl⟩ := List.cons.inj he
    rw [List.mem_singleton.1 hb]
  · obtain ⟨l, hl, hf, -⟩ := follow_of_encoded he hx
    obtain ⟨hlow, -⟩ := lead?_cases hl
    rcases List.mem_cons.1 hb with rfl | hb
    · exact absurd hlt hx
    · exact absurd hlt (UInt8.not_lt.2 (hf.le_of_mem (UInt8.le_iff_toNat_le.2 hlow) b hb))

theorem piece_malformed {b : UInt8} {bs : List UInt8}
    (h : ∀ c, ¬ String.utf8EncodeChar c <+: b :: bs) :
    ∃ bad rest, b :: bs = bad ++ rest ∧ Malformed bad rest ∧
      piece b bs = (.malformed bad, rest) := by
  have hb : ¬ b < 0x80 := fun hb => by
    obtain ⟨c, hc⟩ := encoded_of_lt hb
    exact h c (hc ▸ List.prefix_append [b] bs)
  rw [piece, if_neg hb]
  cases hl : lead? b with
  | none =>
    refine ⟨[b], bs, rfl, ⟨by simp, h, .inr rfl, ?_⟩, rfl⟩
    refine length_le_of_prefix_cons (n := 0) fun p _ hpb => ?_
    obtain ⟨l, hl', -⟩ := (begins_cons_iff hb).1 hpb
    cases hl.symm.trans hl'
  | some l =>
    have hshort : ∀ tail, tail <+: bs → Follow l.low l.high tail → tail.length ≠ l.more := by
      intro tail ht hf hn
      obtain ⟨c, hc⟩ := exists_encoded_of_follow hl hf hn
      exact h c (hc ▸ List.cons_prefix_cons.2 ⟨rfl, ht⟩)
    obtain ⟨tail, rest, rfl, hf, hn, hmax, he⟩ := continued_malformed l.bits [b] hshort
    refine ⟨b :: tail, rest, rfl, ⟨by simp, h, .inl ?_, ?_⟩, he⟩
    · exact (begins_cons_iff hb).2 ⟨l, hl, hf, Nat.le_of_lt hn⟩
    · refine length_le_of_prefix_cons fun p hp hpb => ?_
      obtain ⟨l', hl', hpf, -⟩ := (begins_cons_iff hb).1 hpb
      cases hl.symm.trans hl'
      exact hmax p hp hpf

theorem Malformed.unique {bad bad' rest rest' : List UInt8} (h : Malformed bad rest)
    (h' : Malformed bad' rest') (he : bad ++ rest = bad' ++ rest') : bad = bad' ∧ rest = rest' := by
  have hle {x y r r' : List UInt8} (hx : Malformed x r) (hy : Malformed y r')
      (he : x ++ r = y ++ r') : x.length ≤ y.length := by
    rcases hx.begins with hb | h1
    · exact hy.longest x (he ▸ List.prefix_append x r) hb
    · rw [h1]
      exact List.length_pos_iff.2 hy.ne_nil
  exact List.append_inj he (Nat.le_antisymm (hle h h' he) (hle h' h he.symm))

theorem decode_malformed {bad rest : List UInt8} (h : Malformed bad rest) :
    decode (bad ++ rest) = .malformed bad :: decode rest := by
  obtain ⟨b, bs, rfl⟩ := List.exists_cons_of_ne_nil h.ne_nil
  obtain ⟨bad', rest', he, hm, hp⟩ := piece_malformed h.not_encoded
  obtain ⟨rfl, rfl⟩ := h.unique hm he
  rw [List.cons_append, decode]
  exact congrArg (fun next => next.1 :: decode next.2) hp

/-! ## The cut -/

theorem reads_decode (bs : List UInt8) : Reads bs (decode bs) := by
  -- by the length, since a piece takes as many bytes as it has
  induction hn : bs.length using Nat.strongRecOn generalizing bs with
  | ind n ih =>
    by_cases h : ∃ c, String.utf8EncodeChar c <+: bs
    · obtain ⟨c, rest, rfl⟩ := h
      have hc := List.length_pos_iff.2 (String.utf8EncodeChar_ne_nil (c := c))
      rw [decode_utf8EncodeChar]
      exact .char (ih _ (by rw [← hn, List.length_append]; omega) rest rfl)
    · cases bs with
      | nil => rw [decode]; exact .nil
      | cons b bs =>
        obtain ⟨bad, rest, he, hm, -⟩ := piece_malformed fun c hc => h ⟨c, hc⟩
        have hb := List.length_pos_iff.2 hm.ne_nil
        rw [he, decode_malformed hm]
        exact .malformed hm (ih _ (by rw [← hn, he, List.length_append]; omega) rest rfl)

/-- **Decoding reads the bytes as what they spell**, and there is one way to read them. -/
theorem reads_iff {bs : List UInt8} {ps : List Piece} : Reads bs ps ↔ ps = decode bs := by
  refine ⟨fun h => ?_, fun h => h ▸ reads_decode bs⟩
  induction h with
  | nil => rw [decode]
  | char _ ih => rw [decode_utf8EncodeChar, ← ih]
  | malformed hm _ ih => rw [decode_malformed hm, ← ih]

/-- Two bytes begin a character and the third does not go on with it; the last begins none. -/
example : decode [0xE2, 0x82, 0x28, 0xC0] =
    [.malformed [0xE2, 0x82], .char '(', .malformed [0xC0]] := by cbv

end Text.Utf8

end DiceNotation
