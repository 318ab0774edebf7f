/-
The number of a token. It is read from the bytes of the text, and kept in range
twice for each digit, before the digit is added and after. The bytes that are
digits are those of the ASCII digits of the text (`filter_toUTF8`), since a byte
within ASCII is always a whole character. What is read from them so far is the
exact number as far as it is in range (`foldl_push`), and one digit more keeps it
so (`push_clamp`): a number that has left the range stays out of it as it grows,
and one that is in range was never cut off. So the number of a token is that of
its digits or the largest integer (`Token.int_saturates`).
-/
import DiceNotation.Proofs.Lexemes
import DiceNotation.Proofs.Pieces

namespace DiceNotation

namespace Text

/-- The ASCII digits of a text, in order. -/
def asciiDigits (text : String) : List Char := text.toList.filter Char.isDigit

/-- The number that the ASCII digits of a text spell, which is 0 if there are none. -/
def Decimal.value (text : String) : Nat := Nat.ofDigitChars 10 (asciiDigits text) 0

/-! ## Bytes -/

theorem Decimal.isDigit_iff {b : UInt8} :
    Decimal.isDigit b = true ↔ 48 ≤ b.toNat ∧ b.toNat ≤ 57 := by
  rw [Decimal.isDigit, Bool.and_eq_true, decide_eq_true_iff, decide_eq_true_iff,
    UInt8.le_iff_toNat_le, UInt8.le_iff_toNat_le]
  rfl

theorem Decimal.lt_of_isDigit {b : UInt8} (h : Decimal.isDigit b = true) : b < 0x80 := by
  have hn := Decimal.isDigit_iff.1 h
  exact UInt8.lt_iff_toNat_lt.2 (Nat.lt_of_le_of_lt hn.2 (by decide))

theorem isDigit_iff_toNat {c : Char} : c.isDigit = true ↔ 48 ≤ c.toNat ∧ c.toNat ≤ 57 := by
  refine ⟨toNat_of_isDigit, fun h => ?_⟩
  rw [Char.isDigit, Bool.and_eq_true, decide_eq_true_iff, decide_eq_true_iff]
  exact h

theorem toNat_toUInt8 {c : Char} (h : c.isDigit = true) : c.toUInt8.toNat = c.toNat := by
  rw [Char.toUInt8, UInt32.toNat_toUInt8]
  exact Nat.mod_eq_of_lt (Nat.lt_of_le_of_lt (toNat_of_isDigit h).2 (by decide))

/-- No byte of a character is a digit, unless the character is one and has no other byte. -/
theorem filter_utf8EncodeChar (c : Char) :
    (String.utf8EncodeChar c).filter Decimal.isDigit = if c.isDigit then [c.toUInt8] else [] := by
  split
  next hc =>
    have hb := toNat_toUInt8 hc
    have hd : Decimal.isDigit c.toUInt8 = true := by
      rw [Decimal.isDigit_iff, hb]
      exact toNat_of_isDigit hc
    have henc := Utf8.utf8EncodeChar_ofNat (Decimal.lt_of_isDigit hd)
    rw [hb, Char.ofNat_toNat] at henc
    rw [henc, List.filter_cons_of_pos hd, List.filter_nil]
  next hc =>
    rw [List.filter_eq_nil_iff]
    intro b hb hd
    have hlt := Decimal.lt_of_isDigit hd
    obtain rfl := Utf8.eq_of_mem_encoded hb hlt
    refine hc (isDigit_iff_toNat.2 ?_)
    rw [Utf8.toNat_ofNat hlt]
    exact Decimal.isDigit_iff.1 hd

theorem filter_toUTF8 (text : String) :
    text.toUTF8.data.toList.filter Decimal.isDigit = (asciiDigits text).map Char.toUInt8 := by
  rw [Utf8.toList_toUTF8, List.filter_flatMap, asciiDigits]
  induction text.toList with
  | nil => rfl
  | cons c cs ih =>
    rw [List.flatMap_cons, ih, filter_utf8EncodeChar]
    by_cases hc : c.isDigit = true
    · rw [if_pos hc, List.filter_cons_of_pos hc]
      rfl
    · rw [if_neg hc, List.filter_cons_of_neg hc]
      rfl

/-! ## Digits -/

namespace Decimal

theorem digit_toUInt8 {c : Char} (h : c.isDigit = true) :
    digit c.toUInt8 = c.toNat - '0'.toNat := by
  have hb := toNat_toUInt8 h
  have hle : (0x30 : UInt8) ≤ c.toUInt8 := by
    rw [UInt8.le_iff_toNat_le, hb]
    exact (toNat_of_isDigit h).1
  rw [digit, UInt8.toNat_sub_of_le _ _ hle, hb]
  rfl

/-- One digit more behind a number that is exact as far as it is in range: both times that it is kept
in range make no difference to that. -/
theorem push_clamp {c : Char} (h : c.isDigit = true) (n : Nat) :
    push (clamp n) c.toUInt8 = clamp (10 * n + (c.toNat - '0'.toNat) : Nat) := by
  rw [← Int64.toInt_inj, push, digit_toUInt8 h]
  simp only [toInt_clamp]
  omega

/-- **What is read from digits** is the exact number as far as it is in range. -/
theorem foldl_push {ds : List Char} (hd : ∀ c ∈ ds, c.isDigit = true) (n : Nat) :
    (ds.map Char.toUInt8).foldl push (clamp n) = clamp (Nat.ofDigitChars 10 ds n) := by
  induction ds generalizing n with
  | nil => rfl
  | cons c ds ih =>
    rw [List.map_cons, List.foldl_cons, push_clamp (hd c List.mem_cons_self),
      ih fun d hd' => hd d (List.mem_cons_of_mem c hd'), Nat.ofDigitChars_cons]

theorem saturating_toUTF8 (text : String) :
    saturating text.toUTF8.data.toList = clamp (value text) := by
  rw [saturating, filter_toUTF8]
  exact foldl_push (fun _ hc => (List.mem_filter.1 hc).2) 0

theorem value_of_asciiDigits {text text' : String} (h : asciiDigits text = asciiDigits text') :
    value text = value text' := by
  rw [value, value, h]

theorem ofDigitChars_zeros {zeros ds : List Char} (h : ∀ c ∈ zeros, c = '0') :
    Nat.ofDigitChars 10 (zeros ++ ds) 0 = Nat.ofDigitChars 10 ds 0 := by
  induction zeros with
  | nil => rfl
  | cons c zeros ih =>
    obtain rfl := h c List.mem_cons_self
    rw [List.cons_append, Nat.ofDigitChars_cons]
    exact ih fun d hd => h d (List.mem_cons_of_mem _ hd)

end Decimal

theorem asciiDigits_append (text text' : String) :
    asciiDigits (text ++ text') = asciiDigits text ++ asciiDigits text' := by
  rw [asciiDigits, String.toList_append, List.filter_append]
  rfl

theorem asciiDigits_singleton {c : Char} (h : c.isDigit = false) :
    asciiDigits (String.singleton c) = [] := by
  rw [asciiDigits, String.toList_singleton, List.filter_cons_of_neg (by rw [h]; nofun),
    List.filter_nil]

end Text

/-! ## Tokens -/

namespace Token

open Text

/-- **The number of a token** is that of its digits, as far as it is in range. -/
theorem int_eq_clamp (t : Token) : t.int = Decimal.clamp (Decimal.value t.text) :=
  Decimal.saturating_toUTF8 t.text

theorem toInt_int (t : Token) :
    t.int.toInt = min Int64.maxValue.toInt (Decimal.value t.text : Int) := by
  have hmax : Int64.maxValue.toInt = 0x7FFFFFFFFFFFFFFF := rfl
  rw [int_eq_clamp, Decimal.toInt_clamp, hmax]
  omega

theorem int_nonneg (t : Token) : 0 ≤ t.int := by
  have hmax : 0 ≤ Int64.maxValue.toInt := by decide
  rw [Int64.le_iff_toInt_le, toInt_int, Int64.toInt_zero]
  omega

/-- **The number of a token is the decimal number of its ASCII digits, or the largest integer if that
is smaller.** So it is never negative. Zeros in front of the first other digit count for nothing, and
neither does any character that is no ASCII digit, numerals of other scripts among them, wherever
it stands. A token whose digits spell a larger number has no smaller number, also where one of the
two is cut off before its last digit. -/
theorem int_saturates (t : Token) :
    t.int.toInt = min Int64.maxValue.toInt (Decimal.value t.text : Int) ∧
      0 ≤ t.int ∧
      (∀ (u : Token) (before : String), (∀ c ∈ before.toList, c.isDigit = true → c = '0') →
        t.text = before ++ u.text → t.int = u.int) ∧
      (∀ (u : Token) (before after : String) (c : Char), c.isDigit = false →
        t.text = before ++ String.singleton c ++ after → u.text = before ++ after →
          t.int = u.int) ∧
      (∀ u : Token, Decimal.value t.text ≤ Decimal.value u.text → t.int ≤ u.int) := by
  refine ⟨t.toInt_int, t.int_nonneg, ?_, ?_, ?_⟩
  · intro u before hzeros htext
    have hzero : ∀ c ∈ asciiDigits before, c = '0' := by
      intro c hc
      obtain ⟨hmem, hdigit⟩ := List.mem_filter.1 hc
      exact hzeros c hmem hdigit
    rw [int_eq_clamp, int_eq_clamp, Decimal.value, htext, asciiDigits_append,
      Decimal.ofDigitChars_zeros hzero, Decimal.value]
  · intro u before after c hc htext hrest
    have hdigits : asciiDigits t.text = asciiDigits u.text := by
      rw [htext, hrest, asciiDigits_append, asciiDigits_append, asciiDigits_append,
        asciiDigits_singleton hc, List.append_nil]
    rw [int_eq_clamp, int_eq_clamp, Decimal.value_of_asciiDigits hdigits]
  · intro u hle
    rw [Int64.le_iff_toInt_le, toInt_int, toInt_int]
    omega

example : Token.int ⟨.start, .word, "x00٣9223372036854775808"⟩ = Int64.maxValue := by
  decide +kernel

example : Token.int ⟨.start, .word, "0a0_9²223372036854775806"⟩ = 9223372036854775806 := by
  decide +kernel

end Token

end DiceNotation
