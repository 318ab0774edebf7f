/-
A source given as text and a source given as the bytes of that text are the
same: the bytes of an encoded character are read back as that character,
whatever bytes follow them.
-/
import DiceNotation.Source

namespace DiceNotation

namespace Text.Utf8

theorem continued_cons {code n : Nat} {taken : List UInt8} {low high : UInt8} {more : Nat}
    {bs : List UInt8} (hn : n < 256) (hl : low.toNat ≤ n) (hh : n ≤ high.toNat) :
    continued code taken low high (more + 1) (UInt8.ofNat n :: bs) =
      continued (code * 64 + (n - 0x80)) (UInt8.ofNat n :: taken) 0x80 0xBF more bs := by
  rw [continued, if_pos, UInt8.toNat_ofNat_of_lt' hn]
  rw [UInt8.le_iff_toNat_le, UInt8.le_iff_toNat_le, UInt8.toNat_ofNat_of_lt' hn]
  exact ⟨hl, hh⟩

theorem lead?_ofNat {n : Nat} (hn : n < 256) : lead? (UInt8.ofNat n) =
    if n < 0xC2 then none
    else if n < 0xE0 then some ⟨n - 0xC0, 0x80, 0xBF, 1⟩
    else if n = 0xE0 then some ⟨0, 0xA0, 0xBF, 2⟩
    else if n = 0xED then some ⟨0xD, 0x80, 0x9F, 2⟩
    else if n < 0xF0 then some ⟨n - 0xE0, 0x80, 0xBF, 2⟩
    else if n = 0xF0 then some ⟨0, 0x90, 0xBF, 3⟩
    else if n < 0xF4 then some ⟨n - 0xF0, 0x80, 0xBF, 3⟩
    else if n = 0xF4 then some ⟨4, 0x80, 0x8F, 3⟩
    else none := by
  simp only [lead?, UInt8.lt_iff_toNat_lt, ← UInt8.toNat_inj, UInt8.toNat_ofNat_of_lt' hn]
  rfl

theorem piece_ofNat {n : Nat} (hn : n < 256) (bs : List UInt8) : piece (UInt8.ofNat n) bs =
    if n < 0x80 then (.char (Char.ofNat n), bs)
    else match lead? (UInt8.ofNat n) with
      | none => (.malformed [UInt8.ofNat n], bs)
      | some l => continued l.bits [UInt8.ofNat n] l.low l.high l.more bs := by
  simp only [piece, UInt8.lt_iff_toNat_lt, UInt8.toNat_ofNat_of_lt' hn]
  rfl

/-- A lead byte of three admits as its second the one that goes with it in a valid code point. -/
theorem exists_lead?_of_three {n : Nat} (h : 0x7FF < n) (h' : n ≤ 0xFFFF) (hv : n.isValidChar) :
    ∃ low high : UInt8,
      lead? (UInt8.ofNat (n / 4096 % 16 + 224)) = some ⟨n / 4096, low, high, 2⟩ ∧
      low.toNat ≤ n / 64 % 64 + 128 ∧ n / 64 % 64 + 128 ≤ high.toNat := by
  simp only [Nat.isValidChar] at hv
  rw [lead?_ofNat (by omega), if_neg (by omega), if_neg (by omega)]
  by_cases h0 : n / 4096 = 0
  · refine ⟨0xA0, 0xBF, ?_, ?_, ?_⟩
    · rw [if_pos (by omega), h0]
    · simp only [UInt8.reduceToNat]; omega
    · simp only [UInt8.reduceToNat]; omega
  · rw [if_neg (by omega)]
    by_cases hd : n / 4096 = 13
    · refine ⟨0x80, 0x9F, ?_, ?_, ?_⟩
      · rw [if_pos (by omega), hd]
      · simp only [UInt8.reduceToNat]; omega
      · simp only [UInt8.reduceToNat]; omega
    · refine ⟨0x80, 0xBF, ?_, ?_, ?_⟩
      · rw [if_neg (by omega), if_pos (by omega),
          show n / 4096 % 16 + 224 - 0xE0 = n / 4096 by omega]
      · simp only [UInt8.reduceToNat]; omega
      · simp only [UInt8.reduceToNat]; omega

theorem exists_lead?_of_four {n : Nat} (h : 0xFFFF < n) (hv : n.isValidChar) :
    ∃ low high : UInt8,
      lead? (UInt8.ofNat (n / 262144 % 8 + 240)) = some ⟨n / 262144, low, high, 3⟩ ∧
      low.toNat ≤ n / 4096 % 64 + 128 ∧ n / 4096 % 64 + 128 ≤ high.toNat := by
  simp only [Nat.isValidChar] at hv
  rw [lead?_ofNat (by omega), if_neg (by omega), if_neg (by omega), if_neg (by omega),
    if_neg (by omega), if_neg (by omega)]
  by_cases h0 : n / 262144 = 0
  · refine ⟨0x90, 0xBF, ?_, ?_, ?_⟩
    · rw [if_pos (by omega), h0]
    · simp only [UInt8.reduceToNat]; omega
    · simp only [UInt8.reduceToNat]; omega
  · rw [if_neg (by omega)]
    by_cases h4 : n / 262144 = 4
    · refine ⟨0x80, 0x8F, ?_, ?_, ?_⟩
      · rw [if_neg (by omega), if_pos (by omega), h4]
      · simp only [UInt8.reduceToNat]; omega
      · simp only [UInt8.reduceToNat]; omega
    · refine ⟨0x80, 0xBF, ?_, ?_, ?_⟩
      · rw [if_pos (by omega), show n / 262144 % 8 + 240 - 0xF0 = n / 262144 by omega]
      · simp only [UInt8.reduceToNat]; omega
      · simp only [UInt8.reduceToNat]; omega

/-- An encoded character is read back, whatever follows. -/
theorem decode_utf8EncodeChar (c : Char) (bs : List UInt8) :
    decode (String.utf8EncodeChar c ++ bs) = .char c :: decode bs := by
  have hc : Char.ofNat c.val.toNat = c := Char.ofNat_toNat c
  have hv : c.val.toNat.isValidChar := c.valid
  generalize hn : c.val.toNat = n at hc hv
  have hmax : n < 0x110000 := by simp only [Nat.isValidChar] at hv; omega
  simp only [String.utf8EncodeChar, hn]
  subst hc
  split
  · rw [List.singleton_append, decode, piece_ofNat (by omega), if_pos (by omega)]
  · split
    · simp only [List.cons_append, List.nil_append]
      rw [decode, piece_ofNat (by omega), if_neg (by omega), lead?_ofNat (by omega),
        if_neg (by omega), if_pos (by omega)]
      simp only
      rw [continued_cons (by omega) (by simp) (by simp; omega), continued,
        show (n / 64 % 32 + 192 - 0xC0) * 64 + (n % 64 + 128 - 0x80) = n by omega]
    · split
      · obtain ⟨low, high, hl, hlow, hhigh⟩ := exists_lead?_of_three (by omega) (by omega) hv
        simp only [List.cons_append, List.nil_append]
        rw [decode, piece_ofNat (by omega), if_neg (by omega), hl]
        simp only
        rw [continued_cons (by omega) hlow hhigh,
          continued_cons (by omega) (by simp) (by simp; omega),
          continued, show (n / 4096 * 64 + (n / 64 % 64 + 128 - 0x80)) * 64 +
            (n % 64 + 128 - 0x80) = n by omega]
      · obtain ⟨low, high, hl, hlow, hhigh⟩ := exists_lead?_of_four (by omega) hv
        simp only [List.cons_append, List.nil_append]
        rw [decode, piece_ofNat (by omega), if_neg (by omega), hl]
        simp only
        rw [continued_cons (by omega) hlow hhigh,
          continued_cons (by omega) (by simp) (by simp; omega),
          continued_cons (by omega) (by simp) (by simp; omega), continued,
          show ((n / 262144 * 64 + (n / 4096 % 64 + 128 - 0x80)) * 64 +
            (n / 64 % 64 + 128 - 0x80)) * 64 + (n % 64 + 128 - 0x80) = n by omega]

theorem decode_encoded (cs : List Char) :
    decode (cs.flatMap String.utf8EncodeChar) = cs.map .char := by
  induction cs with
  | nil => simp [decode]
  | cons c cs ih => rw [List.flatMap_cons, decode_utf8EncodeChar, ih, List.map_cons]

theorem toList_toUTF8 (text : String) :
    text.toUTF8.data.toList = text.toList.flatMap String.utf8EncodeChar := by
  rw [String.toUTF8, ← String.utf8Encode_toList, List.utf8Encode, List.data_toByteArray]

end Text.Utf8

theorem Source.ofBytes_toUTF8 (text : String) :
    Source.ofBytes text.toUTF8.data.toList = Source.ofText text := by
  rw [Source.ofBytes, Text.Utf8.toList_toUTF8, Text.Utf8.decode_encoded, Source.ofText]

end DiceNotation
