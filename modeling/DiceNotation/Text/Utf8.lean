/-
UTF-8 text that may be damaged. Bytes are read into pieces: a character, or a
malformed sequence, which is a longest run of bytes that begins some encoded
character but is not continued to one, or a single byte that begins none.
No byte is lost, and reading never stops before the end.
-/

namespace DiceNotation.Text

/-- What is read from the bytes of a text: a character, or bytes that spell none. -/
inductive Piece
  | char (c : Char)
  | malformed (bytes : List UInt8)
  deriving DecidableEq, Repr

namespace Utf8

/-- What the first byte of a longer sequence says: its bits of the code point, the range its second
byte must lie in, and how many bytes are to follow. -/
structure Lead where
  bits : Nat
  low : UInt8
  high : UInt8
  more : Nat

/-- The narrowed ranges of the second byte keep out overlong forms, surrogates and what lies beyond
the last code point. -/
def lead? (b : UInt8) : Option Lead :=
  if b < 0xC2 then none
  else if b < 0xE0 then some ⟨b.toNat - 0xC0, 0x80, 0xBF, 1⟩
  else if b = 0xE0 then some ⟨0, 0xA0, 0xBF, 2⟩
  else if b = 0xED then some ⟨0xD, 0x80, 0x9F, 2⟩
  else if b < 0xF0 then some ⟨b.toNat - 0xE0, 0x80, 0xBF, 2⟩
  else if b = 0xF0 then some ⟨0, 0x90, 0xBF, 3⟩
  else if b < 0xF4 then some ⟨b.toNat - 0xF0, 0x80, 0xBF, 3⟩
  else if b = 0xF4 then some ⟨4, 0x80, 0x8F, 3⟩
  else none

/-- Reads the `more` bytes that are to follow `taken` (last first), the next of them between `low`
and `high` and the others in the general range. -/
def continued (code : Nat) (taken : List UInt8) (low high : UInt8) :
    Nat → List UInt8 → Piece × List UInt8
  | 0, bs => (.char (Char.ofNat code), bs)
  | _ + 1, [] => (.malformed taken.reverse, [])
  | more + 1, b :: bs =>
    if low ≤ b ∧ b ≤ high then
      continued (code * 64 + (b.toNat - 0x80)) (b :: taken) 0x80 0xBF more bs
    else (.malformed taken.reverse, b :: bs)

/-- The piece that starts with `b`, and the bytes after it. -/
def piece (b : UInt8) (bs : List UInt8) : Piece × List UInt8 :=
  if b < 0x80 then (.char (Char.ofNat b.toNat), bs)
  else match lead? b with
    | none => (.malformed [b], bs)
    | some l => continued l.bits [b] l.low l.high l.more bs

theorem length_continued_le (code : Nat) (taken : List UInt8) (low high : UInt8) (more : Nat)
    (bs : List UInt8) : (continued code taken low high more bs).2.length ≤ bs.length := by
  fun_induction continued code taken low high more bs with
  | case1 => simp
  | case2 => simp
  | case3 _ _ _ _ _ _ _ _ ih => simp only [List.length_cons]; omega
  | case4 => simp

theorem length_piece_le (b : UInt8) (bs : List UInt8) : (piece b bs).2.length ≤ bs.length := by
  unfold piece
  split
  · simp
  · split
    · simp
    · exact length_continued_le ..

/-- The pieces of a text, in order. -/
def decode : List UInt8 → List Piece
  | [] => []
  | b :: bs => (piece b bs).1 :: decode (piece b bs).2
termination_by bs => bs.length
decreasing_by
  have := length_piece_le b bs
  simp only [List.length_cons]
  omega

end Utf8

end DiceNotation.Text
