/-
Decimal numbers as text. Writing gives the shortest form, with a minus sign
in front of a negative number. There are two ways to read: `saturating`
takes whatever digits a text holds and stops growing at the largest 64-bit
integer, and `word64?` takes an exact numeral of an unsigned 64-bit word or
nothing.
-/

namespace DiceNotation.Text.Decimal

/-- A natural number in decimal digits. -/
def ofNat (n : Nat) : String := n.repr

/-- An integer in decimal digits, a minus sign in front if it is negative. -/
def ofInt : Int → String
  | .ofNat n => ofNat n
  | .negSucc n => "-" ++ ofNat (n + 1)

/-- A 64-bit integer in decimal digits. -/
def ofInt64 (x : Int64) : String := ofInt x.toInt

/-- The integer, or the end of the 64-bit range that it lies beyond. -/
def clamp (n : Int) : Int64 :=
  .ofInt (max (-0x8000000000000000) (min 0x7FFFFFFFFFFFFFFF n))

theorem toInt_clamp (n : Int) :
    (clamp n).toInt = max (-0x8000000000000000) (min 0x7FFFFFFFFFFFFFFF n) :=
  Int64.toInt_ofInt_of_le (by omega) (by omega)

/-- The byte is an ASCII digit. -/
def isDigit (b : UInt8) : Bool := 0x30 ≤ b && b ≤ 0x39

/-- The value of an ASCII digit. -/
def digit (b : UInt8) : Nat := (b - 0x30).toNat

/-- The number with a digit put behind it. It is kept in range when it is multiplied, and again
when the digit is added. -/
def push (value : Int64) (b : UInt8) : Int64 := clamp ((clamp (value.toInt * 10)).toInt + digit b)

/-- The number that the ASCII digits among `bytes` spell, whatever stands between them, as far as it
is in range. -/
def saturating (bytes : List UInt8) : Int64 := (bytes.filter isDigit).foldl push 0

/-- The number that `cs` spells, if it is a non-empty row of ASCII digits. -/
def nat? (cs : List Char) : Option Nat :=
  if !cs.isEmpty && cs.all Char.isDigit then some (Nat.ofDigitChars 10 cs 0) else none

/-- Reads an unsigned 64-bit word: decimal digits, a plus sign in front if one likes. -/
def word64? (s : String) : Option UInt64 :=
  let digits := match s.toList with
    | '+' :: cs => cs
    | cs => cs
  match nat? digits with
  | some n => if n < UInt64.size then some (UInt64.ofNat n) else none
  | none => none

end DiceNotation.Text.Decimal
