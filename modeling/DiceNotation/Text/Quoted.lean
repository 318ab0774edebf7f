/-
Quoted text: between double quotes, with the quote, the backslash and the
common controls behind a backslash and every other concealed character as
its code point in hexadecimal, so that a quoted text stands on one line and
shows what it holds.
-/
import DiceNotation.Text.Concealed

namespace DiceNotation.Text

/-- One character as a quoted text shows it. -/
def quotedChar (c : Char) : List Char :=
  if c = '\x00' then ['\\', '0']
  else if c = '\t' then ['\\', 't']
  else if c = '\n' then ['\\', 'n']
  else if c = '\r' then ['\\', 'r']
  else if c = '"' then ['\\', '"']
  else if c = '\\' then ['\\', '\\']
  else if isConcealed c then ['\\', 'u', '\x7b'] ++ Nat.toDigits 16 c.toNat ++ ['\x7d']
  else [c]

/-- The text between double quotes. -/
def quoted (s : String) : String :=
  String.ofList ('"' :: s.toList.flatMap quotedChar ++ ['"'])

end DiceNotation.Text
