/-
The lexer takes tokens off the front of a source, one by one. Separators
between tokens are skipped; the token after them is the longest that can be
read there. A `d` with digits alone after it is a dice token, any longer run
of letters and numerals that starts with a letter or an underscore is a word,
and a character that begins no token is a token for itself.

There are two ways to ask for tokens. `nextToken` always gives one, the end
of the input again and again once it is reached. `next?` gives nothing once
it has itself given the end of the input.
-/
import DiceNotation.Token
import DiceNotation.Text.Letter

namespace DiceNotation

/-- A character that can begin a word. -/
def isWordStart (c : Char) : Bool := Text.isLetter c || c == '_'

/-- A character that can stand in a word after its first. -/
def isWordPart (c : Char) : Bool := Text.isLetter c || Text.isNumeral c || c == '_'

/-- The kind of a token that is the single character `c`. -/
def Kind.ofChar (c : Char) : Kind :=
  if c = '=' then .equal
  else if c = '(' then .leftParen
  else if c = ')' then .rightParen
  else if c = '^' then .caret
  else if c = '*' then .star
  else if c = '/' then .slash
  else if c = '+' then .plus
  else if c = '-' then .minus
  else .unrecognized

/-- The kind of a word-like token: a `d` with nothing but digits after it is dice. -/
def Kind.ofWord (c : Char) (more : List Item) : Kind :=
  if (c == 'd' || c == 'D') && more.all (·.satisfies Char.isDigit) then .dice else .word

/-- The token that starts with the character `c`: its kind, and the items after `c` that are part
of it. -/
def lexeme (c : Char) (items : List Item) : Kind × List Item :=
  if c.isDigit then (.integer, items.takeWhile (·.satisfies Char.isDigit))
  else if isWordStart c then
    let more := items.takeWhile (·.satisfies isWordPart)
    (.ofWord c more, more)
  else (.ofChar c, [])

/-- A place between the tokens of a source: the items still to come and the position reached.
`finished` says that `next?` has given the end of the input. -/
structure Lexer where
  rest : List Item
  position : Position
  finished : Bool
  deriving DecidableEq, Repr

namespace Lexer

/-- The start of a source. -/
def ofSource (s : Source) : Lexer := ⟨s.items, .start, false⟩

/-- The token at the front of items that start with no separator, and the place after it. -/
def tokenAt (start : Position) (finished : Bool) : List Item → Token × Lexer
  | [] => (⟨start, .endOfInput, ""⟩, ⟨[], start, finished⟩)
  | .byte b :: items =>
    let p := start.after (.byte b)
    (⟨p, .malformed, ""⟩, ⟨items, p, finished⟩)
  | .char c :: items =>
    let p := start.after (.char c)
    let (kind, more) := lexeme c items
    (⟨p, kind, String.ofList (c :: more.filterMap Item.char?)⟩,
      ⟨items.drop more.length, p.afterAll more, finished⟩)

/-- The next token and the place after it. -/
def nextToken (lx : Lexer) : Token × Lexer :=
  let isBlank := Item.satisfies Text.isSeparator
  tokenAt (lx.position.afterAll (lx.rest.takeWhile isBlank)) lx.finished (lx.rest.dropWhile isBlank)

/-- The next token, unless the end of the input has been given before. -/
def next? (lx : Lexer) : Option (Token × Lexer) :=
  if lx.finished then none
  else
    let (t, lx) := lx.nextToken
    some (t, { lx with finished := t.kind = .endOfInput })

/-- A token other than the end of the input takes an item at least. -/
theorem tokenAt_rest_lt {start : Position} {finished : Bool} {items : List Item}
    (h : (tokenAt start finished items).1.kind ≠ .endOfInput) :
    (tokenAt start finished items).2.rest.length < items.length := by
  cases items with
  | nil => simp [tokenAt] at h
  | cons i items =>
    cases i with
    | byte => simp [tokenAt]
    | char => simp only [tokenAt, List.length_drop, List.length_cons]; omega

theorem nextToken_rest_lt {lx : Lexer} (h : lx.nextToken.1.kind ≠ .endOfInput) :
    lx.nextToken.2.rest.length < lx.rest.length :=
  Nat.lt_of_lt_of_le (tokenAt_rest_lt h) (List.dropWhile_sublist _).length_le

/-- All tokens from here to the end of the input, which is the last of them. -/
def tokens (lx : Lexer) : List Token :=
  let next := lx.nextToken
  if next.1.kind = .endOfInput then [next.1] else next.1 :: tokens next.2
termination_by lx.rest.length
decreasing_by exact nextToken_rest_lt (by assumption)

/-- All tokens that `next?` gives. -/
def toList (lx : Lexer) : List Token := if lx.finished then [] else lx.tokens

/-- The next `n` tokens that `nextToken` gives, and the place after them. -/
def take : Nat → Lexer → List Token × Lexer
  | 0, lx => ([], lx)
  | n + 1, lx =>
    let (t, lx) := lx.nextToken
    let (ts, lx) := take n lx
    (t :: ts, lx)

end Lexer

/-- The tokens of a source, up to the end of the input. -/
def Source.tokens (s : Source) : List Token := (Lexer.ofSource s).tokens

end DiceNotation
