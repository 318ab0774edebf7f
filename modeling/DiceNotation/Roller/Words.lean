/-
Fair dice from random words. A word is scaled to the faces by a double-width
product: the high half is the face, counted from 0, and the low half says
whether the word is kept. Products are kept whose low half is below the
largest shift of the number of faces that is still a word, so that every face
stands for equally many words.
-/
import DiceNotation.Roller

namespace DiceNotation

/-- A source of 64-bit words over states `σ`. -/
structure WordSource (σ : Type) where
  next : σ → UInt64 × σ

namespace WordSource

variable {σ : Type}

/-- The largest low half of a product that is kept. -/
def zone (faces : UInt64) : UInt64 := (faces <<< (63 - faces.log2)) - 1

/-- A face from the first of `attempts` words that is kept, and the first face if none is. -/
def faceWithin (w : WordSource σ) (faces : UInt64) : (attempts : Nat) → σ → UInt64 × σ
  | 0, s => (1, s)
  | attempts + 1, s =>
    let (word, s) := w.next s
    if word * faces ≤ zone faces then
      (UInt64.ofNat (word.toNat * faces.toNat / UInt64.size) + 1, s)
    else faceWithin w faces attempts s

/-- How many words a die may take. Each is kept with better than even odds, so a random source never
comes near. -/
def attempts : Nat := 0x100000000

/-- The fair dice that the words make. -/
def roller (w : WordSource σ) : Roller σ where
  die := fun faces s => w.faceWithin faces attempts s

/-- The same source, with a count of the words taken from it. -/
def counted (w : WordSource σ) : WordSource (σ × Nat) where
  next := fun s =>
    let (word, t) := w.next s.1
    (word, t, s.2 + 1)

/-- The given words, and zero for ever after them. -/
def listed : WordSource (List UInt64) where
  next
    | [] => (0, [])
    | word :: words => (word, words)

end WordSource

end DiceNotation
