/-
Words from the keystream of the ChaCha cipher with twelve rounds, a 64-bit
block counter that starts at 0 and a zero nonce. A seed is stretched to a key
by a permuted congruential generator with 64 bits of state.
-/
import DiceNotation.Roller.Words

namespace DiceNotation

namespace ChaCha

/-- A row of the cipher's four by four matrix. -/
structure Row where
  x : UInt32
  y : UInt32
  z : UInt32
  w : UInt32
  deriving DecidableEq, Repr

namespace Row

def zip (f : UInt32 → UInt32 → UInt32) (r s : Row) : Row :=
  ⟨f r.x s.x, f r.y s.y, f r.z s.z, f r.w s.w⟩

def map (f : UInt32 → UInt32) (r : Row) : Row := ⟨f r.x, f r.y, f r.z, f r.w⟩

def add (r s : Row) : Row := r.zip (· + ·) s

def xor (r s : Row) : Row := r.zip (· ^^^ ·) s

/-- Every word turned left by `n` bits. -/
def rotateBits (n : UInt32) (r : Row) : Row := r.map fun v => (v <<< n) ||| (v >>> (32 - n))

/-- The words turned left by one place. -/
def turn (r : Row) : Row := ⟨r.y, r.z, r.w, r.x⟩

/-- The row as two words of twice the width, the first half of each the low one. -/
def words (r : Row) : UInt64 × UInt64 :=
  (r.x.toUInt64 ||| (r.y.toUInt64 <<< 32), r.z.toUInt64 ||| (r.w.toUInt64 <<< 32))

end Row

structure Matrix where
  a : Row
  b : Row
  c : Row
  d : Row
  deriving DecidableEq, Repr

namespace Matrix

/-- A quarter round on each column at once. -/
def columns (m : Matrix) : Matrix :=
  let a := m.a.add m.b
  let d := (m.d.xor a).rotateBits 16
  let c := m.c.add d
  let b := (m.b.xor c).rotateBits 12
  let a := a.add b
  let d := (d.xor a).rotateBits 8
  let c := c.add d
  let b := (b.xor c).rotateBits 7
  ⟨a, b, c, d⟩

/-- A quarter round on each diagonal at once. -/
def diagonals (m : Matrix) : Matrix :=
  let m := columns ⟨m.a, m.b.turn, m.c.turn.turn, m.d.turn.turn.turn⟩
  ⟨m.a, m.b.turn.turn.turn, m.c.turn.turn, m.d.turn⟩

/-- `n` pairs of rounds. -/
def rounds : (n : Nat) → Matrix → Matrix
  | 0, m => m
  | n + 1, m => rounds n m.columns.diagonals

def add (m n : Matrix) : Matrix := ⟨m.a.add n.a, m.b.add n.b, m.c.add n.c, m.d.add n.d⟩

end Matrix

/-- The words of the cipher's constant text. -/
def constants : Row := ⟨0x61707865, 0x3320646e, 0x79622d32, 0x6b206574⟩

/-- The two rows of a key. -/
structure Key where
  b : Row
  c : Row
  deriving DecidableEq, Repr

/-- The matrix that a block starts from. -/
def Key.matrix (k : Key) (block : UInt64) : Matrix :=
  ⟨constants, k.b, k.c, ⟨block.toUInt32, (block >>> 32).toUInt32, 0, 0⟩⟩

/-- A block of the keystream with twelve rounds. -/
def Key.block (k : Key) (block : UInt64) : Matrix :=
  ((k.matrix block).rounds 6).add (k.matrix block)

end ChaCha

namespace SeedStretch

/-- A step of the generator that stretches seeds: its word and the state after it. -/
def word (state : UInt64) : UInt32 × UInt64 :=
  let state := state * 6364136223846793005 + 11634580027462260723
  let x := (((state >>> 18) ^^^ state) >>> 27).toUInt32
  let n := (state >>> 59).toUInt32
  ((x >>> n) ||| (x <<< ((32 - n) % 32)), state)

def row (state : UInt64) : ChaCha.Row × UInt64 :=
  let (x, state) := word state
  let (y, state) := word state
  let (z, state) := word state
  let (w, state) := word state
  (⟨x, y, z, w⟩, state)

end SeedStretch

/-- A generator of words: its key, the number of the next block, and the words left of this one. -/
structure Keystream where
  key : ChaCha.Key
  block : UInt64
  ready : List UInt64
  deriving DecidableEq, Repr

namespace Keystream

/-- The generator at the start of a key's stream. -/
def ofKey (key : ChaCha.Key) : Keystream := ⟨key, 0, []⟩

def ofSeed (seed : UInt64) : Keystream :=
  let (b, state) := SeedStretch.row seed
  let (c, _) := SeedStretch.row state
  ofKey ⟨b, c⟩

def next (k : Keystream) : UInt64 × Keystream :=
  match k.ready with
  | word :: words => (word, { k with ready := words })
  | [] =>
    let m := k.key.block k.block
    (m.a.words.1, { k with
      block := k.block + 1
      ready := [m.a.words.2, m.b.words.1, m.b.words.2, m.c.words.1, m.c.words.2, m.d.words.1,
        m.d.words.2] })

def source : WordSource Keystream := ⟨next⟩

end Keystream

end DiceNotation
