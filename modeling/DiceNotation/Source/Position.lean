/-
Positions in a source. Lines count from 1. The column is the number of items
since the line began, so it is 0 where a line is still empty and 1 at the
line's first item. A line break belongs to no column of the line it ends: the
position after it is column 0 of the next line.
-/
import DiceNotation.Source
import DiceNotation.Text.Blank

namespace DiceNotation

structure Position where
  line : Nat
  column : Nat
  deriving DecidableEq, Repr

namespace Position

/-- Where a source starts. -/
def start : Position := ⟨1, 0⟩

/-- The position once `item` is read, too. -/
def after (p : Position) (item : Item) : Position :=
  if item.satisfies Text.isLineBreak then ⟨p.line + 1, 0⟩ else ⟨p.line, p.column + 1⟩

/-- The position once all of `items` are read, too. -/
def afterAll (p : Position) (items : List Item) : Position := items.foldl after p

@[simp] theorem afterAll_nil (p : Position) : p.afterAll [] = p := rfl

@[simp] theorem afterAll_cons (p : Position) (i : Item) (is : List Item) :
    p.afterAll (i :: is) = (p.after i).afterAll is := rfl

theorem afterAll_append (p : Position) (is js : List Item) :
    p.afterAll (is ++ js) = (p.afterAll is).afterAll js := by
  simp [afterAll]

end Position

end DiceNotation
