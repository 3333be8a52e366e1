import SheetRecords.Cell.Range

/-!
# Walking through a range

A `Walk` gives the cells of a range one for each call, row by row (`Walk.next?`), and counts those
that are left; `Range.cells?` collects them.  All this computes in words: rows have 32 bits, columns
16 and numbers of cells 64.  What has no word of its size is `none`.
-/

namespace SheetRecords.Cell

/-! ### Words -/

namespace Word

/-- The sum of two words, if it is a word of so many bits. -/
def add? (bits a b : Nat) : Option Nat :=
  if a + b < Nat.pow 2 bits then some (a + b) else none

/-- The difference of two words, if it is not below zero. -/
def sub? (a b : Nat) : Option Nat :=
  if b ≤ a then some (a - b) else none

/-- The product of two words, if it is a word of so many bits. -/
def mul? (bits a b : Nat) : Option Nat :=
  if a * b < Nat.pow 2 bits then some (a * b) else none

end Word

/-! ### Counting -/

/-- The address in A1 notation, where the number of the row is counted from `1`. -/
def Address.text? (a : Address) : Option String := do
  return columnLetters a.column ++ toString (← Word.add? 32 a.row 1)

namespace Range

/-- The number of rows. -/
def height? (r : Range) : Option Nat := do
  Word.add? 32 (← Word.sub? r.last.row r.first.row) 1

/-- The number of columns. -/
def width? (r : Range) : Option Nat := do
  Word.add? 16 (← Word.sub? r.last.column r.first.column) 1

/-- The number of cells. -/
def size? (r : Range) : Option Nat := do
  Word.mul? 64 (← r.height?) (← r.width?)

end Range

/-! ### Walking -/

/-- How far a range has been walked through. -/
structure Walk where
  range : Range
  /-- The row of the next cell. -/
  row : Nat
  /-- The column of the next cell. -/
  column : Nat
  /-- The number of cells that are left. -/
  left : Nat
  deriving DecidableEq, Repr

/-- The walk through a range, before its first cell. -/
def Range.walk? (r : Range) : Option Walk := do
  return ⟨r, r.first.row, r.first.column, ← r.size?⟩

/-- The next cell, or none at the end, and the walk after it.  Behind the last column the walk goes
on in the row below, behind the last row too. -/
def Walk.next? (w : Walk) : Option (Option Address × Walk) :=
  if w.left = 0 then some (none, w)
  else do
    let left ← Word.sub? w.left 1
    if w.column = w.range.last.column then
      let row ← Word.add? 32 w.row 1
      return (some ⟨w.row, w.column⟩, ⟨w.range, row, w.range.first.column, left⟩)
    else
      let column ← Word.add? 16 w.column 1
      return (some ⟨w.row, w.column⟩, ⟨w.range, w.row, column, left⟩)

/-- What so many calls give, and the walk after them. -/
def Walk.calls : Nat → Walk → Option (List (Option Address) × Walk)
  | 0, w => some ([], w)
  | n + 1, w => do
    let (answer, w) ← w.next?
    let (answers, w) ← calls n w
    return (answer :: answers, w)

/-- The cells that a walk through the range gives up to its end. -/
def Range.cells? (r : Range) : Option (List Address) := do
  let w ← r.walk?
  let (answers, _) ← w.calls w.left
  return answers.filterMap id

end SheetRecords.Cell
