import SheetRecords.Cell.Address

/-!
# Ranges of cells

A `Range` is a rectangle of cells given by its upper left and lower right corners; the order of the
corners is part of the type.  `Range.cell k` is its `k`-th cell row by row, from `0`, and
`Range.cells` lists all `Range.size` of them.
-/

namespace SheetRecords.Cell

/-- A rectangle of cells, both corners included. -/
structure Range where
  /-- The upper left corner. -/
  first : Address
  /-- The lower right corner. -/
  last : Address
  rows_le : first.row ≤ last.row
  columns_le : first.column ≤ last.column
  deriving DecidableEq, Repr

namespace Range

/-- The smallest range that holds two cells. -/
def spanning (a b : Address) : Range where
  first := ⟨min a.row b.row, min a.column b.column⟩
  last := ⟨max a.row b.row, max a.column b.column⟩
  rows_le := by simp only; omega
  columns_le := by simp only; omega

/-- The range of one cell. -/
def single (a : Address) : Range where
  first := a
  last := a
  rows_le := Nat.le_refl _
  columns_le := Nat.le_refl _

def contains (r : Range) (a : Address) : Bool :=
  r.first.row ≤ a.row && a.row ≤ r.last.row &&
    r.first.column ≤ a.column && a.column ≤ r.last.column

def height (r : Range) : Nat :=
  r.last.row - r.first.row + 1

def width (r : Range) : Nat :=
  r.last.column - r.first.column + 1

def size (r : Range) : Nat :=
  r.height * r.width

/-- The cell at place `k`, counted from `0` row by row. -/
def cell (r : Range) (k : Nat) : Address :=
  ⟨r.first.row + k / r.width, r.first.column + k % r.width⟩

/-- The first `n` cells row by row, or all of them if there are fewer. -/
def take (r : Range) (n : Nat) : List Address :=
  (List.range (min n r.size)).map r.cell

def cells (r : Range) : List Address :=
  r.take r.size

/-- The range in A1 notation: its corners around a colon, or its only cell. -/
def text (r : Range) : String :=
  if r.first = r.last then r.first.text else r.first.text ++ ":" ++ r.last.text

/-- Reads a cell, or two corners in any order around the first colon. -/
def parse (s : String) : Except ReferenceError Range := do
  let cs := Text.trimBlanks s.toList
  let text := String.ofList cs
  let corner (part : List Char) : Except ReferenceError Address :=
    (Address.parse (String.ofList part)).mapError (.corner text)
  match cs.dropWhile (· != ':') with
  | [] => single <$> Address.parse text
  | _ :: afterColon =>
    let a ← corner (cs.takeWhile (· != ':'))
    let b ← corner afterColon
    return spanning a b

end Range

end SheetRecords.Cell
