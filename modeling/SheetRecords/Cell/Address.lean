import SheetRecords.Cell.Column
import SheetRecords.Text.Blank

/-!
# Cell addresses

An `Address` is a row and a column, both from `0`.  It is written in A1 notation, as column letters
and a row number from `1` (`Address.text`); reading (`Address.parse`) also takes blanks around it, a
dollar sign before either part and letters of either case.  Addresses are ordered row by row.
-/

namespace SheetRecords.Cell

/-- The place of a cell within a sheet. -/
structure Address where
  row : Nat
  column : Nat
  deriving DecidableEq, Repr, Inhabited, Hashable

namespace Address

/-- Row by row, and by column within a row. -/
instance : Ord Address where
  compare := compareLex (compareOn Address.row) (compareOn Address.column)

theorem compare_def (a b : Address) :
    compare a b = (compare a.row b.row).then (compare a.column b.column) := rfl

instance : Std.TransOrd Address :=
  inferInstanceAs (Std.TransCmp (compareLex (compareOn Address.row) (compareOn Address.column)))

instance : Std.LawfulEqOrd Address where
  eq_of_compare {a b} h := by
    rw [compare_def, Ordering.then_eq_eq, Nat.compare_eq_eq, Nat.compare_eq_eq] at h
    cases a; cases b; simp_all

/-- The address lies beyond the limits of a sheet: the row is looked at first. -/
def boundsError? (a : Address) : Option BoundsError :=
  if rowLimit ≤ a.row then some (.row a.row)
  else if columnLimit ≤ a.column then some (.column a.column)
  else none

/-- The address in A1 notation. -/
def text (a : Address) : String :=
  columnLetters a.column ++ toString (a.row + 1)

/-- Drops one dollar sign, which marks an absolute row or column and means nothing here. -/
def dropDollar : List Char → List Char
  | '$' :: rest => rest
  | cs => cs

/-- A number of 32 bits in decimal digits, with or without a plus sign. -/
def rowNumber? (cs : List Char) : Option Nat :=
  let digits := match cs with
    | '+' :: rest => rest
    | cs => cs
  if digits.isEmpty || !digits.all Char.isDigit then none
  else
    let n := Nat.ofDigitChars 10 digits 0
    if n < Nat.pow 2 32 then some n else none

/-- Reads an address in A1 notation.  Of several faults the leftmost is reported. -/
def parse (s : String) : Except ReferenceError Address := do
  let cs := Text.trimBlanks s.toList
  let text := String.ofList cs
  if cs.isEmpty then throw .empty
  let afterDollar := dropDollar cs
  let letters := afterDollar.takeWhile Char.isAlpha
  if letters.isEmpty then throw (.noColumn text)
  let column ← columnOfLetters letters
  let rowText := dropDollar (afterDollar.dropWhile Char.isAlpha)
  if rowText.isEmpty then throw (.noRow text)
  match rowNumber? rowText with
  | none => throw (.badRow text)
  | some 0 => throw (.rowZero text)
  | some (row + 1) =>
    if rowLimit ≤ row then throw (.outside (.row row))
    return ⟨row, column⟩

end Address

end SheetRecords.Cell
