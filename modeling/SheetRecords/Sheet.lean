import SheetRecords.Cell.Store

/-!
# Sheets

A `Sheet` is a name and the cells under it.  Writing checks that the cell lies within the limits of
a sheet, and checks nothing else; the rules on names are those of the workbook.
-/

namespace SheetRecords

open Cell

/-- Named cells. -/
structure Sheet where
  name : String
  cells : Store

namespace Sheet

/-- A sheet without cells. -/
def blank (name : String) : Sheet := ⟨name, .empty⟩

/-- Writes a value into a cell within the limits. -/
def set (s : Sheet) (a : Address) (v : Value) : Except BoundsError Sheet :=
  match a.boundsError? with
  | some e => .error e
  | none => .ok { s with cells := s.cells.set a v }

def clear (s : Sheet) (a : Address) : Sheet :=
  { s with cells := s.cells.erase a }

/-- Gives the sheet another name, whatever it is. -/
def rename (s : Sheet) (name : String) : Sheet :=
  { s with name := name }

/-- Writes the values of one row, from the given column on. -/
def setRow (s : Sheet) (row column : Nat) : List Value → Except BoundsError Sheet
  | [] => .ok s
  | v :: values => do (← s.set ⟨row, column⟩ v).setRow row (column + 1) values

/-- Writes rows of values, from the given row on. -/
def setRows (s : Sheet) (row : Nat) : List (List Value) → Except BoundsError Sheet
  | [] => .ok s
  | values :: rows => do (← s.setRow row 0 values).setRows (row + 1) rows

/-- A sheet of rows of values, the first one in the first row. -/
def ofRows (name : String) (rows : List (List Value)) : Except BoundsError Sheet :=
  (blank name).setRows 0 rows

end Sheet

end SheetRecords
