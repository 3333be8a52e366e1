import SheetRecords.Workbook

/-!
# Grids

A `Grid` is all that an extraction reads of its sheets: their names, and the values, the cells and
the extent under each name.  A `Workbook` is one (`Workbook.grid`).
-/

namespace SheetRecords

open Cell

/-- Named sheets of cells that can be read. -/
structure Grid where
  /-- The names of the sheets, in the order of the document. -/
  names : List String
  /-- What a cell of the sheet of a name holds, `none` if it holds nothing or there is no such
  sheet. -/
  value? : String → Address → Option Value
  /-- The cells of the sheet of a name that hold something, row by row. -/
  cells : String → List (Address × Value)
  /-- The last row of the sheet of a name with something in it. -/
  lastRow? : String → Option Nat
  /-- The last column with something in it of a row of the sheet of a name. -/
  lastColumn? : String → Nat → Option Nat

/-- A workbook as a grid: each name stands for the first sheet that has it. -/
def Workbook.grid (w : Workbook) : Grid where
  names := w.names
  value? := w.value?
  cells := w.cells
  lastRow? := w.lastRow?
  lastColumn? := w.lastColumn?

instance : Coe Workbook Grid := ⟨Workbook.grid⟩

end SheetRecords
