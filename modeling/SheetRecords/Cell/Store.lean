import Std.Data.TreeMap.Lemmas
import SheetRecords.Cell.Range
import SheetRecords.Cell.Value
import SheetRecords.Text.Pool

/-!
# Sparse cells

A `Store` keeps its cells by row, and those of a row by column.  A `Row` has at least one cell, and
no cell is kept that holds nothing: to write nothing into a cell is to clear it (`Store.set`), and a
row that loses its last cell goes too (`Store.remove`).  A store also remembers the texts ever
written, which outlive the cells.
-/

namespace SheetRecords.Cell

/-- The cells of one row that hold something, of which there is at least one, by column. -/
structure Row where
  cells : Std.TreeMap Nat Value
  cells_ne_empty : ∀ column : Nat, cells[column]? ≠ some Value.empty
  isEmpty_eq_false : cells.isEmpty = false

namespace Row

/-- Puts something into a cell of a row, which may have no cells before. -/
def insert (r : Option Row) (column : Nat) (v : Value) (h : v ≠ .empty) : Row where
  cells := ((r.map cells).getD ∅).insert column v
  cells_ne_empty b := by
    rw [Std.TreeMap.getElem?_insert]
    split
    · simpa using h
    · cases r with
      | none => simp
      | some r => exact r.cells_ne_empty b
  isEmpty_eq_false := Std.TreeMap.isEmpty_insert

/-- Clears one cell of a row: nothing is left if it was the last one. -/
def erase? (r : Row) (column : Nat) : Option Row :=
  if h : (r.cells.erase column).isEmpty = false then
    some {
      cells := r.cells.erase column
      cells_ne_empty b := by
        rw [Std.TreeMap.getElem?_erase]
        split
        · simp
        · exact r.cells_ne_empty b
      isEmpty_eq_false := h }
  else none

end Row

/-- The cells of a sheet that hold something. -/
structure Store where
  byRow : Std.TreeMap Nat Row
  /-- The different texts ever written. -/
  texts : Text.Pool

namespace Store

/-- No cell holds anything. -/
def empty : Store where
  byRow := ∅
  texts := .empty

instance : Inhabited Store := ⟨empty⟩

/-- What the cell holds, `none` if it holds nothing. -/
def get? (s : Store) (a : Address) : Option Value :=
  s.byRow[a.row]?.bind (·.cells[a.column]?)

def get (s : Store) (a : Address) : Value :=
  (s.get? a).getD .empty

/-- Clears one cell, and gives what it held. -/
def remove (s : Store) (a : Address) : Option Value × Store :=
  match s.byRow[a.row]? with
  | none => (none, s)
  | some r =>
    let byRow := match r.erase? a.column with
      | none => s.byRow.erase a.row
      | some r' => s.byRow.insert a.row r'
    (r.cells[a.column]?, { s with byRow })

/-- Clears one cell. -/
def erase (s : Store) (a : Address) : Store :=
  (s.remove a).2

/-- Puts something into a cell. -/
def insert (s : Store) (a : Address) (v : Value) (h : v ≠ .empty) (texts : Text.Pool) : Store where
  byRow := s.byRow.insert a.row (.insert s.byRow[a.row]? a.column v h)
  texts := texts

/-- Writes a value into a cell.  An empty value clears it. -/
def set (s : Store) (a : Address) : Value → Store
  | .empty => s.erase a
  | .boolean b => s.insert a (.boolean b) (by simp) s.texts
  | .number x => s.insert a (.number x) (by simp) s.texts
  | .text t => s.insert a (.text t) (by simp) (s.texts.insert t)

/-- Clears all cells.  The texts written before are still remembered. -/
def clear (s : Store) : Store :=
  { empty with texts := s.texts }

/-- The rows in order, without their numbers. -/
def rowList (s : Store) : List Row :=
  s.byRow.toList.map (·.2)

/-- The number of cells that hold something. -/
def size (s : Store) : Nat :=
  s.rowList.foldl (fun n r => n + r.cells.size) 0

def isEmpty (s : Store) : Bool :=
  s.byRow.isEmpty

/-- The cells that hold something, row by row. -/
def toList (s : Store) : List (Address × Value) :=
  s.byRow.toList.flatMap fun (row, r) => r.cells.toList.map fun (column, v) => (⟨row, column⟩, v)

/-- The cells of one row that hold something, by column. -/
def row (s : Store) (row : Nat) : List (Nat × Value) :=
  (s.byRow[row]?.map (·.cells.toList)).getD []

/-- The rows with a cell that holds something. -/
def rows (s : Store) : List Nat :=
  s.byRow.keys

/-- The last row with a cell that holds something. -/
def lastRow? (s : Store) : Option Nat :=
  s.byRow.maxKey?

/-- The last column of a row that holds something. -/
def lastColumn? (s : Store) (row : Nat) : Option Nat :=
  s.byRow[row]?.bind (·.cells.maxKey?)

/-- The smallest range around the cells that hold something: from the first row to the last one, and
from the least of the first columns of the rows to the greatest of their last ones. -/
def usedRange? (s : Store) : Option Range := do
  let firstRow ← s.byRow.minKey?
  let lastRow ← s.byRow.maxKey?
  let firstColumn ← (s.rowList.filterMap (·.cells.minKey?)).min?
  let lastColumn ← (s.rowList.filterMap (·.cells.maxKey?)).max?
  return .spanning ⟨firstRow, firstColumn⟩ ⟨lastRow, lastColumn⟩

end Store

end SheetRecords.Cell
