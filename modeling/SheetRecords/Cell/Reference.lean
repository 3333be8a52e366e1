import SheetRecords.Cell.Range
import SheetRecords.Cell.SheetName

/-!
# References to cells and ranges

A `Reference` is a cell or a range with or without the name of the sheet that holds it, a
`Coordinate` a cell with the name of its sheet.  Both are written with the sheet name first.
-/

namespace SheetRecords.Cell

/-- A target within a sheet, and the sheet if it is named. -/
structure Reference (α : Type) where
  sheet : Option String
  target : α
  deriving DecidableEq, Repr

namespace Reference

variable {α : Type}

/-- The reference as text, given the text of a target. -/
def render (targetText : α → String) (r : Reference α) : String :=
  match r.sheet with
  | none => targetText r.target
  | some name => quoteSheet name ++ "!" ++ targetText r.target

/-- Reads a reference, given how a target is read. -/
def read (readTarget : String → Except ReferenceError α) (s : String) :
    Except ReferenceError (Reference α) := do
  let (sheet, rest) ← splitSheet s
  return ⟨sheet, ← readTarget rest⟩

end Reference

/-- A cell on a sheet of its own or on the sheet that the context gives. -/
abbrev CellReference := Reference Address

/-- A range on a sheet of its own or on the sheet that the context gives. -/
abbrev RangeReference := Reference Range

def CellReference.text (r : CellReference) : String := Reference.render Address.text r

def CellReference.parse (s : String) : Except ReferenceError CellReference :=
  Reference.read Address.parse s

def RangeReference.text (r : RangeReference) : String := Reference.render Range.text r

/-- Reads a reference to a range or to a single cell. -/
def RangeReference.parse (s : String) : Except ReferenceError RangeReference :=
  Reference.read Range.parse s

/-- References to the first `n` cells of the range row by row, or to all if there are fewer. -/
def RangeReference.take (r : RangeReference) (n : Nat) : List CellReference :=
  (r.target.take n).map (⟨r.sheet, ·⟩)

/-- References to all cells of the range row by row. -/
def RangeReference.cells (r : RangeReference) : List CellReference :=
  r.target.cells.map (⟨r.sheet, ·⟩)

/-- A cell on a named sheet. -/
structure Coordinate where
  sheet : String
  address : Address
  deriving DecidableEq, Repr

namespace Coordinate

def text (c : Coordinate) : String :=
  CellReference.text ⟨some c.sheet, c.address⟩

/-- Reads a reference to a cell that names its sheet. -/
def parse (s : String) : Except ReferenceError Coordinate := do
  match ← splitSheet s with
  | (some sheet, rest) => return ⟨sheet, ← Address.parse rest⟩
  | (none, text) => throw (.noSheet text)

end Coordinate

end SheetRecords.Cell
