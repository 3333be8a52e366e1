import SheetRecords.Scan.Order

/-!
# Pulling the cells of a scan

A `CellStream` gives the cells of a scan one at a time (`CellStream.next?`).  It opens a sheet only
when the cells of the sheet before are used up, and passes over sheets without cells.
`CellStream.visits` lists the cells that are still to come.
-/

namespace SheetRecords

open Cell

/-- The cells of a scan that are still to come. -/
structure CellStream where
  /-- Those of the open sheet. -/
  current : List Visit
  /-- The sheets that are still to be opened, with their ranks. -/
  sheets : List (Rank × String)

namespace CellStream

/-- No sheet has been opened. -/
def start (o : SheetOrder) : CellStream :=
  ⟨[], o.names.map fun name => (o.rank name, name)⟩

/-- All sheets have been opened, and no cell is left. -/
def ended : CellStream :=
  ⟨[], []⟩

/-- The cells that a sheet is opened with: all of it that hold something. -/
def cellsOf (g : Grid) (sheet : Rank × String) : List Visit :=
  (g.cells sheet.2).map fun (a, v) => ⟨⟨sheet.1, a⟩, v⟩

/-- The first cell of the open sheet, or else of the sheets that are still to be opened, and the
stream after it. -/
def pull (g : Grid) : List Visit → List (Rank × String) → Option (Visit × CellStream)
  | v :: current, sheets => some (v, ⟨current, sheets⟩)
  | [], sheet :: sheets => pull g (cellsOf g sheet) sheets
  | [], [] => none

/-- The next cell and the stream after it, `none` if there are no more. -/
def next? (g : Grid) (c : CellStream) : Option (Visit × CellStream) :=
  pull g c.current c.sheets

/-- All cells that are still to come, in order. -/
def visits (g : Grid) (c : CellStream) : List Visit :=
  c.current ++ c.sheets.flatMap (cellsOf g)

@[simp]
theorem visits_ended (g : Grid) : ended.visits g = [] := rfl

theorem visits_of_pull (g : Grid) (current : List Visit) (sheets : List (Rank × String)) :
    (CellStream.mk current sheets).visits g =
      (pull g current sheets).elim [] fun (v, rest) => v :: rest.visits g := by
  fun_induction pull g current sheets with
  | case1 v current sheets => rfl
  | case2 sheet sheets ih => exact ih
  | case3 => rfl

/-- The next cell is the first one still to come, and leaves the others. -/
theorem visits_of_next?_eq_some {g : Grid} {c rest : CellStream} {v : Visit}
    (h : c.next? g = some (v, rest)) : c.visits g = v :: rest.visits g := by
  rw [next?] at h
  have hvisits := visits_of_pull g c.current c.sheets
  rwa [h] at hvisits

/-- Without a next cell there is none still to come. -/
theorem visits_of_next?_eq_none {g : Grid} {c : CellStream} (h : c.next? g = none) :
    c.visits g = [] := by
  rw [next?] at h
  have hvisits := visits_of_pull g c.current c.sheets
  rwa [h] at hvisits

end CellStream

end SheetRecords
