import SheetRecords.Cell.Reference
import SheetRecords.Scan.Grid

/-!
# The order of a scan

A `SheetOrder` lists the names of the sheets to scan, each once.  The `Rank` of a sheet is its place
in that list, and a sheet outside it is `Rank.unreachable`, which comes after all others.  A
`Position` is a cell on a sheet of some rank; positions are ordered by rank, then by row, then by
column, which is the order in which cells are visited.
-/

namespace SheetRecords

open Cell

/-- The place of a sheet in the order of a scan. -/
inductive Rank where
  | sheet (i : Nat)
  /-- The sheet is not scanned. -/
  | unreachable
  deriving DecidableEq, Repr, Inhabited

namespace Rank

/-- The place in the order, if there is one. -/
def index? : Rank → Option Nat
  | .sheet i => some i
  | .unreachable => none

def isReachable (r : Rank) : Bool :=
  r.index?.isSome

/-- A number that orders ranks within a sort of them: first the scanned sheets, by place. -/
def key : Rank → Bool × Nat
  | .sheet i => (false, i)
  | .unreachable => (true, 0)

instance : Ord Rank where
  compare := compareLex (compareOn fun r => r.key.1) (compareOn fun r => r.key.2)

theorem compare_def (a b : Rank) :
    compare a b = (compare a.key.1 b.key.1).then (compare a.key.2 b.key.2) := rfl

instance : Std.TransOrd Rank :=
  inferInstanceAs
    (Std.TransCmp (compareLex (compareOn fun r : Rank => r.key.1) (compareOn fun r => r.key.2)))

instance : Std.LawfulEqOrd Rank where
  eq_of_compare {a b} h := by
    rw [compare_def, Ordering.then_eq_eq, Nat.compare_eq_eq] at h
    cases a <;> cases b <;> simp_all [key]

end Rank

/-- A cell on a sheet of some rank. -/
structure Position where
  rank : Rank
  address : Address
  deriving DecidableEq, Repr, Inhabited

namespace Position

instance : Ord Position where
  compare := compareLex (compareOn Position.rank) (compareOn Position.address)

theorem compare_def (a b : Position) :
    compare a b = (compare a.rank b.rank).then (compare a.address b.address) := rfl

instance : Std.TransOrd Position :=
  inferInstanceAs (Std.TransCmp (compareLex (compareOn Position.rank) (compareOn Position.address)))

instance : Std.LawfulEqOrd Position where
  eq_of_compare {a b} h := by
    rw [compare_def, Ordering.then_eq_eq, Std.LawfulEqOrd.compare_eq_iff_eq,
      Std.LawfulEqOrd.compare_eq_iff_eq] at h
    cases a; cases b; simp_all

/-- The row of the cell, together with its sheet. -/
def rowKey (p : Position) : Rank × Nat :=
  (p.rank, p.address.row)

end Position

/-- The sheets of a scan in order, each named once. -/
structure SheetOrder where
  names : List String
  nodup : names.Nodup
  deriving DecidableEq, Repr

namespace SheetOrder

/-- The names without repetitions, each at its first place. -/
def dropRepeats : List String → List String
  | [] => []
  | name :: rest => name :: (dropRepeats rest).filter (· ≠ name)

theorem nodup_dropRepeats (names : List String) : (dropRepeats names).Nodup := by
  induction names with
  | nil => simp [dropRepeats]
  | cons name rest ih =>
    simp only [dropRepeats, List.nodup_cons]
    exact ⟨by simp [List.mem_filter], ih.filter _⟩

/-- The order of the names, where a repeated name keeps its first place. -/
def ofNames (names : List String) : SheetOrder :=
  ⟨dropRepeats names, nodup_dropRepeats names⟩

/-- The order of the sheets of a grid. -/
def ofGrid (g : Grid) : SheetOrder :=
  ofNames g.names

/-- The order of the sheets of a workbook. -/
def ofWorkbook (w : Workbook) : SheetOrder :=
  ofGrid w

/-- The order of the names, unless the grid lacks one of them: the first such name is given. -/
def select (g : Grid) (names : List String) : Except String SheetOrder :=
  match names.find? fun name => !g.names.contains name with
  | some name => .error name
  | none => .ok (ofNames names)

def size (o : SheetOrder) : Nat :=
  o.names.length

def rank (o : SheetOrder) (name : String) : Rank :=
  match o.names.findIdx? (· = name) with
  | some i => .sheet i
  | none => .unreachable

def name? (o : SheetOrder) (r : Rank) : Option String :=
  r.index?.bind fun i => o.names[i]?

def position (o : SheetOrder) (c : Coordinate) : Position :=
  ⟨o.rank c.sheet, c.address⟩

def compare (o : SheetOrder) (a b : Coordinate) : Ordering :=
  Ord.compare (o.position a) (o.position b)

end SheetOrder

/-- A grid read in some order of its sheets. -/
structure Scan where
  grid : Grid
  order : SheetOrder

/-- A cell that is visited, and what it holds. -/
structure Visit where
  position : Position
  value : Value
  deriving Repr

namespace Scan

/-- What the cell at a position holds, `none` if it holds nothing or is out of reach. -/
def value? (s : Scan) (p : Position) : Option Value :=
  (s.order.name? p.rank).bind fun name => s.grid.value? name p.address

/-- The cells that hold something on a sheet of the given rank. -/
def sheetVisits (s : Scan) (i : Nat) (name : String) : List Visit :=
  (s.grid.cells name).map fun (a, v) => ⟨⟨.sheet i, a⟩, v⟩

/-- The cells that hold something, in the order of the scan. -/
def visits (s : Scan) : List Visit :=
  (s.order.names.mapIdx s.sheetVisits).flatten

end Scan

end SheetRecords
