import SheetRecords.Scan.Order
import SheetRecords.Schema.Addressing

/-!
# Plans

A `Plan` is the addressing of a field in terms of positions in the order of a scan.  The entries of
a list are sorted by position and each position is kept once, with the value listed first
(`canonicalEntries`), so that a list can be followed along the scan.  `Plan.axis` is the direction
in which a field has new values.
-/

namespace SheetRecords

open Cell

/-- Where the value of a constant comes from. -/
inductive ConstantSource where
  | cell (p : Position)
  | value (v : Value)
  deriving BEq, Repr

/-- An entry of a list: a cell, and its value if that is known beforehand. -/
structure Entry where
  position : Position
  value : Option Value
  deriving BEq, Repr, Inhabited

/-- The addressing of a field within a scan. -/
inductive Plan where
  | constant (source : ConstantSource)
  /-- The cells of a column from a row on, on one sheet or on all. -/
  | columnScan (sheet : Option Rank) (column firstRow : Nat)
  /-- The cells of a row without the first one, on one sheet or on all. -/
  | rowScan (sheet : Option Rank) (row : Nat)
  /-- Entries in the order of the scan. -/
  | list (entries : Array Entry)
  | void
  deriving BEq, Repr

/-- The direction in which a field has new values. -/
inductive Axis where
  /-- It has the same value everywhere. -/
  | fixed
  | rows
  | columns
  /-- It has no values. -/
  | unset
  deriving DecidableEq, Repr

/-- The entries so far, in reverse, with one more unless it has the position of the one before. -/
def keepFirst (kept : List Entry) (e : Entry) : List Entry :=
  match kept with
  | [] => [e]
  | f :: _ => if f.position = e.position then kept else e :: kept

/-- The entries in the order of the scan, each position once: of several entries for a position the
one listed first is kept. -/
def canonicalEntries (entries : List Entry) : List Entry :=
  let sorted := entries.mergeSort fun a b => (compare a.position b.position).isLE
  (sorted.foldl keepFirst []).reverse

/-- Whether two entries next to each other lie in different rows. -/
def spansRows : List Entry → Bool
  | a :: b :: rest => a.position.rowKey ≠ b.position.rowKey || spansRows (b :: rest)
  | _ => false

/-- The direction in which a plan has new values.  A list has a new value for each row unless all
its entries lie in one. -/
def Plan.axis : Plan → Axis
  | .constant _ => .fixed
  | .columnScan _ _ _ => .rows
  | .rowScan _ _ => .columns
  | .list entries => if spansRows entries.toList then .rows else .columns
  | .void => .unset

/-! ### From addressing to plan -/

namespace SheetOrder

def resolve (o : SheetOrder) : SheetSelector → Except Fault Rank
  | .name s => .ok (o.rank s)
  | .index i => if i < o.size then .ok (.sheet i) else .error (.sheetIndex i o.size)

/-- The position of a place: by default it is on the first sheet. -/
def locate (o : SheetOrder) (p : Place) : Except Fault Position :=
  match p.sheet with
  | some selector => do return ⟨← o.resolve selector, p.address⟩
  | none => .ok ⟨if o.names.isEmpty then .unreachable else .sheet 0, p.address⟩

/-- The rank of a scanned sheet, if one is selected. -/
def resolve? (o : SheetOrder) : Option SheetSelector → Except Fault (Option Rank)
  | none => .ok none
  | some selector => some <$> o.resolve selector

end SheetOrder

def Addressing.plan (o : SheetOrder) : Addressing → Except Fault Plan
  | .constant place value => do
    let p ← o.locate place
    return .constant (match value with
      | some v => .value v
      | none => .cell p)
  | .columnScan sheet column firstRow => do
    return .columnScan (← o.resolve? sheet) column firstRow
  | .rowScan sheet row => do return .rowScan (← o.resolve? sheet) row
  | .cellList places => do
    let entries ← places.mapM fun p => do return Entry.mk (← o.locate p) none
    return .list (canonicalEntries entries).toArray
  | .valueList values => do
    let entries ← values.mapM fun (p, v) => do return Entry.mk (← o.locate p) (some v)
    return .list (canonicalEntries entries).toArray
  | .void => .ok .void

/-- A field that is ready to be resolved. -/
structure PlannedField where
  name : String
  isMetric : Bool
  /-- The nesting depth that the field declares. -/
  declaredDepth : Option Nat
  plan : Plan
  deriving BEq, Repr

namespace PlannedField

/-- The direction in which the field has new values. -/
def axis (f : PlannedField) : Axis :=
  f.plan.axis

/-- The nesting depth: without a declaration, fields with a value for each column lie deeper. -/
def depth (f : PlannedField) : Nat :=
  f.declaredDepth.getD (if f.axis = .columns then 1 else 0)

end PlannedField

def Field.plan (o : SheetOrder) (f : Field) : Except Issue PlannedField :=
  match f.addressing with
  | .error fault => .error ⟨f.name, fault⟩
  | .ok a =>
    match a.plan o with
    | .error fault => .error ⟨f.name, fault⟩
    | .ok plan => .ok ⟨f.name, f.isMetric, f.depth, plan⟩

/-- All fields planned for a scan, or the issues of all that cannot be. -/
def planFields (o : SheetOrder) : List Field → Except (List Issue) (List PlannedField)
  | [] => .ok []
  | f :: rest =>
    match f.plan o, planFields o rest with
    | .ok planned, .ok others => .ok (planned :: others)
    | .ok _, .error issues => .error issues
    | .error issue, .ok _ => .error [issue]
    | .error issue, .error issues => .error (issue :: issues)

/-! ### How many values to expect -/

/-- The number of values that a plan should have on the sheet of a name, by the extent of the sheet:
one for a constant, and none on sheets that are not scanned. -/
def Plan.expectedCount (s : Scan) (name : String) (plan : Plan) : Nat :=
  let rank := s.order.rank name
  let isOn (sheet : Option Rank) : Bool := sheet.all (· = rank)
  if !rank.isReachable then 0
  else match plan with
    | .constant _ => 1
    | .list entries => (entries.toList.filter (·.position.rank = rank)).length
    | .columnScan sheet _ firstRow =>
      match s.grid.lastRow? name with
      | some last => if isOn sheet && firstRow ≤ last then last - firstRow + 1 else 0
      | none => 0
    | .rowScan sheet row =>
      if isOn sheet then (s.grid.lastColumn? name row).getD 0 else 0
    | .void => 0

end SheetRecords
