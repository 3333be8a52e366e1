import SheetRecords.Cell.Walk
import SheetRecords.Schema.Basic

/-!
# How fields are addressed

`Field.addressing` combines the optional parts of a field into one of six ways of addressing, or
finds a `Fault`: parts that contradict each other.  `Field.addressing?` does the same with numbers
in words, and has no result where a number has no word.  `Schema.report` gathers the faults of all
fields, and the names that more than one field uses.
-/

namespace SheetRecords

open Cell

/-- A field's lists of cells may name this many cells through ranges. -/
def listLimit : Nat := 1048576

/-- A cell named by a field.  Without a sheet it lies on the first sheet that is scanned. -/
structure Place where
  sheet : Option SheetSelector
  address : Address
  deriving DecidableEq, Repr

/-- How a field finds its values. -/
inductive Addressing where
  /-- One cell, or the value known for it. -/
  | constant (place : Place) (value : Option Value)
  /-- The cells of a column, from a row on. -/
  | columnScan (sheet : Option SheetSelector) (column firstRow : Nat)
  /-- The cells of a row, without the first one. -/
  | rowScan (sheet : Option SheetSelector) (row : Nat)
  /-- Cells in the order in which they are listed. -/
  | cellList (places : List Place)
  /-- Known values in the order in which they are listed. -/
  | valueList (entries : List (Place × Value))
  /-- No cells. -/
  | void
  deriving BEq, Repr

def Addressing.kind : Addressing → String
  | .constant _ _ => "constant"
  | .columnScan _ _ _ => "column scan"
  | .rowScan _ _ => "row scan"
  | .cellList _ => "cell list"
  | .valueList _ => "value list"
  | .void => "void"

/-- What is wrong with a field. -/
inductive Fault where
  /-- Its ranges cover too many cells. -/
  | tooManyCells (count : Nat)
  /-- It lists both cells and known values. -/
  | cellsAndValues (cells values : Nat)
  /-- It fixes a cell and lists others. -/
  | otherThanFixed (fixed : Address) (listed : Nat)
  /-- It fixes a row or a column, not both, and lists cells or known values. -/
  | fixedAndListed
  /-- It gives a first row without scanning a column. -/
  | firstRowUnused (kind : String)
  /-- Another field has its name. -/
  | duplicateName
  /-- It selects a sheet by a place beyond the scanned ones. -/
  | sheetIndex (index scanned : Nat)
  deriving DecidableEq, Repr

/-- The wording of a `Fault`. -/
def Fault.message : Fault → String
  | .tooManyCells n => s!"ranges cover {n} cells, more than the limit of {listLimit}"
  | .cellsAndValues cells values =>
    s!"both a cell list ({cells} cells) and a value list ({values} values) are set"
  | .otherThanFixed fixed n => s!"fixed cell {fixed.text} disagrees with its list of {n} entries"
  | .fixedAndListed => "a fixed row or column cannot be combined with a cell or value list"
  | .firstRowUnused kind =>
    s!"first_row only applies to a column scan, but the field is a {kind}"
  | .duplicateName => "duplicate field name"
  | .sheetIndex i n => s!"sheet index {i} is out of range ({n} sheets scanned)"

/-- A fault and the field that has it. -/
structure Issue where
  field : String
  fault : Fault
  deriving DecidableEq, Repr

/-- The wording of an `Issue`. -/
def Issue.message (i : Issue) : String :=
  s!"field '{i.field}': {i.fault.message}"

/-! ### One field -/

namespace Field

/-- A referenced cell, on the field's sheet unless it names its own. -/
def place (f : Field) (r : CellReference) : Place :=
  ⟨match r.sheet with
    | some name => some (.name name)
    | none => f.sheet,
    r.target⟩

def rangedCount (f : Field) : Nat :=
  f.ranges.foldl (fun n r => n + r.target.size) 0

/-- The listed cells and then those of the ranges row by row. -/
def places (f : Field) : List Place :=
  (f.cells ++ f.ranges.flatMap RangeReference.cells).map f.place

def entries (f : Field) : List (Place × Value) :=
  f.values.map fun k => (f.place k.cell, k.value)

/-- The way of addressing of a field that fixes a cell: the lists may name that cell once more, and
with its value. -/
def fixedCell (fixed : Place) (places : List Place) (entries : List (Place × Value)) :
    Except Fault Addressing :=
  match places, entries with
  | [], [] => .ok (.constant fixed none)
  | [p], [] => if p = fixed then .ok (.constant fixed none) else disagrees
  | [], [(p, v)] => if p = fixed then .ok (.constant fixed (some v)) else disagrees
  | _, _ => disagrees
where
  /-- The lists name other cells. -/
  disagrees : Except Fault Addressing :=
    .error (.otherThanFixed fixed.address (places.length + entries.length))

/-- The way of addressing of a field that fixes neither a row nor a column, by its lists alone.  A
list of one entry is a constant. -/
def listed (places : List Place) (entries : List (Place × Value)) : Addressing :=
  match places, entries with
  | [p], _ => .constant p none
  | _, [(p, v)] => .constant p (some v)
  | _ :: _, _ => .cellList places
  | _, _ :: _ => .valueList entries
  | [], [] => .void

/-- The way of addressing by what is fixed and what is listed, without the rule on the first row. -/
def combine (f : Field) (places : List Place) (entries : List (Place × Value)) :
    Except Fault Addressing :=
  let unlisted := places.isEmpty && entries.isEmpty
  match f.row, f.column with
  | some row, some column => fixedCell ⟨f.sheet, ⟨row, column⟩⟩ places entries
  | none, some column =>
    if unlisted then .ok (.columnScan f.sheet column (f.firstRow.getD 0))
    else .error .fixedAndListed
  | some row, none =>
    if unlisted then .ok (.rowScan f.sheet row) else .error .fixedAndListed
  | none, none => .ok (listed places entries)

/-- The way of addressing of a field that lists cells at the given places, however many its ranges
cover. -/
def settle (f : Field) (places : List Place) : Except Fault Addressing := do
  let entries := f.entries
  if !places.isEmpty && !entries.isEmpty then
    throw (.cellsAndValues places.length entries.length)
  match ← f.combine places entries with
  | .columnScan sheet column firstRow => return .columnScan sheet column firstRow
  | a => if f.firstRow.isSome then throw (.firstRowUnused a.kind) else return a

def addressing (f : Field) : Except Fault Addressing := do
  if listLimit < f.rangedCount then throw (.tooManyCells f.rangedCount)
  f.settle f.places

def isVoid (f : Field) : Bool :=
  match f.addressing with
  | .ok .void => true
  | _ => false

/-- Whether the field is a single cell or value. -/
def isConstant (f : Field) : Bool :=
  match f.addressing with
  | .ok (.constant _ _) => true
  | _ => false

/-- What is wrong with the field, if anything is. -/
def issue? (f : Field) : Option Issue :=
  match f.addressing with
  | .ok _ => none
  | .error fault => some ⟨f.name, fault⟩

end Field

/-! ### One field, in words -/

/-- The wording of a fault, where the number of a row is counted in a word. -/
def Fault.message? : Fault → Option String
  | .otherThanFixed fixed n => do
    let text ← fixed.text?
    return s!"fixed cell {text} disagrees with its list of {n} entries"
  | fault => some fault.message

namespace Field

/-- The number of cells that all ranges cover, counted range by range. -/
def rangedCount? (f : Field) : Option Nat :=
  f.ranges.foldlM (fun n r => do Word.add? 64 n (← r.target.size?)) 0

/-- The listed cells and then those of the ranges, each of which is walked through. -/
def places? (f : Field) : Option (List Place) := do
  let ranged ← f.ranges.mapM fun r => do
    return (← r.target.cells?).map fun a => f.place ⟨r.sheet, a⟩
  return f.cells.map f.place ++ ranged.flatten

/-- The way of addressing of a field, computed in words: rows have 32 bits, columns 16 and numbers
of cells 64.  A fault is found together with its wording. -/
def addressing? (f : Field) : Option (Except Fault Addressing) := do
  let count ← f.rangedCount?
  if listLimit < count then return .error (.tooManyCells count)
  match f.settle (← f.places?) with
  | .ok a => return .ok a
  | .error fault =>
    let _ ← fault.message?
    return .error fault

end Field

/-! ### All fields -/

/-- The names that occur again in a list after the names `met`, in the order of their second
occurrence. -/
def repeatedNames (met : List String) : List String → List String
  | [] => []
  | name :: rest =>
    let again := repeatedNames (name :: met) rest
    if met.count name = 1 then name :: again else again

/-- What a look at the fields alone tells of a schema. -/
structure Report where
  /-- The fields without cells, which is allowed. -/
  void : List String
  issues : List Issue
  deriving DecidableEq, Repr

namespace Schema

/-- Looks at every field, and then for names that are used twice. -/
def report (s : Schema) : Report where
  void := (s.fields.filter Field.isVoid).map (·.name)
  issues := s.fields.filterMap Field.issue? ++
    (repeatedNames [] (s.fields.map (·.name))).map (⟨·, .duplicateName⟩)

end Schema

end SheetRecords
