import Std.Data.TreeSet.Lemmas
import SheetRecords.Record.Basic
import SheetRecords.Record.Grouping
import SheetRecords.Scan.Cursor

/-!
# Putting records together

An `Assembly` takes in what the fields contribute at one visited cell after the other.  Each field
has a `Track` with the values that it holds for the open row, for each column of the open sheet, or
for the whole document.  A row is closed when the scan leaves it, and a sheet likewise; closing
emits the records that the grouping asks for, if some field had a value of its own there (`Marks`).

A value taken into a record is used.  A value of a metric field leaves its slot as it is used, so
that no other record gets it; other values stay and are repeated.
-/

namespace SheetRecords

open Cell

/-- A place for one value. -/
inductive Slot where
  | empty
  | nearby (v : Value)
  | exact (v : Value)
  deriving BEq, Repr, Inhabited

namespace Slot

/-- The value, if there is one. -/
def value? : Slot → Option Value
  | .empty => none
  | .nearby v => some v
  | .exact v => some v

/-- The slot after a contribution that it takes.  An exact value is taken unless there is one before
it, a nearby value only by an empty slot. -/
def offer? : Slot → Resolution → Option Slot
  | .empty, .exact v => some (.exact v)
  | .empty, .nearby v => some (.nearby v)
  | .nearby _, .exact v => some (.exact v)
  | _, _ => none

end Slot

/-! ### One field -/

/-- A field during a scan. -/
structure Track where
  field : PlannedField
  role : Role
  cursor : Cursor
  /-- The value for the open row or the document. -/
  slot : Slot
  /-- The values for the columns of the open sheet. -/
  columns : Std.TreeMap Nat Slot

namespace Track

def start (field : PlannedField) (role : Role) : Track :=
  ⟨field, role, .start, .empty, ∅⟩

/-- Takes in a contribution at a cell of the given column.  A metric value for a column is used as
soon as it is taken, so that no later column gets it. -/
def observe (t : Track) (column : Nat) (r : Resolution) : Track :=
  match t.role with
  | .document => { t with slot := (t.slot.offer? r).getD t.slot }
  | .row => { t with slot := (t.slot.offer? r).getD t.slot }
  | .column =>
    match (t.columns.getD column .empty).offer? r with
    | none => t
    | some slot =>
      { t with
        columns := t.columns.insert column slot
        cursor := if t.field.isMetric then t.cursor.markUsed else t.cursor }
  | .inactive => t

/-- The value for a record of the open row, if `ofRow`, and of the given column. -/
def value? (t : Track) (ofRow : Bool) (column : Option Nat) : Option Value :=
  match t.role with
  | .document => t.slot.value?
  | .row => if ofRow then t.slot.value? else none
  | .column => (column.bind (t.columns[·]?)).bind Slot.value?
  | .inactive => none

/-- Empties the slots that a record of the open row, if `ofRow`, and of the given column takes its
value from. -/
def consume (t : Track) (ofRow : Bool) (column : Option Nat) : Track :=
  match t.role, column with
  | .document, _ => { t with slot := .empty }
  | .row, _ => if ofRow then { t with slot := .empty } else t
  | .column, some c => { t with columns := t.columns.erase c }
  | _, _ => t

/-- Gives the value for a record, and is used by that. -/
def emit (t : Track) (ofRow : Bool) (column : Option Nat) : Option Value × Track :=
  let v := t.value? ofRow column
  let t := if v.isSome then { t with cursor := t.cursor.markUsed } else t
  (v, if t.field.isMetric then t.consume ofRow column else t)

def closeRow (t : Track) : Track :=
  if t.role = .row then { t with slot := .empty } else t

def closeSheet (t : Track) : Track :=
  { t with columns := ∅ }

end Track

/-! ### All fields -/

/-- Where fields had values of their own. -/
structure Marks where
  /-- A field that goes with rows, in the open row. -/
  row : Bool
  /-- Fields that go with columns: the columns, in the open row. -/
  rowColumns : Std.TreeSet Nat
  /-- The same in the open sheet. -/
  sheetColumns : Std.TreeSet Nat

namespace Marks

/-- No field had a value of its own. -/
def none : Marks := ⟨false, ∅, ∅⟩

/-- Takes note of a contribution at a cell of the given column. -/
def note (m : Marks) (column : Nat) (role : Role) (r : Resolution) : Marks :=
  if !r.isExact then m
  else match role with
    | .row => { m with row := true }
    | .column =>
      { m with
        rowColumns := m.rowColumns.insert column
        sheetColumns := m.sheetColumns.insert column }
    | _ => m

def closeRow (m : Marks) : Marks :=
  { m with row := false, rowColumns := ∅ }

def closeSheet (m : Marks) : Marks :=
  { m with rowColumns := ∅, sheetColumns := ∅ }

end Marks

/-- Records under way. -/
structure Assembly where
  names : List String
  /-- The scanned sheets in order. -/
  sheetNames : List String
  grouping : Grouping
  tracks : List Track
  /-- The sheet and row that are open. -/
  current : Option (Rank × Nat)
  marks : Marks
  /-- The records that are complete and not handed out yet. -/
  pending : List Record

namespace Assembly

def start (fields : List PlannedField) (sheetNames : List String) : Assembly :=
  let roles := roles fields
  { names := fields.map (·.name)
    sheetNames := sheetNames
    grouping := .ofRoles roles
    tracks := fields.zipWith Track.start roles
    current := none
    marks := .none
    pending := [] }

/-- Emits one record for each of the given columns, or for no column. -/
def emit (a : Assembly) (ofRow : Bool) (columns : List (Option Nat))
    (origin : Option Nat → Origin) : Assembly :=
  let (records, tracks) := columns.foldl
    (fun (records, tracks) column =>
      let emitted := tracks.map fun t => t.emit ofRow column
      (⟨a.names, emitted.map (·.1), origin column⟩ :: records, emitted.map (·.2)))
    ([], a.tracks)
  { a with tracks := tracks, pending := a.pending ++ records.reverse }

def sheetName? (a : Assembly) (r : Rank) : Option String :=
  r.index?.bind (a.sheetNames[·]?)

/-- The columns for which the open row gives records. -/
def rowRecordColumns (a : Assembly) : List (Option Nat) :=
  if !a.marks.row then []
  else match a.grouping with
    | .rows => [none]
    | .nested =>
      match a.marks.rowColumns.toList with
      | [] => [none]
      | columns => columns.map some
    | _ => []

/-- Closes the open row, which is the given one. -/
def closeRow (a : Assembly) (rank : Rank) (row : Nat) : Assembly :=
  let a := a.emit true a.rowRecordColumns fun column => ⟨a.sheetName? rank, some row, column⟩
  { a with tracks := a.tracks.map Track.closeRow, marks := a.marks.closeRow }

/-- The columns for which the open sheet gives records. -/
def sheetRecordColumns (a : Assembly) : List (Option Nat) :=
  if a.grouping = .columns then a.marks.sheetColumns.toList.map some else []

/-- Closes the open sheet, which is the given one. -/
def closeSheet (a : Assembly) (rank : Rank) : Assembly :=
  let a := a.emit false a.sheetRecordColumns fun column => ⟨a.sheetName? rank, none, column⟩
  { a with tracks := a.tracks.map Track.closeSheet, marks := a.marks.closeSheet }

/-- Comes to a position: closes the open row and the open sheet if the position lies outside. -/
def enter (a : Assembly) (p : Position) : Assembly :=
  let a := match a.current with
    | none => a
    | some (rank, row) =>
      let a := if (rank, row) = p.rowKey then a else a.closeRow rank row
      if rank = p.rank then a else a.closeSheet rank
  { a with current := some p.rowKey }

def close (a : Assembly) : Assembly :=
  match a.current with
  | none => a
  | some (rank, row) => { (a.closeRow rank row).closeSheet rank with current := none }

/-- Takes in the contribution of the `i`-th field at a cell of the given column. -/
def observe (a : Assembly) (i column : Nat) (r : Resolution) : Assembly :=
  match a.tracks[i]? with
  | none => a
  | some t =>
    { a with
      tracks := a.tracks.set i (t.observe column r)
      marks := a.marks.note column t.role r }

def observeAll (a : Assembly) (column : Nat) (resolve : Track → Resolution × Cursor) : Assembly :=
  let observed := a.tracks.map fun t =>
    let (r, cursor) := resolve t
    (r, { t with cursor := cursor }.observe column r)
  { a with
    tracks := observed.map (·.2)
    marks := observed.foldl (fun m (r, t) => m.note column t.role r) a.marks }

/-- Visits a cell: comes to it and takes in what all fields contribute there. -/
def visit (s : Scan) (a : Assembly) (v : Visit) : Assembly :=
  (a.enter v.position).observeAll v.position.address.column fun t => t.field.resolve s v t.cursor

/-- Emits the one record of the document. -/
def emitDocument (a : Assembly) : Assembly :=
  a.emit false [none] fun _ => ⟨none, none, none⟩

/-- Ends the scan.  Without fields that go with rows or columns there is one record, of the
constants, which are read even if no cell was visited. -/
def finish (s : Scan) (a : Assembly) : Assembly :=
  let a := a.close
  if a.grouping = .document then
    (a.observeAll 0 fun t =>
      match t.field.plan with
      | .constant source => (t.field.resolveConstant s source t.cursor, t.cursor)
      | _ => (.none, t.cursor)).emitDocument
  else a

end Assembly

end SheetRecords
