import SheetRecords.Scan.Plan

/-!
# Resolving fields along a scan

`PlannedField.resolve` says what a field contributes at a visited cell.  Scans and constants answer
from the position alone.  A list field keeps a `Cursor`, the place of the last entry that the scan
has reached, and only ever moves it forward: the entry at the visited cell is an exact answer, and
the last entry before it on the same sheet a nearby one.  A metric field whose current value has
been used has no nearby answer.
-/

namespace SheetRecords

open Cell

/-- What a field contributes at a visited cell. -/
inductive Resolution where
  | none
  /-- The value of the visited cell itself, or a constant. -/
  | exact (v : Value)
  /-- The value of an entry before the visited cell. -/
  | nearby (v : Value)
  deriving BEq, Repr

namespace Resolution

/-- The value, if there is one. -/
def value? : Resolution → Option Value
  | .none => Option.none
  | .exact v => some v
  | .nearby v => some v

/-- Whether there is a value that belongs to the visited cell. -/
def isExact : Resolution → Bool
  | .exact _ => true
  | _ => false

end Resolution

/-- How far a field has come in a scan. -/
structure Cursor where
  /-- The place of the current entry of a list. -/
  position : Nat
  /-- The current value has gone into a record. -/
  used : Bool
  deriving DecidableEq, Repr, Inhabited

namespace Cursor

def start : Cursor := ⟨0, false⟩

/-- The cursor at another entry, whose value has not been used. -/
def moveTo (c : Cursor) (position : Nat) : Cursor :=
  if position = c.position then c else ⟨position, false⟩

/-- The current value has gone into a record. -/
def markUsed (c : Cursor) : Cursor :=
  { c with used := true }

end Cursor

/-- The first place from `i` on whose entry lies after the position, or the end of the entries. -/
def firstAfter (entries : Array Entry) (p : Position) (i : Nat) : Nat :=
  if h : i < entries.size then
    if compare entries[i].position p = .gt then i else firstAfter entries p (i + 1)
  else entries.size
termination_by entries.size - i

/-- The value of an entry: the one known beforehand, or what its cell holds. -/
def Entry.value? (s : Scan) (e : Entry) : Option Value :=
  e.value <|> s.value? e.position

namespace PlannedField

/-- Whether the current value may not be used again. -/
def isSpent (f : PlannedField) (c : Cursor) : Bool :=
  f.isMetric && c.used

/-- What a constant contributes wherever the scan is.  A blank cell is an empty value, and a cell on
a sheet that is not scanned none. -/
def resolveConstant (f : PlannedField) (s : Scan) (source : ConstantSource) (c : Cursor) :
    Resolution :=
  let value := match source with
    | .value v => some v
    | .cell p => if p.rank.isReachable then some ((s.value? p).getD .empty) else none
  match value with
  | some v => if f.isSpent c then .none else .exact v
  | none => .none

/-- What a list contributes at a visited cell, and the cursor afterwards. -/
def resolveList (f : PlannedField) (s : Scan) (entries : Array Entry) (visit : Visit) (c : Cursor) :
    Resolution × Cursor :=
  match entries[c.position]? with
  | none => (.none, c)
  | some current =>
    if current.position = visit.position then
      if f.isSpent c then (.none, c) else (.exact ((current.value? s).getD visit.value), c)
    else
      let next := firstAfter entries visit.position c.position
      match next - c.position, entries[next - 1]? with
      -- The scan is still before the current entry.
      | 0, _ => (.none, c)
      | _, none => (.none, c)
      | _, some e =>
        let c := c.moveTo (next - 1)
        if e.position = visit.position then (.exact ((e.value? s).getD visit.value), c)
        else if e.position.rank ≠ visit.position.rank || f.isSpent c then (.none, c)
        else
          match e.value? s with
          | some v => (.nearby v, c)
          | none => (.none, c)

/-- What the field contributes at a visited cell, and its cursor afterwards. -/
def resolve (f : PlannedField) (s : Scan) (visit : Visit) (c : Cursor) : Resolution × Cursor :=
  let at_ := visit.position
  match f.plan with
  | .constant source => (f.resolveConstant s source c, c)
  | .columnScan sheet column firstRow =>
    if sheet.all (· = at_.rank) && at_.address.column = column && firstRow ≤ at_.address.row then
      (.exact visit.value, c)
    else (.none, c)
  | .rowScan sheet row =>
    -- The first column holds the label of the row.
    if sheet.all (· = at_.rank) && at_.address.row = row && 1 ≤ at_.address.column then
      (.exact visit.value, c)
    else (.none, c)
  | .list entries => f.resolveList s entries visit c
  | .void => (.none, c)

/-- The position of the current entry of a list. -/
def cursorPosition? (f : PlannedField) (c : Cursor) : Option Position :=
  match f.plan with
  | .list entries => entries[c.position]?.map (·.position)
  | _ => none

end PlannedField

end SheetRecords
