import SheetRecords.Schema.Document

/-!
# Records

A `Record` holds a value or nothing for every field of a schema, in the order of the fields, and the
`Origin` where it was put together.
-/

namespace SheetRecords

open Cell Json

/-- Where a record was put together: a row, a column, one cell of both, or no place at all. -/
structure Origin where
  sheet : Option String
  row : Option Nat
  column : Option Nat
  deriving DecidableEq, Repr, Inhabited

/-- The values of the fields of one record. -/
structure Record where
  names : List String
  /-- One value or nothing for each name. -/
  values : List (Option Value)
  origin : Origin
  deriving BEq, Repr, Inhabited

namespace Record

/-- The value of a field, `none` if it is absent or there is no such field. -/
def get? (r : Record) (name : String) : Option Value :=
  ((r.names.zip r.values).lookup name).join

/-- Whether there is a field of that name, be its value absent or not. -/
def contains (r : Record) (name : String) : Bool :=
  r.names.contains name

def size (r : Record) : Nat :=
  r.values.length

/-- The record as a document: an object with the fields in order, `null` for absent values. -/
def toTree (r : Record) : Tree :=
  .object ((r.names.zip r.values).map fun (name, v) => (name, (v.map Value.toTree).getD .null)) none

end Record

def Origin.toTree (o : Origin) : Tree :=
  let orNull (t : Option Tree) : Tree := t.getD .null
  .object
    [("sheet", orNull (o.sheet.map .text)), ("row", orNull (o.row.map naturalTree)),
      ("col", orNull (o.column.map naturalTree))]
    none

end SheetRecords
