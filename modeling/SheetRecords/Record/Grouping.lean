import SheetRecords.Scan.Plan

/-!
# Grouping values into records

Each field has a `Role`: constants belong to the whole document, other fields to rows or to columns
by their axis.  Where there are fields of both axes, the depth of nesting decides instead: even
depths go with rows and odd depths with columns.  The roles together give the `Grouping`.
-/

namespace SheetRecords

/-- What the values of a field go with. -/
inductive Role where
  | document
  | row
  | column
  /-- The field has no values. -/
  | inactive
  deriving DecidableEq, Repr

/-- How records are told apart. -/
inductive Grouping where
  /-- A record for each row. -/
  | rows
  /-- A record for each column of each sheet. -/
  | columns
  /-- A record for each column within each row. -/
  | nested
  /-- One record of constants. -/
  | document
  deriving DecidableEq, Repr

/-- Whether there are fields along rows and fields along columns. -/
def isMixed (fields : List PlannedField) : Bool :=
  fields.any (·.axis = .rows) && fields.any (·.axis = .columns)

/-- The role of a field; `mixed` says whether there are fields of both axes. -/
def PlannedField.role (mixed : Bool) (f : PlannedField) : Role :=
  match f.axis with
  | .fixed => .document
  | .unset => .inactive
  | .rows => if mixed then byDepth else .row
  | .columns => if mixed then byDepth else .column
where
  /-- The role by the depth of nesting. -/
  byDepth : Role := if f.depth % 2 = 0 then .row else .column

/-- The roles of fields that are extracted together. -/
def roles (fields : List PlannedField) : List Role :=
  fields.map (PlannedField.role (isMixed fields))

def Grouping.ofRoles (roles : List Role) : Grouping :=
  match roles.contains .row, roles.contains .column with
  | true, true => .nested
  | true, false => .rows
  | false, true => .columns
  | false, false => .document

end SheetRecords
