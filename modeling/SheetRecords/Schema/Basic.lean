import SheetRecords.Cell.Reference
import SheetRecords.Cell.Value

/-!
# Schemas

A `Schema` says which fields the records of an extraction have and, for each `Field`, where on the
sheets its values stand.  The optional parts of a field are laid down here as they were given; how
they combine into one way of addressing is decided in `SheetRecords.Schema.Addressing`.
-/

namespace SheetRecords

open Cell

/-- The declared type of the values of a field. -/
inductive ValueType where
  | number
  | text
  | boolean
  | any
  deriving DecidableEq, Repr

def ValueType.words : List (String × ValueType) :=
  [("number", .number), ("text", .text), ("boolean", .boolean), ("any", .any)]

def ValueType.word : ValueType → String
  | .number => "number"
  | .text => "text"
  | .boolean => "boolean"
  | .any => "any"

/-- A sheet by its place in the scan order, from `0`, or by its name. -/
inductive SheetSelector where
  | index (i : Nat)
  | name (s : String)
  deriving DecidableEq, Repr

def SheetSelector.text : SheetSelector → String
  | .index i => s!"#{i}"
  | .name s => s

/-- A value known beforehand, and the cell that it counts as coming from. -/
structure KnownValue where
  cell : CellReference
  value : Value
  deriving BEq, DecidableEq, Repr

/-- One field of the records. -/
structure Field where
  name : String
  /-- The sheet of all cells that do not name their own. -/
  sheet : Option SheetSelector
  row : Option Nat
  column : Option Nat
  firstRow : Option Nat
  cells : List CellReference
  ranges : List RangeReference
  values : List KnownValue
  type : ValueType
  /-- Whether the field is a metric, where that does not follow from its type. -/
  metric : Option Bool
  /-- The nesting depth, for records grouped both by rows and by columns. -/
  depth : Option Nat
  deriving BEq, DecidableEq, Repr

namespace Field

/-- A field with nothing but a name. -/
def named (name : String) : Field where
  name := name
  sheet := none
  row := none
  column := none
  firstRow := none
  cells := []
  ranges := []
  values := []
  type := .any
  metric := none
  depth := none

/-- Whether each value of the field may reach one record only.  Numbers are metrics unless the field
says otherwise. -/
def isMetric (f : Field) : Bool :=
  f.metric.getD (f.type = .number)

end Field

/-- The options of an extraction. -/
structure Options where
  /-- Stop after this many records. -/
  recordLimit : Option Nat
  /-- The sheets to scan, in order.  By default all sheets are, in the order of the workbook. -/
  sheetOrder : Option (List String)
  deriving BEq, DecidableEq, Repr

/-- The options that leave everything at its default. -/
def Options.default : Options := ⟨none, none⟩

/-- The fields of the records and the options of their extraction. -/
structure Schema where
  fields : List Field
  options : Options
  deriving BEq, DecidableEq, Repr

end SheetRecords
