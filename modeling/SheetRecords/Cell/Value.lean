import SheetRecords.Decimal.Layout

/-!
# Cell values

A `Value` is what a cell holds: nothing, a truth value, a number or a text.  `Value.text` is how it
is shown, and `toNumber?`, `toBoolean?` and `toText?` read it as another kind.
-/

namespace SheetRecords.Cell

/-- What a cell holds. -/
inductive Value where
  | empty
  | boolean (b : Bool)
  | number (x : Float)
  | text (s : String)
  deriving BEq, DecidableEq, Repr, Inhabited

namespace Value

/-- Whether there is nothing in the cell.  A text without characters is something. -/
def isEmpty : Value → Bool
  | .empty => true
  | _ => false

def kind : Value → String
  | .empty => "empty"
  | .boolean _ => "boolean"
  | .number _ => "number"
  | .text _ => "string"

def display : Value → String
  | .empty => ""
  | .boolean true => "TRUE"
  | .boolean false => "FALSE"
  | .number x => Decimal.Layout.plain.text x
  | .text s => s

/-- The value as a number: truth is `1` and falsehood `0`. -/
def toNumber? : Value → Option Float
  | .number x => some x
  | .boolean true => some 1
  | .boolean false => some 0
  | _ => none

/-- The value as a truth value: a number is true unless it is zero. -/
def toBoolean? : Value → Option Bool
  | .boolean b => some b
  | .number x => some (x != 0)
  | _ => none

/-- The value as a text, if it is one. -/
def toText? : Value → Option String
  | .text s => some s
  | _ => none

/-- The number nearest to an integer. -/
def ofInt (n : Int) : Value :=
  .number (Float.ofInt n)

end Value

end SheetRecords.Cell
