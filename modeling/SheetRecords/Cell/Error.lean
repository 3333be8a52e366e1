/-!
# Reasons why a text or a position names no cell

`BoundsError` says that a row or column lies beyond the limits of a sheet, `ReferenceError` that a
text is not a cell, range or sheet-qualified reference.  Each has one `message`.
-/

namespace SheetRecords.Cell

def rowLimit : Nat := 1048576

def columnLimit : Nat := 16384

/-- A position beyond the limits of a sheet.  Rows and columns count from `0`. -/
inductive BoundsError where
  | row (row : Nat)
  | column (column : Nat)
  deriving DecidableEq, Repr

/-- The wording of a `BoundsError`: the position and the greatest one allowed. -/
def BoundsError.message : BoundsError → String
  | .row r => s!"Row index {r} out of bounds (max: {rowLimit - 1})"
  | .column c => s!"Column index {c} out of bounds (max: {columnLimit - 1})"

/-- Why a text is not a reference.  The field `text` is the text at fault, without the blanks around
it. -/
inductive ReferenceError where
  /-- There is nothing to read. -/
  | empty
  /-- A column name is asked for and there are no letters. -/
  | noLetters
  /-- A column name holds a character that is no ASCII letter. -/
  | notALetter (c : Char)
  /-- A cell does not begin with column letters. -/
  | noColumn (text : String)
  /-- Nothing follows the column letters of a cell. -/
  | noRow (text : String)
  /-- What follows the column letters of a cell is not a number of 32 bits. -/
  | badRow (text : String)
  /-- Rows are written from `1`. -/
  | rowZero (text : String)
  /-- The cell lies beyond the limits of a sheet. -/
  | outside (cause : BoundsError)
  /-- One of the corners of a range is not a cell. -/
  | corner (text : String) (cause : ReferenceError)
  /-- A quoted sheet name is empty or not followed by an exclamation mark. -/
  | noMark (text : String)
  /-- A quoted sheet name does not end. -/
  | openQuote (text : String)
  /-- An exclamation mark stands first. -/
  | emptySheet (text : String)
  /-- A sheet name is asked for and there is none. -/
  | noSheet (text : String)
  deriving DecidableEq, Repr

/-- The wording of a `ReferenceError`. -/
def ReferenceError.message : ReferenceError → String
  | .empty => address "empty address"
  | .noLetters => address "empty column letters"
  | .notALetter c => address s!"invalid column letter '{c}'"
  | .noColumn text => address s!"no column letters in '{text}'"
  | .noRow text => address s!"no row number in '{text}'"
  | .badRow text => address s!"invalid row number in '{text}'"
  | .rowZero text => address s!"row number must be >= 1 in '{text}'"
  | .outside cause => cause.message
  | .corner text cause => s!"Invalid cell range: '{text}': {cause.message}"
  | .noMark text => address s!"expected '!' after quoted sheet name in '{text}'"
  | .openQuote text => address s!"unterminated sheet name in '{text}'"
  | .emptySheet text => address s!"empty sheet name in '{text}'"
  | .noSheet text => address s!"missing sheet name in '{text}'"
where
  address (reason : String) : String := s!"Invalid cell address: {reason}"

end SheetRecords.Cell
