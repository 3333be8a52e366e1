import SheetRecords.Sheet
import SheetRecords.Text.Lowercase

/-!
# Workbooks

A `Workbook` is a list of sheets.  A sheet is let in (`Workbook.add`) only under a name that is not
empty, not too long, free of the forbidden characters and different from the names that are there,
letter case aside.  `sanitizeName` makes a name of the first three kinds out of any text.
-/

namespace SheetRecords

open Cell

/-- A sheet name has at most this many characters. -/
def nameLimit : Nat := 31

/-- Whether a character may not stand in a sheet name. -/
def isForbidden (c : Char) : Bool :=
  [':', '\\', '/', '?', '*', '[', ']'].contains c

/-- Why a sheet name is refused. -/
inductive NameError where
  | empty
  | tooLong
  | forbidden (c : Char)
  /-- A sheet of that name is there, letter case aside. -/
  | duplicate (name : String)
  deriving DecidableEq, Repr

/-- The wording of a `NameError`. -/
def NameError.message : NameError → String
  | .empty => "Invalid sheet name: Sheet name cannot be empty"
  | .tooLong => s!"Invalid sheet name: Sheet name too long (max {nameLimit} characters)"
  | .forbidden c => s!"Invalid sheet name: Sheet name cannot contain '{c}'"
  | .duplicate name => s!"Sheet name already exists: {name}"

/-- Why a name cannot be the name of any sheet: the first rule that it breaks. -/
def nameError? (name : String) : Option NameError :=
  if name.isEmpty then some .empty
  else if nameLimit < name.length then some .tooLong
  else (name.toList.find? isForbidden).map .forbidden

/-- A text made into a sheet name: underscores for the forbidden characters, cut at the limit, and
`Sheet` if nothing is left. -/
def sanitizeName (s : String) : String :=
  let cs := (s.toList.map fun c => if isForbidden c then '_' else c).take nameLimit
  if cs.isEmpty then "Sheet" else String.ofList cs

/-- An operation on a workbook that cannot be done. -/
inductive WorkbookError where
  | reference (cause : ReferenceError)
  | bounds (cause : BoundsError)
  | name (cause : NameError)
  /-- There are only `count` sheets. -/
  | noSheet (index count : Nat)
  deriving DecidableEq, Repr

/-- The wording of a `WorkbookError`. -/
def WorkbookError.message : WorkbookError → String
  | .reference cause => cause.message
  | .bounds cause => cause.message
  | .name cause => cause.message
  | .noSheet i n => s!"Sheet index {i} out of bounds (count: {n})"

/-- Sheets in order. -/
structure Workbook where
  sheets : List Sheet

namespace Workbook

/-- A workbook without sheets. -/
def empty : Workbook := ⟨[]⟩

/-- A workbook with one blank sheet. -/
def new : Workbook := ⟨[.blank "Sheet1"]⟩

def names (w : Workbook) : List String :=
  w.sheets.map (·.name)

/-- The first sheet of a name, letter case included. -/
def sheet? (w : Workbook) (name : String) : Option Sheet :=
  w.sheets.find? (·.name = name)

def index? (w : Workbook) (name : String) : Option Nat :=
  w.sheets.findIdx? (·.name = name)

def refusal? (w : Workbook) (name : String) : Option NameError :=
  match nameError? name with
  | some e => some e
  | none =>
    let lower := Text.lowercase name
    if w.names.any (Text.lowercase · = lower) then some (.duplicate name) else none

def add (w : Workbook) (s : Sheet) : Except NameError Workbook :=
  match w.refusal? s.name with
  | some e => .error e
  | none => .ok ⟨w.sheets ++ [s]⟩

def remove (w : Workbook) (i : Nat) : Except WorkbookError (Sheet × Workbook) :=
  match w.sheets[i]? with
  | none => .error (.noSheet i w.sheets.length)
  | some s => .ok (s, ⟨w.sheets.eraseIdx i⟩)

/-- Changes the sheet at a place, if there is one.  Nothing is checked, its name included. -/
def modify (w : Workbook) (i : Nat) (f : Sheet → Sheet) : Workbook :=
  ⟨w.sheets.modify i f⟩

/-- What a cell of the first sheet of a name holds, `none` if it holds nothing or there is no such
sheet. -/
def value? (w : Workbook) (name : String) (a : Address) : Option Value :=
  (w.sheet? name).bind (·.cells.get? a)

/-- The cells of the first sheet of a name that hold something, row by row. -/
def cells (w : Workbook) (name : String) : List (Address × Value) :=
  ((w.sheet? name).map (·.cells.toList)).getD []

/-- The last row with something in it of the first sheet of a name. -/
def lastRow? (w : Workbook) (name : String) : Option Nat :=
  (w.sheet? name).bind (·.cells.lastRow?)

/-- The last column with something in it of one row of the first sheet of a name. -/
def lastColumn? (w : Workbook) (name : String) (row : Nat) : Option Nat :=
  (w.sheet? name).bind (·.cells.lastColumn? row)

end Workbook

end SheetRecords
