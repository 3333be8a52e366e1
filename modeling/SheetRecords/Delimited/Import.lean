import SheetRecords.Decimal.Numeral
import SheetRecords.Delimited.Reader
import SheetRecords.Files.Basic
import SheetRecords.Text.Utf8
import SheetRecords.Workbook

/-!
# Sheets from delimited text

`importSheet` puts the fields of delimited text into a sheet, the `j`-th field of the `i`-th record
into row `i` and column `j`.  Blank fields are left out.  Unless that is turned off, a field that
reads as a truth value or as a number becomes one (`detect`).  `loadWorkbook` makes a workbook of
files, with a sheet for each, named after its file.
-/

namespace SheetRecords.Delimited

open Cell

/-- How delimited text becomes a sheet. -/
structure ImportOptions where
  dialect : Dialect
  /-- The first record holds names, which stay texts. -/
  hasHeader : Bool
  /-- Fields may become truth values and numbers. -/
  detectsTypes : Bool
  deriving DecidableEq, Repr

/-- Standard text without names, with truth values and numbers. -/
def ImportOptions.default : ImportOptions := ⟨.standard, false, true⟩

/-- Why delimited text does not become a sheet of a workbook. -/
inductive ImportError where
  /-- The file cannot be read. -/
  | file (cause : FileError)
  /-- A field is not UTF-8 from one of its bytes on. -/
  | notText (record : Nat) (start : TextPosition) (field byte : Nat)
  /-- A field of a record lies beyond the limits of a sheet. -/
  | bounds (line : Nat) (cause : BoundsError)
  /-- The workbook refuses the name of the sheet. -/
  | name (cause : NameError)
  deriving DecidableEq, Repr

namespace ImportError

/-- The wording of what is wrong, without the kind of the error. -/
def reason : ImportError → String
  | .file cause => cause.message
  | .notText record start field byte =>
    s!"CSV parse error: record {record} " ++
      s!"(line {start.line}, field: {field}, byte: {start.byte}): " ++
      s!"invalid utf-8: invalid UTF-8 in field {field} near byte index {byte}"
  | .bounds _ cause => cause.message
  | .name cause => cause.message

/-- The wording of an `ImportError`. -/
def message (e : ImportError) : String :=
  match e with
  | .file cause => (if cause.isAfterOpening then "CSV error: " else "IO error: ") ++ e.reason
  | .notText _ _ _ _ => "CSV error: " ++ e.reason
  | .bounds line _ => s!"CSV input exceeds worksheet bounds at line {line}: {e.reason}"
  | .name _ => "Core error: " ++ e.reason

end ImportError

/-! ### Fields -/

/-- A field as a text, or as nothing if it is blank. -/
def textOrEmpty (s : String) : Value :=
  if Text.isAllBlank s then .empty else .text s

/-- Reads a truth value, in either case of the letters. -/
def readBoolean? (cs : List Char) : Option Bool :=
  match String.ofList (cs.map Char.toLower) with
  | "true" => some true
  | "false" => some false
  | _ => none

/-- Reads a number that is finite and written with digits. -/
def readFinite? (cs : List Char) : Option Float :=
  if cs.any Char.isDigit then (Decimal.readFloat? cs).filter Float.isFinite else none

/-- A field as what it reads as, blanks around it aside: a truth value, a number, or else a text. -/
def detect (s : String) : Value :=
  let cs := Text.trimBlanks s.toList
  match readBoolean? cs, readFinite? cs with
  | some b, _ => .boolean b
  | none, some x => .number x
  | none, none => textOrEmpty s

def ImportOptions.value (o : ImportOptions) (record : Nat) (s : String) : Value :=
  if o.detectsTypes && !(o.hasHeader && record = 0) then detect s else textOrEmpty s

/-! ### Records -/

/-- A field as a text.  The field is the one of the given number in the record. -/
def decodeField (record : Nat) (start : TextPosition) (number : Nat) (field : List UInt8) :
    Except ImportError String :=
  match Text.Utf8.decode field with
  | (cs, []) => .ok (String.ofList cs)
  | (_, broken) => .error (.notText record start number (field.length - broken.length))

/-- The fields of a record as texts.  The record is the one of the given number. -/
def RawRecord.decode (number : Nat) (r : RawRecord) : Except ImportError (List String) :=
  r.fields.zipIdx.mapM fun (field, i) => decodeField number r.start i field

/-- A record is counted in 32 bits. -/
def rowCountLimit : Nat := 4294967296

/-- A column is counted in 16 bits. -/
def columnCountLimit : Nat := 65536

/-- Writes a value that is not empty into the sheet.  If its record or its column cannot be counted,
the column is at fault, with as many of its bits as a record has. -/
def putField (s : Sheet) (a : Address) (v : Value) : Except BoundsError Sheet :=
  if v.isEmpty then .ok s
  else if rowCountLimit ≤ a.row || columnCountLimit ≤ a.column then
    .error (.column (a.column % rowCountLimit))
  else s.set a v

/-- Writes the fields of a record into the sheet, from the given column on. -/
def putFields (o : ImportOptions) (record column : Nat) (s : Sheet) :
    List String → Except BoundsError Sheet
  | [] => .ok s
  | field :: rest =>
    match putField s ⟨record, column⟩ (o.value record field) with
    | .error e => .error e
    | .ok s => putFields o record (column + 1) s rest

/-- Writes records into the sheet, given how many records there are before them. -/
def putRecords (o : ImportOptions) (before : Nat) (s : Sheet) :
    List RawRecord → Except ImportError Sheet
  | [] => .ok s
  | r :: rest =>
    match r.decode before with
    | .error e => .error e
    | .ok fields =>
      match putFields o before 0 s fields with
      | .error e => .error (.bounds r.start.line e)
      | .ok s => putRecords o (before + 1) s rest

/-- A sheet with the fields of records, the first record in the first row. -/
def sheetOfRecords (o : ImportOptions) (name : String) (records : List RawRecord) :
    Except ImportError Sheet :=
  putRecords o 0 (.blank name) records

def importSheet (o : ImportOptions) (name : String) (bytes : List UInt8) :
    Except ImportError Sheet :=
  sheetOfRecords o name (readRecords o.dialect bytes)

/-- The name of the sheet of a text that comes from no file. -/
def defaultSheetName : String := "Sheet1"

/-! ### Files -/

def sheetNameOfFile (path : String) : String :=
  sanitizeName (fileStem path)

section

variable {m : Type → Type} [Monad m]

/-- The sheet of a file, under the given name or that of the file. -/
def loadSheet (files : Files m) (o : ImportOptions) (name : Option String) (path : String) :
    ExceptT ImportError m Sheet := do
  match ← files.read path with
  | .error e => throw (.file e)
  | .ok bytes => ExceptT.mk (pure (importSheet o (name.getD (sheetNameOfFile path)) bytes))

def loadWorkbook (files : Files m) (o : ImportOptions) (paths : List String) :
    ExceptT ImportError m Workbook :=
  paths.foldlM
    (fun w path => do
      let s ← loadSheet files o none path
      match w.add s with
      | .error e => throw (.name e)
      | .ok w => return w)
    Workbook.empty

end

end SheetRecords.Delimited
