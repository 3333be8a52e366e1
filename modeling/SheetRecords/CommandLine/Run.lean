import SheetRecords.CommandLine.Arguments
import SheetRecords.Delimited.Import
import SheetRecords.Extraction
import SheetRecords.Record.Output

/-!
# Running the program

`run` carries out the command that the arguments make, given the files around the program, and tells
what to print and with which status to exit.  What is printed before a command fails is printed all
the same, and the report of the `Failure` comes last.
-/

namespace SheetRecords.CommandLine

/-- Why a command cannot be carried out: what failed, and the causes of that, each the cause of the
one before it. -/
structure Failure where
  summary : String
  causes : List String
  deriving DecidableEq, Repr

namespace Failure

/-- A text of several lines with something before each line but the first. -/
def indentLines (indent : String) (s : String) : String :=
  String.ofList (s.toList.flatMap fun c => if c = '\n' then '\n' :: indent.toList else [c])

/-- The number of a cause, which takes at least five characters. -/
def causeNumber (i : Nat) : String :=
  let digits := toString i
  "".pushn ' ' (5 - digits.length) ++ digits ++ ": "

/-- The list of the causes.  A single cause has no number. -/
def causeLines : List String → List String
  | [] => []
  | [cause] => ["    " ++ indentLines "    " cause]
  | causes => causes.mapIdx fun i cause => causeNumber i ++ indentLines "       " cause

def report (f : Failure) : String :=
  let causes := match causeLines f.causes with
    | [] => ""
    | lines => "\n\nCaused by:\n" ++ "\n".intercalate lines
  "Error: " ++ f.summary ++ causes ++ "\n"

end Failure

/-- What a program prints. -/
structure Printed where
  output : List UInt8
  diagnostics : String
  deriving DecidableEq, Repr

/-- What a program prints, and the status with which it exits. -/
structure Outcome extends Printed where
  status : Nat
  deriving DecidableEq, Repr

section

variable {m : Type → Type} [Monad m]

/-- A command under way: it may print, and it may fail. -/
abbrev Session (m : Type → Type) := ExceptT Failure (StateT Printed m)

def printBytes (bytes : List UInt8) : Session m Unit :=
  modifyThe Printed fun p => { p with output := p.output ++ bytes }

def printLines (lines : List String) : Session m Unit :=
  printBytes (Text.Utf8.encode (String.join (lines.map (· ++ "\n"))))

def warn (lines : List String) : Session m Unit :=
  modifyThe Printed fun p =>
    { p with diagnostics := p.diagnostics ++ String.join (lines.map (· ++ "\n")) }

/-- Fails with the summary and the causes unless there is a result. -/
def orFail {ε α : Type} (summary : String) (causes : ε → List String) (r : Except ε α) :
    Session m α :=
  match r with
  | .ok a => return a
  | .error e => throw ⟨summary, causes e⟩

/-- The causes of a failure to read a schema from a file. -/
def fileCauses (e : FileError) : List String :=
  [(if e.isAfterOpening then "Invalid configuration: " else "IO error: ") ++ e.message, e.message]

/-- The causes of a failure to decode a schema. -/
def schemaCauses (e : Json.DecodeError) : List String :=
  ["Invalid configuration: " ++ e.message, e.message]

/-- The causes of a failure to load the inputs. -/
def importCauses (e : Delimited.ImportError) : List String :=
  [e.message, e.reason]

def loadSchema (files : Files m) (path : String) : Session m Schema := do
  let summary := s!"Failed to load field configuration '{path}'"
  let bytes ← orFail summary fileCauses (← files.read path)
  orFail summary schemaCauses (Schema.readBytes bytes)

def delimiterByte (delimiter : Char) : Session m UInt8 :=
  if delimiter.toNat < 0x80 then return delimiter.toUInt8
  else throw ⟨s!"Delimiter '{delimiter}' is not a single-byte character", []⟩

/-- Reads the inputs as the sheets of a workbook. -/
def loadInputs (files : Files m) (inputs : List String) (delimiter : Char) :
    Session m Workbook := do
  let delimiter ← delimiterByte delimiter
  let options := { Delimited.ImportOptions.default with
    dialect := { Delimited.Dialect.standard with delimiter := delimiter } }
  orFail "Failed to read input files" importCauses
    (← (Delimited.loadWorkbook files options inputs).run)

def extractionCauses (e : ExtractionError) : List String :=
  [e.message]

/-- Records are handed on to their file in blocks of so many bytes. -/
def blockSize : Nat := 8192

/-- The failure to write records to a file.  That a file has no room shows at the first full block,
or at the end if there is none. -/
def outputFailure (format : RecordFormat) (path : String) (bytes : List UInt8) (e : FileError) :
    Failure :=
  match e with
  | .noSpace =>
    if bytes.length ≤ blockSize then ⟨"Failed to flush output", [e.message]⟩
    else match format with
      | .delimited _ _ => ⟨"Failed to write record", [e.message, e.message]⟩
      | .json => ⟨"Failed to write record", [e.message]⟩
  | e => ⟨s!"Failed to create '{path}'", [e.message]⟩

/-- Extracts records and writes them, to a file or to the output. -/
def extract (files : Files m) (request : ExtractRequest) : Session m Unit := do
  let schema ← loadSchema files request.schema
  let limit := request.limit <|> schema.options.recordLimit
  let schema := { schema with options := { schema.options with recordLimit := limit } }
  let workbook ← loadInputs files request.inputs request.delimiter
  let extraction ← orFail "Failed to start extraction" extractionCauses (schema.extract workbook)
  let format : RecordFormat := match request.form with
    | .delimited => .delimited request.delimiter.toUInt8 request.absent
    | .json => .json
  let records := extraction.records
  let bytes := format.write (schema.fields.map (·.name)) records
  match request.output with
  | none => printBytes bytes
  | some path =>
    match ← files.write path bytes with
    | .error e => throw (outputFailure format path bytes e)
    | .ok () => warn [s!"Wrote {records.length} records to '{path}'"]

def fieldLine (f : Field) : String :=
  match f.addressing with
  | .ok a => s!"{f.name}\t{a.kind}"
  | .error fault => s!"{f.name}\tmisconfigured: {fault.message}"

def voidLine (name : String) : String :=
  s!"Warning: field '{name}' has no addressing and is always absent"

/-- Tells how the fields of a schema are addressed.  With inputs, tells how many values each field
should have on each sheet. -/
def check (files : Files m) (path : String) (inputs : List String) (delimiter : Char) :
    Session m Unit := do
  let schema ← loadSchema files path
  printLines (schema.fields.map fieldLine)
  let report := schema.report
  warn (report.void.map voidLine)
  warn (report.issues.map fun i => s!"Error: {i.message}")
  if !report.issues.isEmpty then throw ⟨s!"{report.issues.length} misconfigured field(s)", []⟩
  if inputs.isEmpty then return
  let workbook ← loadInputs files inputs delimiter
  printLines [""]
  let expectations ← orFail "Failed to count expected values" extractionCauses
    (schema.expectations workbook)
  printLines (expectations.map fun e => s!"{e.field}\t{e.sheet}\t{e.count}")

def sheetLine (i : Nat) (s : Sheet) : String :=
  let range := (s.cells.usedRange?.map Cell.Range.text).getD "empty"
  s!"{i}\t{s.name}\t{range}\t{s.cells.size} cells"

def listSheets (files : Files m) (inputs : List String) (delimiter : Char) : Session m Unit := do
  let workbook ← loadInputs files inputs delimiter
  printLines (workbook.sheets.mapIdx sheetLine)

def execute (files : Files m) : Command → Session m Unit
  | .extract request => extract files request
  | .check schema inputs delimiter => check files schema inputs delimiter
  | .sheets inputs delimiter => listSheets files inputs delimiter

def usage : String :=
  "Usage: sheetrecords [-v] <COMMAND>\n\n" ++
    "Commands:\n" ++
    "  extract -c <CONFIG> [-f csv|json] [-l <LIMIT>] [-o <OUTPUT>] [-d <DELIMITER>] " ++
    "[--null <TEXT>] <INPUTS>...\n" ++
    "  check -c <CONFIG> [-d <DELIMITER>] [INPUTS]...\n" ++
    "  sheets [-d <DELIMITER>] <INPUTS>...\n"

def versionLine : String := "sheetrecords 0.1.0\n"

def run (files : Files m) (args : List String) : m Outcome := do
  match parseArguments args with
  | .error .misuse => return { output := [], diagnostics := usage, status := 2 }
  | .error .help => return { output := Text.Utf8.encode usage, diagnostics := "", status := 0 }
  | .error .version =>
    return { output := Text.Utf8.encode versionLine, diagnostics := "", status := 0 }
  | .ok command =>
    match ← (execute files command).run.run ⟨[], ""⟩ with
    | (.ok (), printed) => return { printed with status := 0 }
    | (.error failure, printed) =>
      return { printed with
        diagnostics := printed.diagnostics ++ failure.report
        status := 1 }

end

end SheetRecords.CommandLine
