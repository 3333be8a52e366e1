/-!
# Arguments of the command line

`parseArguments` reads the arguments of the program as a `Command`.  Options stand anywhere after
the name of the command.  A long option has its value after an equals sign or in the next argument;
short options may share one argument, and the value of the last one follows at once, after an equals
sign or in the next argument.  After `--` every argument is an input.
-/

namespace SheetRecords.CommandLine

/-- The form in which extracted records are asked for. -/
inductive OutputForm where
  | delimited
  | json
  deriving DecidableEq, Repr

/-- What to extract, and how to write it. -/
structure ExtractRequest where
  schema : String
  inputs : List String
  form : OutputForm
  limit : Option Nat
  output : Option String
  delimiter : Char
  absent : String
  deriving DecidableEq, Repr

/-- What the program is to do. -/
inductive Command where
  /-- Write the records of a schema. -/
  | extract (request : ExtractRequest)
  /-- Tell how the fields of a schema are addressed, and how many values they should have. -/
  | check (schema : String) (inputs : List String) (delimiter : Char)
  /-- List the sheets of the inputs. -/
  | sheets (inputs : List String) (delimiter : Char)
  deriving DecidableEq, Repr

/-- Why there is no command to carry out. -/
inductive Halt where
  /-- The arguments make no command. -/
  | misuse
  | help
  | version
  deriving DecidableEq, Repr

/-! ### Options -/

/-- An option. -/
inductive Switch where
  | schema
  | form
  | limit
  | output
  | delimiter
  | absent
  | verbose
  | help
  | version
  deriving DecidableEq, Repr

namespace Switch

def letter? : Switch → Option Char
  | .schema => some 'c'
  | .form => some 'f'
  | .limit => some 'l'
  | .output => some 'o'
  | .delimiter => some 'd'
  | .absent => none
  | .verbose => some 'v'
  | .help => some 'h'
  | .version => some 'V'

def word : Switch → String
  | .schema => "config"
  | .form => "format"
  | .limit => "limit"
  | .output => "output"
  | .delimiter => "delimiter"
  | .absent => "null"
  | .verbose => "verbose"
  | .help => "help"
  | .version => "version"

def hasValue : Switch → Bool
  | .verbose | .help | .version => false
  | _ => true

def common : List Switch := [.verbose, .help]

/-- The options that may stand before a command. -/
def leading : List Switch := .version :: common

/-- The options of `extract`. -/
def ofExtract : List Switch :=
  [.schema, .form, .limit, .output, .delimiter, .absent] ++ common

/-- The options of `check`. -/
def ofCheck : List Switch := [.schema, .delimiter] ++ common

/-- The options of `sheets`. -/
def ofSheets : List Switch := .delimiter :: common

end Switch

/-! ### Values -/

/-- A path, which is never empty. -/
def readPath? (s : String) : Option String :=
  if s.isEmpty then none else some s

/-- A natural number of 64 bits, with or without a plus sign. -/
def readLimit? (s : String) : Option Nat :=
  let digits := match s.toList with
    | '+' :: rest => rest
    | cs => cs
  if digits.isEmpty || !digits.all Char.isDigit then none
  else
    let n := Nat.ofDigitChars 10 digits 0
    if n < Nat.pow 2 64 then some n else none

def readChar? (s : String) : Option Char :=
  match s.toList with
  | [c] => some c
  | _ => none

def readForm? : String → Option OutputForm
  | "csv" => some .delimited
  | "json" => some .json
  | _ => none

/-- What the arguments read so far have given. -/
structure Given where
  schema : Option String
  form : Option OutputForm
  limit : Option Nat
  output : Option String
  delimiter : Option Char
  absent : Option String
  /-- The inputs, in reverse. -/
  inputs : List String
  deriving DecidableEq, Repr

namespace Given

/-- Nothing. -/
def nothing : Given := ⟨none, none, none, none, none, none, []⟩

/-- A value that is given for the first time. -/
def once {α : Type} (old new : Option α) : Except Halt (Option α) :=
  match old, new with
  | none, some a => .ok (some a)
  | _, _ => .error .misuse

def set (g : Given) (s : Switch) (value : String) : Except Halt Given :=
  match s with
  | .schema => do return { g with schema := ← once g.schema (readPath? value) }
  | .form => do return { g with form := ← once g.form (readForm? value) }
  | .limit => do return { g with limit := ← once g.limit (readLimit? value) }
  | .output => do return { g with output := ← once g.output (readPath? value) }
  | .delimiter => do return { g with delimiter := ← once g.delimiter (readChar? value) }
  | .absent => do return { g with absent := ← once g.absent (some value) }
  | _ => .error .misuse

/-- An option without a value. -/
def flag (g : Given) : Switch → Except Halt Given
  | .verbose => .ok g
  | .help => .error .help
  | .version => .error .version
  | _ => .error .misuse

def addInput (g : Given) (path : String) : Except Halt Given :=
  match readPath? path with
  | some path => .ok { g with inputs := path :: g.inputs }
  | none => .error .misuse

/-- The value of a part that must be given. -/
def demand {α : Type} (a : Option α) : Except Halt α :=
  match a with
  | some a => .ok a
  | none => .error .misuse

/-- The inputs, of which there must be some. -/
def someInputs (g : Given) : Except Halt (List String) :=
  if g.inputs.isEmpty then .error .misuse else .ok g.inputs.reverse

/-- The delimiter, a comma by default. -/
def delimiterOrComma (g : Given) : Char :=
  g.delimiter.getD ','

end Given

/-! ### Arguments -/

/-- Whether an argument is options and so cannot be the value of the one before it. -/
def isOption (arg : String) : Bool :=
  match arg.toList with
  | '-' :: _ :: _ => true
  | _ => false

/-- Reads letters of options that share an argument.  An option that still needs its value is given.
-/
def readLetters (switches : List Switch) (g : Given) :
    List Char → Except Halt (Given × Option Switch)
  | [] => .ok (g, none)
  | c :: rest =>
    match switches.find? (·.letter? = some c) with
    | none => .error .misuse
    | some s =>
      if s.hasValue then
        match rest with
        | [] => .ok (g, some s)
        | '=' :: value => do return (← g.set s (String.ofList value), none)
        | value => do return (← g.set s (String.ofList value), none)
      else do readLetters switches (← g.flag s) rest

/-- Reads the word of an option, with its value if that is in the same argument.  An option that
still needs its value is given. -/
def readWord (switches : List Switch) (g : Given) (cs : List Char) :
    Except Halt (Given × Option Switch) :=
  match switches.find? (·.word = String.ofList (cs.takeWhile (· != '='))) with
  | none => .error .misuse
  | some s =>
    match s.hasValue, cs.dropWhile (· != '=') with
    | true, [] => .ok (g, some s)
    | true, _ :: value => do return (← g.set s (String.ofList value), none)
    | false, [] => do return (← g.flag s, none)
    | false, _ :: _ => .error .misuse

/-- Reads one argument.  An option that still needs its value is given. -/
def readArgument (switches : List Switch) (g : Given) (arg : String) :
    Except Halt (Given × Option Switch) :=
  match arg.toList with
  | '-' :: '-' :: word => readWord switches g word
  | '-' :: c :: letters => readLetters switches g (c :: letters)
  | _ => do return (← g.addInput arg, none)

/-- Reads arguments after those that gave `g`. -/
def readArguments (switches : List Switch) (g : Given) : List String → Except Halt Given
  | [] => .ok g
  | "--" :: rest => rest.foldlM Given.addInput g
  | arg :: rest =>
    match readArgument switches g arg, rest with
    | .error e, _ => .error e
    | .ok (g, none), rest => readArguments switches g rest
    | .ok (_, some _), [] => .error .misuse
    | .ok (g, some s), value :: rest =>
      if isOption value then .error .misuse
      else
        match g.set s value with
        | .error e => .error e
        | .ok g => readArguments switches g rest

/-- Reads the arguments of `extract`. -/
def parseExtract (args : List String) : Except Halt Command := do
  let g ← readArguments Switch.ofExtract .nothing args
  return .extract {
    schema := ← Given.demand g.schema
    inputs := ← g.someInputs
    form := g.form.getD .delimited
    limit := g.limit
    output := g.output
    delimiter := g.delimiterOrComma
    absent := g.absent.getD "" }

/-- Reads the arguments of `check`. -/
def parseCheck (args : List String) : Except Halt Command := do
  let g ← readArguments Switch.ofCheck .nothing args
  return .check (← Given.demand g.schema) g.inputs.reverse g.delimiterOrComma

/-- Reads the arguments of `sheets`. -/
def parseSheets (args : List String) : Except Halt Command := do
  let g ← readArguments Switch.ofSheets .nothing args
  return .sheets (← g.someInputs) g.delimiterOrComma

def commandNames : List String := ["extract", "check", "sheets", "help"]

def parseArguments : List String → Except Halt Command
  | [] => .error .misuse
  | "extract" :: args => parseExtract args
  | "check" :: args => parseCheck args
  | "sheets" :: args => parseSheets args
  | ["help"] => .error .help
  | ["help", name] => .error (if commandNames.contains name then .help else .misuse)
  | arg :: args =>
    if isOption arg then
      match readArgument Switch.leading .nothing arg with
      | .error e => .error e
      | .ok _ => parseArguments args
    else .error .misuse

end SheetRecords.CommandLine
