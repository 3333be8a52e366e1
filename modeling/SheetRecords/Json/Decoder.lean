import SheetRecords.Cell.Error
import SheetRecords.Json.Printer
import SheetRecords.Text.Quoted

/-!
# Reading values out of documents

A `Decoder` takes a value out of a tree or says what is wrong with it.  Decoders go through a tree
from left to right, so of several faults the first one of the text is reported; that an object lacks
a field shows at its end only.  `record` decodes an object with a fixed set of fields, which may
also be written as the array of its fields in their order.
-/

namespace SheetRecords.Json

/-- Why a document does not say what it should. -/
inductive DecodeError where
  /-- The text is not JSON. -/
  | malformed (e : NotationError)
  /-- A value of another kind is there. -/
  | kind (found : String) (expected : String)
  /-- A number is out of range. -/
  | range (found : String) (expected : String)
  /-- An array that stands for a record is too short. -/
  | length (found : Nat) (expected : String)
  | missingField (name : String)
  | duplicateField (name : String)
  | unknownField (name : String) (expected : List String)
  /-- A text is none of the words expected. -/
  | unknownWord (word : String) (expected : List String)
  /-- A value is none of the forms of a type. -/
  | noForm (type : String)
  /-- A text is not the reference it should be. -/
  | reference (cause : Cell.ReferenceError)
  deriving DecidableEq, Repr

/-- A choice of names, each between back quotes. -/
def choice (names : List String) : String :=
  match names.map Text.backQuoted with
  | [] => ""
  | [a] => a
  | [a, b] => a ++ " or " ++ b
  | marked => "one of " ++ ", ".intercalate marked

/-- The wording of a `DecodeError`. -/
def DecodeError.message : DecodeError → String
  | .malformed e => e.message
  | .kind found expected => s!"invalid type: {found}, expected {expected}"
  | .range found expected => s!"invalid value: {found}, expected {expected}"
  | .length found expected => s!"invalid length {found}, expected {expected}"
  | .missingField name => s!"missing field {Text.backQuoted name}"
  | .duplicateField name => s!"duplicate field {Text.backQuoted name}"
  | .unknownField name expected =>
    s!"unknown field {Text.backQuoted name}, expected {choice expected}"
  | .unknownWord word expected =>
    s!"unknown variant {Text.backQuoted word}, expected {choice expected}"
  | .noForm type => s!"data did not match any variant of untagged enum {type}"
  | .reference cause => cause.message

/-- The wording of a value in an error. -/
def Tree.found : Tree → String
  | .null => "null"
  | .boolean b => "boolean " ++ Text.backQuoted (if b then "true" else "false")
  | .number (.float x) => "floating point " ++ Text.backQuoted (Number.float x).text
  | .number n => "integer " ++ Text.backQuoted n.text
  | .text s => "string " ++ Text.showQuoted s
  | .array _ _ => "sequence"
  | .object _ _ => "map"
  | .malformed _ => ""

abbrev Decoder (α : Type) := Tree → Except DecodeError α

/-- The error for a tree of another kind than expected. -/
def Tree.mismatch (t : Tree) (expected : String) : DecodeError :=
  match t with
  | .malformed e => .malformed e
  | t => .kind t.found expected

namespace Decoder

def text : Decoder String
  | .text s => .ok s
  | t => .error (t.mismatch "a string")

def boolean : Decoder Bool
  | .boolean b => .ok b
  | t => .error (t.mismatch "a boolean")

/-- A natural number of so many bits.  `type` names its type in errors. -/
def natural (bits : Nat) (type : String) : Decoder Nat
  | .number (.natural n) =>
    if n < Nat.pow 2 bits then .ok n else .error (.range (Tree.number (.natural n)).found type)
  | .number (.negative n) => .error (.range (Tree.number (.negative n)).found type)
  | t => .error (t.mismatch type)

/-- A value or `null`. -/
def optional {α : Type} (decode : Decoder α) : Decoder (Option α)
  | .null => .ok none
  | t => some <$> decode t

def items {α : Type} (decode : Decoder α) : Decoder (List α)
  | .array items broken => do
    let values ← items.mapM decode
    match broken with
    | none => return values
    | some e => throw (.malformed e)
  | t => .error (t.mismatch "a sequence")

def reference {α : Type} (read : String → Except Cell.ReferenceError α) : Decoder α := fun t => do
  (read (← text t)).mapError .reference

/-- One of some words, written as a text, or as an object with the word for its only key and `null`
for its value.  A value of another kind or an object without a key counts as none at all. -/
def word {α : Type} (words : List (String × α)) : Decoder α
  | .text s => find s
  | .object ((s, value) :: rest) broken => do
    let a ← find s
    match value, rest, broken with
    | .null, [], none => return a
    | .null, [], some .endInObject => throw (.malformed .endInObject)
    | .null, _, _ => throw (.malformed .noValue)
    | t, _, _ => throw (t.mismatch "unit")
  | .object [] broken => .error (.malformed (broken.getD .noValue))
  | .malformed e => .error (.malformed (if e.isInScalar then .noValue else e))
  | _ => .error (.malformed .noValue)
where
  /-- The value of a word. -/
  find (s : String) : Except DecodeError α :=
    match words.lookup s with
    | some a => .ok a
    | none => .error (.unknownWord s (words.map (·.1)))

/-- Decodes the members of an object one after the other, and gives the names met. -/
def members {α : Type} (names : List String) (set : String → Tree → α → Except DecodeError α) :
    List String → α → List (String × Tree) → Except DecodeError (List String × α)
  | met, a, [] => .ok (met, a)
  | met, a, (name, t) :: rest =>
    if !names.contains name then .error (.unknownField name names)
    else if met.contains name then .error (.duplicateField name)
    else do members names set (name :: met) (← set name t a) rest

/-- Decodes the items of an array as the fields of the given names, and gives the items that are
left. -/
def positions {α : Type} (set : String → Tree → α → Except DecodeError α) :
    List String → α → List Tree → Except DecodeError (α × List Tree)
  | name :: names, a, t :: rest => do positions set names (← set name t a) rest
  | _, a, rest => .ok (a, rest)

/-- What is wrong with the end of an array that holds a value for every field of a record. -/
def excess? : List Tree → Option NotationError → Option NotationError
  | [], none => none
  | [], some .endInArray => some .endInArray
  | [.malformed .trailingComma], _ => some .trailingComma
  | _, _ => some .trailingCharacters

/-- A record.  `names` are its fields, of which the first `required` ones must be there, `initial`
is the record without any field, and `set` decodes one field. -/
def record {α : Type} (type : String) (names : List String) (required : Nat) (initial : α)
    (set : String → Tree → α → Except DecodeError α) : Decoder α
  | .object ms broken => do
    let (met, a) ← members names set [] initial ms
    match broken, (names.take required).find? (!met.contains ·) with
    | some e, _ => throw (.malformed e)
    | none, some name => throw (.missingField name)
    | none, none => return a
  | .array ts broken => do
    let (a, rest) ← positions set names initial ts
    let error? := if ts.length < names.length then broken else excess? rest broken
    match error? with
    | some e => throw (.malformed e)
    | none =>
      if ts.length < required then
        throw (.length ts.length s!"struct {type} with {names.length} elements")
      return a
  | t => .error (t.mismatch ("struct " ++ type))

def run {α : Type} (decode : Decoder α) (bytes : List UInt8) : Except DecodeError α := do
  let document := parse bytes
  let a ← decode document.root
  match document.after with
  | none => return a
  | some e => throw (.malformed e)

end Decoder

end SheetRecords.Json
