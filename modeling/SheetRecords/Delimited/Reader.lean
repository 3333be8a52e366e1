import SheetRecords.Delimited.Basic

/-!
# Reading delimited text

`readRecords` takes bytes apart into records of fields, and knows where in the text each record
begins.  Any bytes can be read: quotes count only at the beginning of a field, text after a closing
quote belongs to the field, and a quote that is left open ends with the text.  Empty lines hold no
records, and records may differ in length.

The text is read byte by byte (`Reader.step`); what a byte means depends on the `Mode`.
-/

namespace SheetRecords.Delimited

/-- A place in a text. -/
structure TextPosition where
  /-- The number of line feeds before it, and one. -/
  line : Nat
  /-- The number of bytes before it. -/
  byte : Nat
  deriving DecidableEq, Repr, Inhabited

def TextPosition.after (p : TextPosition) (b : UInt8) : TextPosition :=
  ⟨if b = lineFeed then p.line + 1 else p.line, p.byte + 1⟩

/-- A record as it stands in the text. -/
structure RawRecord where
  /-- The end of the record before, or the beginning of the text. -/
  start : TextPosition
  fields : List (List UInt8)
  deriving DecidableEq, Repr, Inhabited

/-- Where in a record the reader is. -/
inductive Mode where
  | recordStart
  | fieldStart
  /-- Inside a field, not between quotes. -/
  | inField
  | inQuotes
  /-- After a quote between quotes: it closes the field, or is the first of two. -/
  | afterQuote
  deriving DecidableEq, Repr, Inhabited

/-- How far a text has been read. -/
structure Reader where
  mode : Mode
  position : TextPosition
  /-- Where the open record begins. -/
  start : TextPosition
  /-- The open field, in reverse. -/
  field : List UInt8
  /-- The fields of the open record, in reverse. -/
  fields : List (List UInt8)
  /-- The records, in reverse. -/
  records : List RawRecord
  deriving DecidableEq, Repr, Inhabited

namespace Reader

/-- Before the text after so many bytes that count for nothing. -/
def begin (skipped : Nat) : Reader :=
  ⟨.recordStart, ⟨1, skipped⟩, ⟨1, 0⟩, [], [], []⟩

/-- The byte belongs to the open field. -/
def keep (r : Reader) (b : UInt8) (mode : Mode) : Reader :=
  { r with field := b :: r.field, mode := mode }

def endField (r : Reader) : Reader :=
  { r with field := [], fields := r.field.reverse :: r.fields, mode := .fieldStart }

def endRecord (r : Reader) : Reader :=
  let fields := (r.field.reverse :: r.fields).reverse
  { r with
    field := []
    fields := []
    records := ⟨r.start, fields⟩ :: r.records
    start := r.position
    mode := .recordStart }

/-- Reads a byte that may separate fields or records, and otherwise belongs to the open field. -/
def readPlain (d : Dialect) (r : Reader) (b : UInt8) : Reader :=
  if b = d.delimiter then r.endField
  else if endsRecord b then r.endRecord
  else r.keep b .inField

def readFirst (d : Dialect) (r : Reader) (b : UInt8) : Reader :=
  if b = d.quote then { r with mode := .inQuotes } else r.readPlain d b

/-- Reads one byte. -/
def step (d : Dialect) (r : Reader) (b : UInt8) : Reader :=
  let r := { r with position := r.position.after b }
  match r.mode with
  | .recordStart => if endsRecord b then r else r.readFirst d b
  | .fieldStart => r.readFirst d b
  | .inField => r.readPlain d b
  | .inQuotes => if b = d.quote then { r with mode := .afterQuote } else r.keep b .inQuotes
  | .afterQuote => if b = d.quote then r.keep b .inQuotes else r.readPlain d b

/-- The text ends, and the open record with it. -/
def finish (r : Reader) : Reader :=
  if r.mode = .recordStart then r else r.endRecord

end Reader

/-- The mark at the beginning of a text that says it is UTF-8. -/
def byteOrderMark : List UInt8 := [0xEF, 0xBB, 0xBF]

def readRecords (d : Dialect) (bytes : List UInt8) : List RawRecord :=
  let skipped := if byteOrderMark.isPrefixOf bytes then byteOrderMark.length else 0
  let read := (bytes.drop skipped).foldl (Reader.step d) (Reader.begin skipped)
  read.finish.records.reverse

end SheetRecords.Delimited
