import SheetRecords.Delimited.Writer
import SheetRecords.Record.Basic
import SheetRecords.Text.Utf8

/-!
# Writing records

A `RecordFormat` writes records either as delimited text, after a line with the names of the fields,
or as JSON, one object a line.
-/

namespace SheetRecords

open Cell

/-- How records are written. -/
inductive RecordFormat where
  /-- Delimited text, with a text that stands for values that are absent. -/
  | delimited (delimiter : UInt8) (absent : String)
  | json
  deriving DecidableEq, Repr

/-- The dialect of delimited text that is written with a delimiter. -/
def outputDialect (delimiter : UInt8) : Delimited.Dialect :=
  ⟨delimiter, Delimited.doubleQuote⟩

def valueText (absent : String) (v : Option Value) : String :=
  (v.map Value.display).getD absent

def Record.texts (absent : String) (r : Record) : List String :=
  r.values.map (valueText absent)

def writeDelimited (delimiter : UInt8) (absent : String) (names : List String)
    (records : List Record) : List UInt8 :=
  Delimited.writeRecords (outputDialect delimiter)
    ((names :: records.map (Record.texts absent)).map (List.map Text.Utf8.encode))

/-- Records as JSON, one object a line. -/
def writeJsonLines (records : List Record) : List UInt8 :=
  records.flatMap fun r => Text.Utf8.encode (r.toTree.render ++ "\n")

/-- The records of fields with the given names, as text. -/
def RecordFormat.write (f : RecordFormat) (names : List String) (records : List Record) :
    List UInt8 :=
  match f with
  | .delimited delimiter absent => writeDelimited delimiter absent names records
  | .json => writeJsonLines records

end SheetRecords
