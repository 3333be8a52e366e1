import SheetRecords.Delimited.Basic

/-!
# Writing delimited text

`writeRecords` writes each record on a line of its own and puts quotes around the fields that need
them.  A record whose line would be empty is written as two quotes, as empty lines hold no records.
-/

namespace SheetRecords.Delimited

/-- Whether a field has to stand between quotes. -/
def needsQuotes (d : Dialect) (field : List UInt8) : Bool :=
  field.any fun b => b == d.delimiter || b == d.quote || endsRecord b

def writeQuotedByte (d : Dialect) (b : UInt8) : List UInt8 :=
  if b = d.quote then [b, b] else [b]

def writeField (d : Dialect) (field : List UInt8) : List UInt8 :=
  if needsQuotes d field then d.quote :: field.flatMap (writeQuotedByte d) ++ [d.quote] else field

/-- A record without the end of its line. -/
def writeFields (d : Dialect) (fields : List (List UInt8)) : List UInt8 :=
  match [d.delimiter].intercalate (fields.map (writeField d)) with
  | [] => [d.quote, d.quote]
  | line => line

def writeRecords (d : Dialect) (records : List (List (List UInt8))) : List UInt8 :=
  records.flatMap fun fields => writeFields d fields ++ [lineFeed]

end SheetRecords.Delimited
