/-!
# Delimited text

Delimited text holds records on lines of their own, with a delimiter between the fields of a record.
A field that holds a delimiter, a quote or the end of a line stands between quotes, and a quote
within it is doubled.  A `Dialect` says which bytes are the delimiter and the quote.
-/

namespace SheetRecords.Delimited

/-- The bytes that give delimited text its form. -/
structure Dialect where
  delimiter : UInt8
  quote : UInt8
  deriving DecidableEq, Repr, Inhabited

def doubleQuote : UInt8 := 0x22

/-- Commas between fields, double quotes around them. -/
def Dialect.standard : Dialect := ⟨0x2C, doubleQuote⟩

def lineFeed : UInt8 := 0x0A

def carriageReturn : UInt8 := 0x0D

def endsRecord (b : UInt8) : Bool :=
  b == lineFeed || b == carriageReturn

end SheetRecords.Delimited
