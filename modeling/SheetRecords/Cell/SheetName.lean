import SheetRecords.Cell.Error
import SheetRecords.Text.Blank

/-!
# Sheet names in references

A reference may begin with a sheet name and an exclamation mark.  A name that is not made of ASCII
letters, ASCII digits, underscores and full stops is put between single quotes, with the quotes
inside it doubled (`quoteSheet`); any name may be written that way.  `splitSheet` separates the name
from what follows it.
-/

namespace SheetRecords.Cell

abbrev nameQuote : Char := '\u0027'

/-- Whether a character may stand in a sheet name without quotes around the name. -/
def isPlainNameChar (c : Char) : Bool :=
  c.isAlphanum || c == '_' || c == '.'

def doubleQuotes (name : List Char) : List Char :=
  name.flatMap fun c => if c = nameQuote then [nameQuote, nameQuote] else [c]

/-- The sheet name as it stands in a reference. -/
def quoteSheet (name : String) : String :=
  if !name.isEmpty && name.toList.all isPlainNameChar then name
  else String.ofList (nameQuote :: doubleQuotes name.toList ++ [nameQuote])

/-- The name before the first quote that is not doubled, and the text after that quote. -/
def readQuoted : List Char → Option (List Char × List Char)
  | [] => none
  | '\u0027' :: '\u0027' :: rest =>
    (readQuoted rest).map fun (name, after) => (nameQuote :: name, after)
  | c :: rest =>
    if c = nameQuote then some ([], rest)
    else (readQuoted rest).map fun (name, after) => (c :: name, after)

/-- The text before and after the last exclamation mark. -/
def splitAtLastMark : List Char → Option (List Char × List Char)
  | [] => none
  | c :: rest =>
    match splitAtLastMark rest with
    | some (before, after) => some (c :: before, after)
    | none => if c = '!' then some ([], rest) else none

/-- Separates the sheet name of a reference, if it has one, from the rest. -/
def splitSheet (s : String) : Except ReferenceError (Option String × String) :=
  let cs := Text.trimBlanks s.toList
  let text := String.ofList cs
  match cs with
  | '\u0027' :: quoted =>
    match readQuoted quoted with
    | none => .error (.openQuote text)
    | some (name, '!' :: rest) =>
      if name.isEmpty then .error (.noMark text)
      else .ok (some (String.ofList name), String.ofList rest)
    | some _ => .error (.noMark text)
  | _ =>
    match splitAtLastMark cs with
    | none => .ok (none, text)
    | some ([], _) => .error (.emptySheet text)
    | some (name, rest) => .ok (some (String.ofList name), String.ofList rest)

end SheetRecords.Cell
