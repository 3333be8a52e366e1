import SheetRecords.Text.GraphicTables
import SheetRecords.Text.Lowercase

/-!
# Texts shown in diagnostics

`showQuoted` puts a text between double quotes so that every character of it can be seen: quotes and
backslashes are escaped, the usual controls are written with a letter, and other characters without
a picture of their own, or which join the one before, by their code point.
-/

namespace SheetRecords.Text

def backQuoted (s : String) : String :=
  "\x60" ++ s ++ "\x60"

/-- The hexadecimal digits of a number, in lower case. -/
def hexDigits (n : Nat) : List Char :=
  Nat.toDigits 16 n

/-- Whether a character can be seen standing alone. -/
def isGraphic (c : Char) : Bool :=
  !inRanges nonGraphic c.toNat && !inRanges extending c.toNat

def showChar (c : Char) : List Char :=
  match c with
  | '\x00' => ['\\', '0']
  | '\t' => ['\\', 't']
  | '\n' => ['\\', 'n']
  | '\r' => ['\\', 'r']
  | '"' => ['\\', '"']
  | '\\' => ['\\', '\\']
  | _ => if isGraphic c then [c] else "\\u\x7b".toList ++ hexDigits c.toNat ++ ['\x7d']

def showQuoted (s : String) : String :=
  String.ofList ('"' :: s.toList.flatMap showChar ++ ['"'])

end SheetRecords.Text
