/-!
# Reading numerals

A numeral is a sign, digits with or without a point among them and an exponent
(`Numeral.parse?`), and stands for the float nearest to its value (`Numeral.toFloat`).  The words
`inf`, `infinity` and `nan` are read in either case (`readWord?`).
-/

namespace SheetRecords.Decimal

/-- The parts of a numeral. -/
structure Numeral where
  isNegative : Bool
  /-- The digits before the point. -/
  whole : List Char
  /-- The digits after the point. -/
  fraction : List Char
  exponent : Int
  deriving DecidableEq, Repr

/-- Reads an optional sign: whether it is a minus sign, and what follows. -/
def readSign : List Char → Bool × List Char
  | '-' :: rest => (true, rest)
  | '+' :: rest => (false, rest)
  | cs => (false, cs)

def readInteger? (cs : List Char) : Option Int :=
  let (isNegative, digits) := readSign cs
  if digits.isEmpty || !digits.all Char.isDigit then none
  else
    let n : Int := Nat.ofDigitChars 10 digits 0
    some (if isNegative then -n else n)

/-- Reads an optional point with the digits behind it: the digits, and what follows. -/
def readFraction : List Char → List Char × List Char
  | '.' :: rest => (rest.takeWhile Char.isDigit, rest.dropWhile Char.isDigit)
  | cs => ([], cs)

/-- Reads an exponent, or nothing for the exponent `0`. -/
def readExponent? : List Char → Option Int
  | [] => some 0
  | e :: rest => if e = 'e' || e = 'E' then readInteger? rest else none

/-- Reads digits with or without a point, at least one digit in all, and an exponent or none. -/
def Numeral.parse? (cs : List Char) : Option Numeral := do
  let (isNegative, cs) := readSign cs
  let whole := cs.takeWhile Char.isDigit
  let (fraction, rest) := readFraction (cs.dropWhile Char.isDigit)
  guard (!(whole.isEmpty && fraction.isEmpty))
  return ⟨isNegative, whole, fraction, ← readExponent? rest⟩

/-- The float nearest to `digits * 10 ^ exponent`. -/
def nearestFloat (digits : Nat) (exponent : Int) : Float :=
  -- Values from `10 ^ 310` on are infinite and values below `10 ^ -330` zero, whatever the digits.
  let size : Int := (toString digits).length
  if digits = 0 || size + exponent < -330 then 0
  else if 310 < size + exponent then 1 / 0
  else Float.ofScientific digits (decide (exponent < 0)) exponent.natAbs

/-- The float nearest to the value of a numeral. -/
def Numeral.toFloat (n : Numeral) : Float :=
  let digits := Nat.ofDigitChars 10 (n.whole ++ n.fraction) 0
  let x := nearestFloat digits (n.exponent - n.fraction.length)
  if n.isNegative then -x else x

/-- Reads the word for an infinity or for `NaN`, in either case, behind an optional sign. -/
def readWord? (cs : List Char) : Option Float :=
  let (isNegative, word) := readSign cs
  let signed (x : Float) := if isNegative then -x else x
  match String.ofList (word.map Char.toLower) with
  | "inf" | "infinity" => some (signed (1 / 0))
  | "nan" => some (signed (0 / 0))
  | _ => none

/-- Reads a float: a numeral, an infinity or `NaN`. -/
def readFloat? (cs : List Char) : Option Float :=
  match Numeral.parse? cs with
  | some n => some n.toFloat
  | none => readWord? cs

end SheetRecords.Decimal
