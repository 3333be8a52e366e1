import SheetRecords.Decimal.Shortest

/-!
# Laying out decimals

A `Layout` holds the decisions of a number format: which leading exponents are written positionally,
whether a whole number gets a fraction of `.0`, which of two equally near decimals is taken, and the
texts of the values that are no numbers.  The digits are the fewest that read back.
-/

namespace SheetRecords.Decimal

/-- The decisions of a number format. -/
structure Layout where
  /-- Which of two equally near decimals is taken. -/
  tie : Tie
  /-- Whether a number whose leading digit has this power of ten is written without an exponent. -/
  isPositional : Int → Bool
  /-- What follows the digits of a whole number that is written without an exponent. -/
  wholeEnd : String
  notANumber : String
  infinity : String
  negativeInfinity : String

/-- A number without an exponent, in decimal digits with a point where it is needed. -/
def positional (wholeEnd : String) (d : Scaled) : String :=
  let digits := toString d.digits
  if 0 ≤ d.exponent then
    digits ++ String.ofList (List.replicate d.exponent.toNat '0') ++ wholeEnd
  else
    let places := (-d.exponent).toNat
    if places < digits.length then
      let cs := digits.toList
      let whole := cs.length - places
      String.ofList (cs.take whole) ++ "." ++ String.ofList (cs.drop whole)
    else
      "0." ++ String.ofList (List.replicate (places - digits.length) '0') ++ digits

def Scaled.leading (d : Scaled) : Int :=
  d.exponent + (toString d.digits).length - 1

/-- A number with one digit before the point and an exponent with its sign. -/
def scientific (d : Scaled) : String :=
  let digits := (toString d.digits).toList
  let exponent := d.leading
  let sign := if exponent < 0 then "-" else "+"
  let fraction := match digits.drop 1 with
    | [] => ""
    | rest => "." ++ String.ofList rest
  String.ofList (digits.take 1) ++ fraction ++ "e" ++ sign ++ toString exponent.natAbs

namespace Layout

def text (l : Layout) (x : Float) : String :=
  match Magnitude.ofFloat? x with
  | none =>
    if x.isNaN then l.notANumber else if isNegative x then l.negativeInfinity else l.infinity
  | some m =>
    let d := shortest l.tie m
    let sign := if isNegative x then "-" else ""
    sign ++ if l.isPositional d.leading then positional l.wholeEnd d else scientific d

/-- Numbers for people: never an exponent, and no fraction on a whole number. -/
def plain : Layout where
  tie := .up
  isPositional _ := true
  wholeEnd := ""
  notANumber := "NaN"
  infinity := "inf"
  negativeInfinity := "-inf"

/-- Numbers in documents: always marked as a float, with an exponent below `10 ^ -5` and from
`10 ^ 16` on, and `null` for what is no number. -/
def document : Layout where
  tie := .even
  isPositional e := decide (-5 ≤ e) && decide (e ≤ 15)
  wholeEnd := ".0"
  notANumber := "null"
  infinity := "null"
  negativeInfinity := "null"

end Layout

end SheetRecords.Decimal
