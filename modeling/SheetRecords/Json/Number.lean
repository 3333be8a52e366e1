import SheetRecords.Decimal.Layout

/-!
# Numbers of JSON documents

An integer that fits 64 bits is kept as it is, any other number is a float (`Number.ofParts?`).  Its
value is reckoned in two steps, each rounded: the leading digits that fit 64 bits become a float,
which is then multiplied or divided by a power of ten.  A number too great for a float is refused.
-/

namespace SheetRecords.Json

/-- A number of a document. -/
inductive Number where
  /-- A natural number of 64 bits. -/
  | natural (n : Nat)
  /-- The number `-n`, for a positive `n` of 64 bits with sign. -/
  | negative (n : Nat)
  | float (x : Float)
  deriving BEq, Repr

namespace Number

/-- The number as text.  A float that is no number is `null`. -/
def text : Number → String
  | .natural n => toString n
  | .negative n => "-" ++ toString n
  | .float x => Decimal.Layout.document.text x

def toFloat : Number → Float
  | .natural n => Float.ofNat n
  | .negative n => -Float.ofNat n
  | .float x => x

/-- Reads digits after those of `n` for as long as the number fits 64 bits: the number, and the
digits that are left. -/
def readWord (n : Nat) : List Char → Nat × List Char
  | [] => (n, [])
  | c :: rest =>
    let next := Nat.ofDigitChars 10 [c] n
    if next < Nat.pow 2 64 then readWord next rest else (n, c :: rest)

def maxPower : Nat := 308

def power (e : Nat) : Float :=
  Float.ofScientific 1 false e

/-- Divides by a power of ten, one greatest power at a time. -/
def scaleDown (x : Float) (e : Nat) : Float :=
  if e ≤ maxPower then x / power e
  else if x == 0 then x
  else scaleDown (x / power maxPower) (e - maxPower)
termination_by e
decreasing_by simp only [maxPower] at *; omega

/-- Multiplies by a power of ten, unless the product is too great. -/
def scaleUp? (x : Float) (e : Nat) : Option Float :=
  if maxPower < e then if x == 0 then some x else none
  else
    let y := x * power e
    if y.isInf then none else some y

/-- The absolute value of a number with a fraction, an exponent or too many digits. -/
def magnitude? (whole fraction : List Char) (exponent : Int) : Option Float :=
  let (n, droppedWhole) := readWord 0 whole
  let (n, droppedFraction) := readWord n fraction
  let read : Int := fraction.length - droppedFraction.length
  let e := exponent + droppedWhole.length - read
  let x := Float.ofNat n
  if 0 ≤ e then scaleUp? x e.toNat else some (scaleDown x e.natAbs)

/-- The number of a sign, the digits before and after the point, and an exponent if there is one.
`none` is a number too great for a float. -/
def ofParts? (isNegative : Bool) (whole fraction : List Char) (exponent : Option Int) :
    Option Number :=
  let n := Nat.ofDigitChars 10 whole 0
  let signed (x : Float) : Number := .float (if isNegative then -x else x)
  if fraction.isEmpty && exponent.isNone && n < Nat.pow 2 64 then
    if !isNegative then some (.natural n)
    else if 0 < n && n ≤ Nat.pow 2 63 then some (.negative n)
    else some (signed (Float.ofNat n))
  else (magnitude? whole fraction (exponent.getD 0)).map signed

end Number

end SheetRecords.Json
