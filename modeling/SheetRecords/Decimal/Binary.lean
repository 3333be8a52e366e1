/-!
# Floats as integers times powers of two

`Magnitude.ofFloat?` reads the bits of a finite float as `significand * 2 ^ exponent`.  A decimal
reads back as that float exactly if it lies between `lower` and `upper`, the midpoints to the
neighbouring floats, the ends included when the significand is even.  All three are counted in
quarters of `2 ^ exponent`, so that they are natural numbers.
-/

namespace SheetRecords.Decimal

/-- The absolute value of a finite float, as `significand * 2 ^ exponent`. -/
structure Magnitude where
  significand : Nat
  exponent : Int
  /-- The float is the least one of its power of two, so that the float below it is only half as far
  away as the float above it. -/
  isLeast : Bool
  deriving DecidableEq, Repr

namespace Magnitude

/-- The absolute value of a float, `none` for `NaN` and the infinities. -/
def ofFloat? (x : Float) : Option Magnitude :=
  let bits := x.toBits.toNat
  let field : Nat := bits / Nat.pow 2 52 % Nat.pow 2 11
  let fraction : Nat := bits % Nat.pow 2 52
  if field = Nat.pow 2 11 - 1 then none
  else if field = 0 then some ⟨fraction, -1074, false⟩
  else some ⟨Nat.pow 2 52 + fraction, (field : Int) - 1075, fraction = 0 ∧ 1 < field⟩

/-- The value itself, in quarters. -/
def value (m : Magnitude) : Nat :=
  4 * m.significand

/-- The midpoint to the next float below, in quarters. -/
def lower (m : Magnitude) : Nat :=
  m.value - if m.isLeast then 1 else 2

/-- The midpoint to the next float above, in quarters. -/
def upper (m : Magnitude) : Nat :=
  m.value + 2

/-- Whether the midpoints read back as this float: a tie goes to the even significand. -/
def includesMidpoints (m : Magnitude) : Bool :=
  m.significand % 2 = 0

end Magnitude

/-- Whether the float is negative, `-0` and a `NaN` with the sign bit included. -/
def isNegative (x : Float) : Bool :=
  Nat.pow 2 63 ≤ x.toBits.toNat

end SheetRecords.Decimal
