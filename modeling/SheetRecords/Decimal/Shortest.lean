import SheetRecords.Decimal.Binary

/-!
# The fewest digits that read back

`shortest tie m` is the decimal with the fewest digits that reads back as the float `m`, and of
those the one nearest to `m`.  The decimals with one digit, then those with two digits and so on
form ever finer grids; on each grid only the neighbours of `m` need a look, and the first grid with
a neighbour that reads back is the one sought (`Grid.choose`).  At most 17 digits are ever needed.
-/

namespace SheetRecords.Decimal

/-- The number `digits * 10 ^ exponent`. -/
structure Scaled where
  digits : Nat
  exponent : Int
  deriving DecidableEq, Repr

/-- Which of two equally near decimals is taken. -/
inductive Tie where
  /-- The greater one. -/
  | up
  /-- The one whose last digit is even. -/
  | even
  deriving DecidableEq, Repr

/-- Moves the trailing zeros of the digits into the exponent. -/
def Scaled.normalize (d : Scaled) : Scaled :=
  if h : d.digits ≠ 0 ∧ d.digits % 10 = 0 then
    Scaled.normalize ⟨d.digits / 10, d.exponent + 1⟩
  else d
termination_by d.digits
decreasing_by omega

/-- The grid of the multiples of `10 ^ exponent`, over the quarters of a magnitude: a multiple `c`
is to be compared with `q` quarters as `c * step` with `q * unit`. -/
structure Grid where
  exponent : Int
  step : Nat
  unit : Nat

namespace Grid

/-- The grid of the multiples of `10 ^ exponent` over the quarters of `m`. -/
def forQuarters (m : Magnitude) (exponent : Int) : Grid where
  exponent := exponent
  step := Nat.pow 10 exponent.toNat * Nat.pow 2 (2 - m.exponent).toNat
  unit := Nat.pow 2 (m.exponent - 2).toNat * Nat.pow 10 (-exponent).toNat

/-- Whether the multiple `c` reads back as `m`. -/
def readsBack (g : Grid) (m : Magnitude) (c : Nat) : Bool :=
  let at_ := c * g.step
  if m.includesMidpoints then m.lower * g.unit ≤ at_ && at_ ≤ m.upper * g.unit
  else m.lower * g.unit < at_ && at_ < m.upper * g.unit

/-- The greatest multiple that is not above `m`. -/
def below (g : Grid) (m : Magnitude) : Nat :=
  m.value * g.unit / g.step

/-- Of the neighbours of `m` that read back, the nearer one. -/
def choose (g : Grid) (tie : Tie) (m : Magnitude) : Option Nat :=
  let c := g.below m
  match g.readsBack m c, g.readsBack m (c + 1) with
  | false, false => none
  | true, false => some c
  | false, true => some (c + 1)
  | true, true =>
    match compare (2 * (m.value * g.unit)) ((2 * c + 1) * g.step) with
    | .lt => some c
    | .gt => some (c + 1)
    | .eq => some (if tie = .even && c % 2 = 0 then c else c + 1)

end Grid

/-- Whether `10 ^ exponent` is at most `m`. -/
def powerAtMost (m : Magnitude) (exponent : Int) : Bool :=
  let g := Grid.forQuarters m exponent
  g.step ≤ m.value * g.unit

/-- The power of ten of the leading digit of a magnitude other than `0`. -/
def leadingExponent (m : Magnitude) : Int :=
  -- `0.30103` is `log 2` to a base of `10`, near enough to be off by one at most.
  let guess := ((m.significand.log2 : Int) + m.exponent) * 30103 / 100000
  if powerAtMost m (guess + 1) then guess + 1
  else if powerAtMost m guess then guess
  else guess - 1

/-- Tries the grid of `10 ^ exponent` and then finer ones, with `tries` grids after the first. -/
def firstGrid (tie : Tie) (m : Magnitude) (exponent : Int) (tries : Nat) : Scaled :=
  let g := Grid.forQuarters m exponent
  match g.choose tie m, tries with
  | some c, _ => ⟨c, exponent⟩
  | none, 0 => ⟨g.below m, exponent⟩
  | none, tries + 1 => firstGrid tie m (exponent - 1) tries

/-- The shortest decimal that reads back as `m`, the nearest one of that length. -/
def shortest (tie : Tie) (m : Magnitude) : Scaled :=
  if m.significand = 0 then ⟨0, 0⟩
  else (firstGrid tie m (leadingExponent m) 16).normalize

end SheetRecords.Decimal
