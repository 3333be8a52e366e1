import SheetRecords.Cell.Error

/-!
# Column letters

The columns `0`, `1`, …, `25`, `26`, … are written `A`, `B`, …, `Z`, `AA`, …: the positive numbers
in bijective base 26.  `columnLetters` writes a column and `columnOfLetters` reads one, in either
case of the letters and up to `columnLimit`.
-/

namespace SheetRecords.Cell

/-- The letters of the number `n` in bijective base 26, none for `0`. -/
def bijectiveLetters : Nat → List Char
  | 0 => []
  | n + 1 => bijectiveLetters (n / 26) ++ [Char.ofNat ('A'.toNat + n % 26)]

def columnLetters (column : Nat) : String :=
  String.ofList (bijectiveLetters (column + 1))

/-- The value of an ASCII letter as a digit: `A` and `a` are `1`, `Z` and `z` are `26`. -/
def letterValue (c : Char) : Nat :=
  c.toUpper.toNat - 'A'.toNat + 1

/-- Reads letters as digits in bijective base 26 after the digits already read as `n`, and stops at
the first number beyond `columnLimit`. -/
def readLetters (n : Nat) : List Char → Except ReferenceError Nat
  | [] => .ok n
  | c :: rest =>
    if c.isAlpha then
      let next := n * 26 + letterValue c
      if columnLimit < next then .error (.outside (.column (next - 1))) else readLetters next rest
    else
      .error (.notALetter c)

def columnOfLetters (letters : List Char) : Except ReferenceError Nat :=
  match letters with
  | [] => .error .noLetters
  | _ :: _ => (· - 1) <$> readLetters 0 letters

end SheetRecords.Cell
