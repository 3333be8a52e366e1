import Mathlib.Data.List.Range
import SheetRecords.Cell.Range

/-!
# The cells of a range

The cells of a range are found by counting and dividing.  They are those of one row after the other,
each from left to right (`Range.cells_eq_rowByRow`).
-/

namespace SheetRecords.Cell.Range

/-- The cells of the rows of a range from top to bottom, each row from left to right. -/
def rowByRow (r : Range) : List Address :=
  (List.range' r.first.row r.height).flatMap fun row =>
    (List.range' r.first.column r.width).map fun column => ⟨row, column⟩

theorem width_pos (r : Range) : 0 < r.width :=
  Nat.succ_pos _

/-- The cells of one row, by their places. -/
theorem map_cell_row (r : Range) (i : Nat) :
    (List.range r.width).map (fun j => r.cell (i * r.width + j)) =
      (List.range' r.first.column r.width).map fun column => ⟨r.first.row + i, column⟩ := by
  rw [List.range'_eq_map_range, List.map_map]
  refine List.map_congr_left ?_
  intro j hj
  have hj : j < r.width := List.mem_range.mp hj
  have hdiv : (i * r.width + j) / r.width = i := by
    rw [Nat.mul_comm, Nat.mul_add_div r.width_pos, Nat.div_eq_of_lt hj, Nat.add_zero]
  have hmod : (i * r.width + j) % r.width = j := by
    rw [Nat.mul_comm, Nat.mul_add_mod, Nat.mod_eq_of_lt hj]
  rw [cell, hdiv, hmod]
  rfl

/-- **The cells of a range** come row by row. -/
theorem cells_eq_rowByRow (r : Range) : r.cells = r.rowByRow := by
  -- The first rows are the cells at the first places.
  have hrows : ∀ n, (List.range (n * r.width)).map r.cell =
      (List.range' r.first.row n).flatMap fun row =>
        (List.range' r.first.column r.width).map fun column => ⟨row, column⟩ := by
    intro n
    induction n with
    | zero => simp
    | succ n ih =>
      rw [Nat.succ_mul, List.range_add, List.map_append, ih, List.map_map, List.range'_concat,
        List.flatMap_append, List.flatMap_singleton, Nat.one_mul, ← map_cell_row]
      rfl
  rw [cells, take, Nat.min_self]
  exact hrows r.height

end SheetRecords.Cell.Range
