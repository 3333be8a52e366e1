import Mathlib.Data.List.DropRight
import Mathlib.Tactic.Common
import SheetRecords.Cell.Walk
import SheetRecords.Proofs.Cell.Grammar
import SheetRecords.Proofs.Cell.Range
import SheetRecords.Proofs.Cell.Reference
import SheetRecords.Proofs.Cell.Store

/-!
# Correctness of walking through a range

The cells of a range are those that it contains, in order and each once (`Range.mem_cells_iff`,
`Range.cells_sorted`), and a walk through it gives them one by one and then nothing more
(`Range.walk_spanning`).  Before the `k`-th cell a walk is at `Range.walkAt k`: the row and the
column are those of `k` as a number of two digits, and a call counts `k` on.

All this computes in words.  The cells can be counted if the rows and the columns can
(`Range.CountFits`), and walked through if the row below the last one and the last column have words
(`Range.WalkFits`), and without either there is no result (`Range.cells?_eq`).  Within the limits of
a sheet all numbers on the way have words.
-/

namespace SheetRecords

/-! ### Blanks around a colon -/

namespace Text

theorem dropWhile_append_cons {c : Char} (hc : isBlank c = false) (cs ds : List Char) :
    (cs ++ c :: ds).dropWhile isBlank = cs.dropWhile isBlank ++ c :: ds := by
  rw [List.dropWhile_append]
  split
  · next h =>
    rw [List.isEmpty_iff.mp h, List.dropWhile_cons_of_neg (by simp [hc]), List.nil_append]
  · rfl

/-- Trimming takes the blanks before and after a character that is none. -/
theorem trimBlanks_append_cons {c : Char} (hc : isBlank c = false) (cs ds : List Char) :
    trimBlanks (cs ++ c :: ds) =
      cs.dropWhile isBlank ++ c :: (ds.reverse.dropWhile isBlank).reverse := by
  rw [trimBlanks, dropWhile_append_cons hc, List.reverse_append, List.reverse_cons,
    List.append_assoc, List.singleton_append, dropWhile_append_cons hc]
  simp

/-- The blanks in front may be dropped before. -/
theorem trimBlanks_dropWhile (cs : List Char) :
    trimBlanks (cs.dropWhile isBlank) = trimBlanks cs := by
  rw [trimBlanks, List.dropWhile_idempotent, trimBlanks]

/-- The blanks at the end may be dropped before. -/
theorem trimBlanks_dropWhile_reverse (cs : List Char) :
    trimBlanks (cs.reverse.dropWhile isBlank).reverse = trimBlanks cs := by
  have hblank : ∀ c ∈ (cs.reverse.takeWhile isBlank).reverse, isBlank c = true := by
    intro c hc
    exact List.all_eq_true.mp List.all_takeWhile c (List.mem_reverse.mp hc)
  have hsplit : cs = (cs.reverse.dropWhile isBlank).reverse ++
      (cs.reverse.takeWhile isBlank).reverse := by
    rw [← List.reverse_append, List.takeWhile_append_dropWhile, List.reverse_reverse]
  generalize (cs.reverse.dropWhile isBlank).reverse = kept at hsplit ⊢
  generalize (cs.reverse.takeWhile isBlank).reverse = blanks at hsplit hblank
  subst hsplit
  rw [trimBlanks, trimBlanks, List.dropWhile_append]
  split
  · next h =>
    rw [List.isEmpty_iff.mp h, List.dropWhile_eq_nil_iff.mpr hblank]
  · rw [List.reverse_append, List.dropWhile_append_of_pos (by simpa using hblank)]

end Text

namespace Cell

/-! ### Texts of ranges -/

theorem Address.parse_congr {s t : String}
    (h : Text.trimBlanks s.toList = Text.trimBlanks t.toList) : parse s = parse t := by
  unfold parse
  rw [h]

theorem Address.colon_not_mem_of_parse {s : String} {a : Address} (h : parse s = .ok a) :
    ':' ∉ s.toList := by
  obtain ⟨sign, hsign, p, before, after, hp, hs, hbefore, hafter⟩ := isWritten_of_parse h
  intro hcolon
  simp only [hs, List.mem_append] at hcolon
  rcases hcolon with (hcolon | hcolon) | hcolon
  · exact absurd (hbefore _ hcolon) (by decide)
  · rcases hp.mem_chars hcolon with h | h | h
    · exact absurd h (by decide)
    · exact absurd h (by decide)
    · rcases hsign with rfl | rfl
      · cases h
      · exact absurd (List.mem_singleton.mp h) (by decide)
  · exact absurd (hafter _ hcolon) (by decide)

namespace Range

/-- Two texts with a colon between them are read as a range if both are cells. -/
theorem parse_append_colon {s t : String} {r : Range} :
    parse (s ++ ":" ++ t) = .ok r ↔
      ∃ a b, Address.parse s = .ok a ∧ Address.parse t = .ok b ∧ spanning a b = r := by
  have hcs : Text.trimBlanks (s ++ ":" ++ t).toList =
      s.toList.dropWhile Text.isBlank ++
        ':' :: (t.toList.reverse.dropWhile Text.isBlank).reverse := by
    rw [String.toList_append, String.toList_append, List.append_assoc]
    exact Text.trimBlanks_append_cons (by decide) _ _
  by_cases hcolon : ':' ∈ s.toList.dropWhile Text.isBlank
  · -- The text is taken apart at the first colon, so that another one is left behind it.
    obtain ⟨before, after, hsplit, hbefore⟩ := List.eq_append_cons_of_mem hcolon
    rw [hsplit, List.append_assoc, List.cons_append] at hcs
    rw [parse_of_colon hcs hbefore]
    constructor
    · rintro ⟨a, b, -, hb, -⟩
      exact absurd (Address.colon_not_mem_of_parse hb) (by simp)
    · rintro ⟨a, b, ha, -, -⟩
      exact absurd (List.dropWhile_suffix _ |>.subset hcolon) (Address.colon_not_mem_of_parse ha)
  · have hs : Address.parse (String.ofList (s.toList.dropWhile Text.isBlank)) =
        Address.parse s := by
      apply Address.parse_congr
      rw [String.toList_ofList, Text.trimBlanks_dropWhile]
    have ht : Address.parse (String.ofList (t.toList.reverse.dropWhile Text.isBlank).reverse) =
        Address.parse t := by
      apply Address.parse_congr
      rw [String.toList_ofList, Text.trimBlanks_dropWhile_reverse]
    rw [parse_of_colon hcs hcolon, hs, ht]

theorem spanning_comm (a b : Address) : spanning a b = spanning b a := by
  apply ext_corners
  · show Address.mk _ _ = Address.mk _ _
    rw [Nat.min_comm, Nat.min_comm a.column]
  · show Address.mk _ _ = Address.mk _ _
    rw [Nat.max_comm, Nat.max_comm a.column]

theorem parse_colon_comm {s t : String} {r : Range} :
    parse (s ++ ":" ++ t) = .ok r ↔ parse (t ++ ":" ++ s) = .ok r := by
  rw [parse_append_colon, parse_append_colon]
  constructor <;>
  · rintro ⟨a, b, ha, hb, hr⟩
    exact ⟨b, a, hb, ha, spanning_comm b a ▸ hr⟩

/-! ### The cells of a range -/

variable {r : Range}

theorem length_cells (r : Range) : r.cells.length = r.size := by
  simp [cells, take]

theorem getElem?_cells {k : Nat} (hk : k < r.size) : r.cells[k]? = some (r.cell k) := by
  rw [cells, take, Nat.min_self, List.getElem?_map, List.getElem?_range hk]
  rfl

/-- The cells of a range are those that it contains. -/
theorem mem_cells_iff {a : Address} : a ∈ r.cells ↔ r.contains a = true := by
  rw [cells_eq_rowByRow, rowByRow, contains_iff, List.mem_flatMap]
  have hrows := r.rows_le
  have hcolumns := r.columns_le
  constructor
  · rintro ⟨row, hrow, ha⟩
    obtain ⟨column, hcolumn, rfl⟩ := List.mem_map.mp ha
    rw [List.mem_range'_1] at hrow hcolumn
    unfold height at hrow
    unfold width at hcolumn
    show (_ ≤ row ∧ row ≤ _) ∧ _ ≤ column ∧ column ≤ _
    omega
  · rintro ⟨hrow, hcolumn⟩
    refine ⟨a.row, List.mem_range'_1.mpr ?_, List.mem_map.mpr ⟨a.column, ?_, rfl⟩⟩
    · unfold height
      omega
    · rw [List.mem_range'_1]
      unfold width
      omega

/-- The cells of a range come row by row, each once. -/
theorem cells_sorted (r : Range) : r.cells.Pairwise (· < ·) := by
  rw [cells_eq_rowByRow, rowByRow]
  refine List.pairwise_flatMap.mpr ⟨?_, ?_⟩
  · intro row _
    refine List.pairwise_map.mpr ((List.pairwise_lt_range' 1).imp ?_)
    intro c d hcd
    exact Address.lt_iff.mpr (.inr ⟨rfl, hcd⟩)
  · refine (List.pairwise_lt_range' 1).imp ?_
    intro row row' hrow a ha b hb
    obtain ⟨c, -, rfl⟩ := List.mem_map.mp ha
    obtain ⟨d, -, rfl⟩ := List.mem_map.mp hb
    exact Address.lt_iff.mpr (.inl hrow)

/-! ### Counting in words -/

/-- The numbers of the rows and of the columns have words. -/
def CountFits (r : Range) : Prop :=
  r.height < 2 ^ 32 ∧ r.width < 2 ^ 16

instance (r : Range) : Decidable r.CountFits :=
  inferInstanceAs (Decidable (_ ∧ _))

theorem height?_eq (r : Range) :
    r.height? = if r.height < 2 ^ 32 then some r.height else none := by
  have hsub : Word.sub? r.last.row r.first.row = some (r.last.row - r.first.row) :=
    if_pos r.rows_le
  rw [height?, hsub]
  rfl

theorem width?_eq (r : Range) : r.width? = if r.width < 2 ^ 16 then some r.width else none := by
  have hsub : Word.sub? r.last.column r.first.column = some (r.last.column - r.first.column) :=
    if_pos r.columns_le
  rw [width?, hsub]
  rfl

/-- If the rows and the columns can be counted, so can the cells. -/
theorem size?_eq (r : Range) : r.size? = if r.CountFits then some r.size else none := by
  rw [size?, height?_eq, width?_eq]
  by_cases hheight : r.height < 2 ^ 32
  · by_cases hwidth : r.width < 2 ^ 16
    · have hsize : r.height * r.width < Nat.pow 2 64 :=
        calc r.height * r.width < 2 ^ 32 * 2 ^ 16 := Nat.mul_lt_mul'' hheight hwidth
          _ ≤ Nat.pow 2 64 := by decide
      rw [if_pos hheight, if_pos hwidth, if_pos ⟨hheight, hwidth⟩]
      exact if_pos hsize
    · rw [if_pos hheight, if_neg hwidth, if_neg fun h : r.CountFits => hwidth h.2]
      rfl
  · rw [if_neg hheight, if_neg fun h : r.CountFits => hheight h.1]
    rfl

theorem height_le (h : r.IsInside) : r.height ≤ rowLimit := by
  obtain ⟨hrow, -⟩ := h.2
  unfold height
  omega

theorem width_le (h : r.IsInside) : r.width ≤ columnLimit := by
  obtain ⟨-, hcolumn⟩ := h.2
  unfold width
  omega

theorem countFits_of_isInside (h : r.IsInside) : r.CountFits :=
  ⟨(height_le h).trans_lt (by decide), (width_le h).trans_lt (by decide)⟩

end Range

/-! ### One call -/

/-- At the last column a walk goes on at the first column of the row below, and otherwise to the
right, provided that the row or the column has a word. -/
theorem Walk.next?_eq {w : Walk} (hleft : w.left ≠ 0) :
    w.next? =
      if w.column = w.range.last.column then
        if w.row + 1 < 2 ^ 32 then
          some (some ⟨w.row, w.column⟩, ⟨w.range, w.row + 1, w.range.first.column, w.left - 1⟩)
        else none
      else if w.column + 1 < 2 ^ 16 then
        some (some ⟨w.row, w.column⟩, ⟨w.range, w.row, w.column + 1, w.left - 1⟩)
      else none := by
  have hsub : Word.sub? w.left 1 = some (w.left - 1) := if_pos (Nat.pos_of_ne_zero hleft)
  have hrow : Word.add? 32 w.row 1 = if w.row + 1 < 2 ^ 32 then some (w.row + 1) else none := rfl
  have hcolumn : Word.add? 16 w.column 1 =
      if w.column + 1 < 2 ^ 16 then some (w.column + 1) else none := rfl
  simp only [next?, if_neg hleft, hsub, hrow, hcolumn, Option.bind_eq_bind, Option.bind_some]
  split_ifs <;> rfl

theorem Walk.calls_succ {w w' : Walk} {answer : Option Address}
    (h : w.next? = some (answer, w')) (n : Nat) :
    calls (n + 1) w = (calls n w').map (Prod.map (answer :: ·) id) := by
  rw [calls, h]
  exact Option.map_eq_bind.symm

namespace Range

variable {r : Range}

/-- The walk through a range before its `k`-th cell. -/
def walkAt (r : Range) (k : Nat) : Walk :=
  ⟨r, (r.cell k).row, (r.cell k).column, r.size - k⟩

/-- The row or the column that a walk comes to from the `k`-th cell has a word. -/
def StepFits (r : Range) (k : Nat) : Prop :=
  if (r.cell k).column = r.last.column then (r.cell k).row + 1 < 2 ^ 32
  else (r.cell k).column + 1 < 2 ^ 16

instance (r : Range) (k : Nat) : Decidable (r.StepFits k) :=
  inferInstanceAs (Decidable (if (r.cell k).column = r.last.column then (r.cell k).row + 1 < 2 ^ 32
    else (r.cell k).column + 1 < 2 ^ 16))

theorem walk?_eq (h : r.CountFits) : r.walk? = some (r.walkAt 0) := by
  rw [walk?, size?_eq, if_pos h, walkAt, cell, Nat.zero_div, Nat.zero_mod]
  rfl

/-- The cell after the `k`-th one lies to its right, or in the first column of the row below. -/
theorem cell_succ (r : Range) (k : Nat) :
    r.cell (k + 1) =
      if (r.cell k).column = r.last.column then ⟨(r.cell k).row + 1, r.first.column⟩
      else ⟨(r.cell k).row, (r.cell k).column + 1⟩ := by
  have hwidth : r.width = r.last.column - r.first.column + 1 := rfl
  have hcolumns := r.columns_le
  have hsplit : k % r.width + r.width * (k / r.width) = k := Nat.mod_add_div k r.width
  have hmod : k % r.width < r.width := Nat.mod_lt k r.width_pos
  have hcell : (r.cell k).column = r.first.column + k % r.width := rfl
  by_cases hlast : (r.cell k).column = r.last.column
  · -- The place in the row begins again, and the number of the row is counted on.
    obtain ⟨hrow, hcolumn⟩ : (k + 1) / r.width = k / r.width + 1 ∧ (k + 1) % r.width = 0 := by
      rw [Nat.div_mod_unique r.width_pos, Nat.mul_add, Nat.mul_one]
      omega
    rw [if_pos hlast, cell, hrow, hcolumn]
    rfl
  · obtain ⟨hrow, hcolumn⟩ : (k + 1) / r.width = k / r.width ∧
        (k + 1) % r.width = k % r.width + 1 := by
      rw [Nat.div_mod_unique r.width_pos]
      omega
    rw [if_neg hlast, cell, hrow, hcolumn]
    rfl

theorem walkAt_succ (r : Range) (k : Nat) :
    r.walkAt (k + 1) =
      if (r.cell k).column = r.last.column then
        ⟨r, (r.cell k).row + 1, r.first.column, r.size - k - 1⟩
      else ⟨r, (r.cell k).row, (r.cell k).column + 1, r.size - k - 1⟩ := by
  rw [walkAt, cell_succ]
  split_ifs <;> rfl

/-- Before the end a call gives the cell that the walk is before, and goes on to the one after it,
if that can be counted. -/
theorem next?_walkAt_of_lt {k : Nat} (hk : k < r.size) :
    (r.walkAt k).next? =
      if r.StepFits k then some (r.cells[k]?, r.walkAt (k + 1)) else none := by
  have hleft : (r.walkAt k).left ≠ 0 := Nat.sub_ne_zero_of_lt hk
  rw [Walk.next?_eq hleft, getElem?_cells hk, r.walkAt_succ]
  by_cases hlast : (r.cell k).column = r.last.column
  · have hfits : r.StepFits k ↔ (r.cell k).row + 1 < 2 ^ 32 := by rw [StepFits, if_pos hlast]
    rw [if_congr hfits rfl rfl, if_pos hlast]
    exact if_pos hlast
  · have hfits : r.StepFits k ↔ (r.cell k).column + 1 < 2 ^ 16 := by rw [StepFits, if_neg hlast]
    rw [if_congr hfits rfl rfl, if_neg hlast]
    exact if_neg hlast

/-- A call gives the next cell, or nothing at the end, where the walk stays. -/
theorem next?_walkAt (h : ∀ k < r.size, r.StepFits k) (k : Nat) :
    (r.walkAt (min k r.size)).next? = some (r.cells[k]?, r.walkAt (min (k + 1) r.size)) := by
  rcases Nat.lt_or_ge k r.size with hk | hk
  · rw [Nat.min_eq_left hk.le, Nat.min_eq_left hk, next?_walkAt_of_lt hk, if_pos (h k hk)]
  · rw [Nat.min_eq_right hk, Nat.min_eq_right (Nat.le_succ_of_le hk),
      List.getElem?_eq_none (by rwa [length_cells])]
    exact if_pos (Nat.sub_self _)

/-! ### Many calls -/

/-- Calls give the cells one after the other, and nothing behind the last one. -/
theorem calls_walkAt (h : ∀ k < r.size, r.StepFits k) (n k : Nat) :
    Walk.calls n (r.walkAt (min k r.size)) =
      some ((List.range' k n).map (r.cells[·]?), r.walkAt (min (k + n) r.size)) := by
  induction n generalizing k with
  | zero => rfl
  | succ n ih =>
    rw [Walk.calls_succ (next?_walkAt h k), ih, List.range'_succ, List.map_cons,
      Nat.add_right_comm]
    rfl

/-- The numbers on a walk have words: the row below the last one, and the last column where the walk
comes to it from another one. -/
def WalkFits (r : Range) : Prop :=
  r.last.row + 1 < 2 ^ 32 ∧ (r.first.column < r.last.column → r.last.column < 2 ^ 16)

instance (r : Range) : Decidable r.WalkFits :=
  inferInstanceAs (Decidable (_ ∧ (_ → _)))

theorem walkFits_of_isInside (h : r.IsInside) : r.WalkFits := by
  obtain ⟨hrow, hcolumn⟩ := h.2
  have hrows : rowLimit < 2 ^ 32 := by decide
  have hcolumns : columnLimit < 2 ^ 16 := by decide
  exact ⟨by omega, fun _ => by omega⟩

theorem contains_cell {k : Nat} (hk : k < r.size) : r.contains (r.cell k) = true :=
  mem_cells_iff.mp (List.mem_of_getElem? (getElem?_cells hk))

theorem exists_cell_eq {a : Address} (h : r.contains a = true) : ∃ k < r.size, r.cell k = a := by
  obtain ⟨k, hk⟩ := List.getElem?_of_mem (mem_cells_iff.mpr h)
  have hlt : k < r.size := by
    rw [← length_cells]
    exact (List.getElem?_eq_some_iff.mp hk).1
  rw [getElem?_cells hlt] at hk
  exact ⟨k, hlt, Option.some.inj hk⟩

/-- The last cell and the one to the left of the last column decide about all steps. -/
theorem forall_stepFits_iff : (∀ k < r.size, r.StepFits k) ↔ r.WalkFits := by
  have hrows := r.rows_le
  have hcolumns := r.columns_le
  constructor
  · intro h
    have hstep : ∀ a, r.contains a = true →
        if a.column = r.last.column then a.row + 1 < 2 ^ 32 else a.column + 1 < 2 ^ 16 := by
      intro a ha
      obtain ⟨k, hk, rfl⟩ := exists_cell_eq ha
      exact h k hk
    constructor
    · have hlast := hstep r.last (contains_iff.mpr ⟨⟨hrows, le_rfl⟩, hcolumns, le_rfl⟩)
      rwa [if_pos rfl] at hlast
    · intro hlt
      have hbefore : r.contains ⟨r.first.row, r.last.column - 1⟩ = true :=
        contains_iff.mpr ⟨⟨le_rfl, hrows⟩, Nat.le_sub_one_of_lt hlt, Nat.sub_le _ _⟩
      have hcolumn := hstep _ hbefore
      simp only at hcolumn
      rw [if_neg (by omega)] at hcolumn
      omega
  · rintro ⟨hrow, hcolumn⟩ k hk
    obtain ⟨hcellRow, hcellColumn⟩ := contains_iff.mp (contains_cell hk)
    unfold StepFits
    split
    · omega
    · have hlt := hcolumn (by omega)
      omega

/-- **Walking through a range.**  The cells of the range between two cells within the limits of a
sheet, in any order, are those that it contains, each once and row by row.  Their number is that of
the rows times that of the columns, and all three have words of their sizes.  So many calls of a
walk through the range, as many as one likes, give its cells in that order and then nothing more,
and leave just the others; none of them counts beyond its words.  Two texts with a colon between
them are read as a range just if both are cells, and as the range between those cells, the same one
in either order. -/
theorem walk_spanning {a b : Address} (ha : a.IsInside) (hb : b.IsInside) :
    let r := spanning a b
    r.cells.Pairwise (· < ·) ∧ (∀ c, c ∈ r.cells ↔ r.contains c = true) ∧
      r.cells.length = r.height * r.width ∧
      r.height? = some r.height ∧ r.width? = some r.width ∧ r.size? = some r.cells.length ∧
      (∀ n, ∃ w, r.walk? >>= Walk.calls n = some ((List.range n).map (r.cells[·]?), w) ∧
        w.left = r.cells.length - n) ∧
      (∀ (s t : String) (r' : Range), parse (s ++ ":" ++ t) = .ok r' ↔
        ∃ c d, Address.parse s = .ok c ∧ Address.parse t = .ok d ∧ spanning c d = r') ∧
      ∀ (s t : String) (r' : Range),
        parse (s ++ ":" ++ t) = .ok r' ↔ parse (t ++ ":" ++ s) = .ok r' := by
  intro r
  have h : r.IsInside := isInside_spanning ha hb
  have hcount := countFits_of_isInside h
  rw [length_cells]
  refine ⟨cells_sorted r, fun c => mem_cells_iff, rfl, ?_, ?_, ?_, ?_,
    fun s t r' => parse_append_colon, fun s t r' => parse_colon_comm⟩
  · rw [height?_eq, if_pos hcount.1]
  · rw [width?_eq, if_pos hcount.2]
  · rw [size?_eq, if_pos hcount]
  intro n
  refine ⟨r.walkAt (min n r.size), ?_, ?_⟩
  · have hstart : r.walkAt 0 = r.walkAt (min 0 r.size) := by rw [Nat.zero_min]
    have hsteps := forall_stepFits_iff.mpr (walkFits_of_isInside h)
    rw [walk?_eq hcount, List.range_eq_range', hstart]
    show Walk.calls n (r.walkAt (min 0 r.size)) = _
    rw [calls_walkAt hsteps, Nat.zero_add]
  · show r.size - min n r.size = r.size - n
    omega

/-- The last two columns of the last two rows, from right to left and from the bottom. -/
theorem walk_spanning_lastCorner :
    Address.IsInside ⟨1048575, 16382⟩ ∧ Address.IsInside ⟨1048574, 16383⟩ ∧
      (spanning ⟨1048575, 16382⟩ ⟨1048574, 16383⟩).cells =
        [⟨1048574, 16382⟩, ⟨1048574, 16383⟩, ⟨1048575, 16382⟩, ⟨1048575, 16383⟩] ∧
      ∃ w, (spanning ⟨1048575, 16382⟩ ⟨1048574, 16383⟩).walk? >>= Walk.calls 5 =
        some ([some ⟨1048574, 16382⟩, some ⟨1048574, 16383⟩, some ⟨1048575, 16382⟩,
          some ⟨1048575, 16383⟩, none], w) ∧ w.left = 0 := by
  have ha : Address.IsInside ⟨1048575, 16382⟩ := ⟨by decide, by decide⟩
  have hb : Address.IsInside ⟨1048574, 16383⟩ := ⟨by decide, by decide⟩
  have hcells : (spanning ⟨1048575, 16382⟩ ⟨1048574, 16383⟩).cells =
      [⟨1048574, 16382⟩, ⟨1048574, 16383⟩, ⟨1048575, 16382⟩, ⟨1048575, 16383⟩] := by decide
  obtain ⟨-, -, -, -, -, -, hcalls, -⟩ := walk_spanning ha hb
  obtain ⟨w, hw, hleft⟩ := hcalls 5
  rw [hcells] at hw hleft
  exact ⟨ha, hb, hcells, w, hw, hleft⟩

end Range

end Cell

end SheetRecords
