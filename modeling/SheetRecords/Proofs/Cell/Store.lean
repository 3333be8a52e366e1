import Mathlib.Data.Finset.Card
import Mathlib.Data.Finset.Dedup
import Mathlib.Data.List.Sort
import Mathlib.Order.Bounds.Basic
import Mathlib.Order.Compare
import Mathlib.Order.Lattice
import Mathlib.Order.Std
import SheetRecords.Cell.Store

/-!
# Correctness of the sparse cells

Addresses are linearly ordered row by row.  Whatever is written, cleared and read of a `Store` is
what a map from addresses to values gives (`Store.Represents`): the cells by row and by column are
such a map (`Store.get?`), each operation changes it at its address only (`Store.get?_remove`,
`Store.get?_set`), and all that is read off the rows is read off the list of cells, which is in
order and has each cell of the map once (`Store.mem_toList_iff`, `Store.toList_sorted`).  Along any
sequence of edits the store represents the map that they write (`Store.represents_contents`).
-/

namespace SheetRecords.Cell

/-! ### The order of addresses -/

instance : LinearOrder Address := .ofStd _

/-- Addresses are ordered row by row. -/
theorem Address.lt_iff {a b : Address} :
    a < b ↔ a.row < b.row ∨ a.row = b.row ∧ a.column < b.column := by
  rw [← compare_lt_iff_lt, Address.compare_def, Ordering.then_eq_lt, Nat.compare_eq_lt,
    Nat.compare_eq_eq, Nat.compare_eq_lt]

/-! ### Rows -/

namespace Row

theorem getElem?_insert (r : Option Row) (column : Nat) (v : Value) (h : v ≠ .empty) (b : Nat) :
    (insert r column v h).cells[b]? =
      if column = b then some v else r.bind (·.cells[b]?) := by
  simp only [insert, Std.TreeMap.getElem?_insert, Std.LawfulEqCmp.compare_eq_iff_eq]
  cases r <;> simp

theorem getElem?_erase? (r : Row) (column b : Nat) :
    ((r.erase? column).bind (·.cells[b]?)) = if column = b then none else r.cells[b]? := by
  have herase := Std.TreeMap.getElem?_erase (t := r.cells) (k := column) (a := b)
  simp only [Std.LawfulEqCmp.compare_eq_iff_eq] at herase
  unfold erase?
  split
  · exact herase
  · rename_i hempty
    rw [← herase, Std.TreeMap.getElem?_of_isEmpty (Bool.not_eq_false _ ▸ hempty)]
    rfl

/-- A row has a cell. -/
theorem exists_getElem? (r : Row) : ∃ (column : Nat) (v : Value), r.cells[column]? = some v := by
  obtain ⟨column, hcolumn⟩ :=
    Std.TreeMap.isEmpty_eq_false_iff_exists_mem.mp r.isEmpty_eq_false
  exact ⟨column, _, Std.TreeMap.getElem?_eq_some_getElem hcolumn⟩

theorem isSome_minKey? (r : Row) : r.cells.minKey?.isSome = true := by
  rw [Std.TreeMap.isSome_minKey?_eq_not_isEmpty, r.isEmpty_eq_false, Bool.not_false]

theorem isSome_maxKey? (r : Row) : r.cells.maxKey?.isSome = true := by
  rw [Std.TreeMap.isSome_maxKey?_eq_not_isEmpty, r.isEmpty_eq_false, Bool.not_false]

end Row

namespace Store

variable {s : Store}

/-! ### Cells after an operation -/

theorem get?_eq_some_iff_exists {a : Address} {v : Value} :
    s.get? a = some v ↔ ∃ r, s.byRow[a.row]? = some r ∧ r.cells[a.column]? = some v :=
  Option.bind_eq_some_iff

theorem get?_ne_empty (s : Store) (a : Address) : s.get? a ≠ some .empty := by
  intro h
  obtain ⟨r, -, hr⟩ := get?_eq_some_iff_exists.mp h
  exact r.cells_ne_empty a.column hr

@[simp]
theorem get?_empty (a : Address) : empty.get? a = none := by
  simp [get?, empty]

@[simp]
theorem get?_clear (s : Store) (a : Address) : s.clear.get? a = none :=
  get?_empty a

theorem remove_fst (s : Store) (a : Address) : (s.remove a).1 = s.get? a := by
  unfold remove get?
  cases s.byRow[a.row]? <;> rfl

theorem texts_erase (s : Store) (a : Address) : (s.erase a).texts = s.texts := by
  unfold erase remove
  cases s.byRow[a.row]? <;> rfl

/-- The row that loses a cell is gone if it was its last one, and no other row changes. -/
theorem byRow_erase (s : Store) (a : Address) (n : Nat) :
    (s.erase a).byRow[n]? =
      if a.row = n then s.byRow[a.row]?.bind (·.erase? a.column) else s.byRow[n]? := by
  unfold erase remove
  cases hrow : s.byRow[a.row]? with
  | none =>
    by_cases heq : a.row = n
    · simp [← heq, hrow]
    · simp [heq]
  | some r =>
    simp only [Option.bind_some]
    cases r.erase? a.column with
    | none => simp [Std.TreeMap.getElem?_erase]
    | some r' => simp [Std.TreeMap.getElem?_insert]

theorem get?_erase (s : Store) (a b : Address) :
    (s.erase a).get? b = if a = b then none else s.get? b := by
  obtain ⟨row, column⟩ := a
  obtain ⟨row', column'⟩ := b
  simp only [get?, byRow_erase, Address.mk.injEq]
  by_cases hrow : row = row'
  · subst hrow
    simp only [if_true, true_and]
    cases s.byRow[row]? with
    | none => simp
    | some r => exact r.getElem?_erase? column column'
  · simp [hrow]

theorem get?_insert (s : Store) (a b : Address) {v : Value} (h : v ≠ .empty) (texts : Text.Pool) :
    (s.insert a v h texts).get? b = if a = b then some v else s.get? b := by
  obtain ⟨row, column⟩ := a
  obtain ⟨row', column'⟩ := b
  simp only [get?, insert, Std.TreeMap.getElem?_insert, Std.LawfulEqCmp.compare_eq_iff_eq,
    Address.mk.injEq]
  by_cases hrow : row = row'
  · subst hrow
    simp only [if_true, true_and, Option.bind_some]
    exact Row.getElem?_insert _ column v h column'
  · simp [hrow]

/-- The value as it is kept: nothing is not kept. -/
def stored : Value → Option Value
  | .empty => none
  | v => some v

theorem get?_set (s : Store) (a b : Address) (v : Value) :
    (s.set a v).get? b = if a = b then stored v else s.get? b := by
  cases v with
  | empty => exact get?_erase s a b
  | boolean x => exact get?_insert s a b _ _
  | number x => exact get?_insert s a b _ _
  | text t => exact get?_insert s a b _ _

/-! ### The cells in order -/

theorem mem_toList_iff {a : Address} {v : Value} : (a, v) ∈ s.toList ↔ s.get? a = some v := by
  obtain ⟨row, column⟩ := a
  rw [get?_eq_some_iff_exists, toList, List.mem_flatMap]
  constructor
  · rintro ⟨⟨row', r⟩, hr, hmem⟩
    obtain ⟨⟨column', v'⟩, hv, heq⟩ := List.mem_map.mp hmem
    obtain ⟨⟨rfl, rfl⟩, rfl⟩ : (row' = row ∧ column' = column) ∧ v' = v := by simpa using heq
    exact ⟨r, Std.TreeMap.mem_toList_iff_getElem?_eq_some.mp hr,
      Std.TreeMap.mem_toList_iff_getElem?_eq_some.mp hv⟩
  · rintro ⟨r, hr, hv⟩
    exact ⟨(row, r), Std.TreeMap.mem_toList_iff_getElem?_eq_some.mpr hr,
      List.mem_map.mpr ⟨(column, v), Std.TreeMap.mem_toList_iff_getElem?_eq_some.mpr hv, rfl⟩⟩

/-- The cells of a sheet are listed row by row, each once. -/
theorem toList_sorted (s : Store) : s.toList.Pairwise fun a b => a.1 < b.1 := by
  refine List.pairwise_flatMap.mpr ⟨?_, ?_⟩
  · rintro ⟨row, r⟩ -
    refine List.pairwise_map.mpr (r.cells.ordered_keys_toList.imp ?_)
    intro c d hcd
    exact Address.lt_iff.mpr (.inr ⟨rfl, Nat.compare_eq_lt.mp hcd⟩)
  · refine s.byRow.ordered_keys_toList.imp ?_
    rintro ⟨row, r⟩ ⟨row', r'⟩ hrow a ha b hb
    obtain ⟨c, -, rfl⟩ := List.mem_map.mp ha
    obtain ⟨d, -, rfl⟩ := List.mem_map.mp hb
    exact Address.lt_iff.mpr (.inl (Nat.compare_eq_lt.mp hrow))

theorem size_eq_length (s : Store) : s.size = s.toList.length := by
  have hsum : s.size = (s.rowList.map (·.cells.size)).sum := by
    rw [List.sum_eq_foldl, List.foldl_map]
    rfl
  rw [hsum, rowList, toList, List.length_flatMap, List.map_map]
  simp only [List.length_map]
  congr 1
  refine List.map_congr_left fun p _ => ?_
  exact p.2.cells.length_toList.symm

/-- A row is kept just if it has a cell. -/
theorem mem_byRow_iff {n : Nat} :
    n ∈ s.byRow ↔ ∃ column v, s.get? ⟨n, column⟩ = some v := by
  constructor
  · intro h
    have hrow := Std.TreeMap.getElem?_eq_some_getElem h
    obtain ⟨column, v, hv⟩ := (s.byRow[n]).exists_getElem?
    exact ⟨column, v, get?_eq_some_iff_exists.mpr ⟨_, hrow, hv⟩⟩
  · rintro ⟨column, v, hv⟩
    obtain ⟨r, hr, -⟩ := get?_eq_some_iff_exists.mp hv
    exact Std.TreeMap.mem_iff_isSome_getElem?.mpr (by simp [hr])

theorem isEmpty_iff : s.isEmpty = true ↔ ∀ a, s.get? a = none := by
  refine Std.TreeMap.isEmpty_iff_forall_not_mem.trans ?_
  constructor
  · intro h a
    by_contra hne
    obtain ⟨v, hv⟩ := Option.ne_none_iff_exists'.mp hne
    exact h a.row (mem_byRow_iff.mpr ⟨a.column, v, hv⟩)
  · intro h n hn
    obtain ⟨column, v, hv⟩ := mem_byRow_iff.mp hn
    rw [h] at hv
    cases hv

theorem get?_of_isEmpty (h : s.isEmpty = true) (a : Address) : s.get? a = none :=
  isEmpty_iff.mp h a

/-! ### Rows and bounds -/

/-- The cells of a row are those that are listed with its number. -/
theorem row_eq_filterMap (s : Store) (n : Nat) :
    s.row n = s.toList.filterMap fun (a, v) => if a.row = n then some (a.column, v) else none := by
  have hrow : (s.row n).Pairwise fun c d => c.1 < d.1 := by
    unfold row
    cases s.byRow[n]? with
    | none => exact List.Pairwise.nil
    | some r => exact r.cells.ordered_keys_toList.imp Nat.compare_eq_lt.mp
  have hlist : (s.toList.filterMap fun (a, v) =>
      if a.row = n then some (a.column, v) else none).Pairwise fun c d => c.1 < d.1 := by
    refine List.pairwise_filterMap.mpr (s.toList_sorted.imp ?_)
    rintro ⟨a, v⟩ ⟨b, w⟩ hab c hc d hd
    obtain ⟨ha, ⟨⟩⟩ := Option.ite_none_right_eq_some.mp hc
    obtain ⟨hb, ⟨⟩⟩ := Option.ite_none_right_eq_some.mp hd
    have := Address.lt_iff.mp hab
    simp only at ha hb this ⊢
    omega
  have : Std.Irrefl fun c d : Nat × Value => c.1 < d.1 := ⟨fun c => lt_irrefl c.1⟩
  have : Std.Antisymm fun c d : Nat × Value => c.1 < d.1 := ⟨fun _ _ h h' => absurd h' h.asymm⟩
  refine hrow.eq_of_mem_iff hlist ?_
  rintro ⟨column, v⟩
  have hmem : (column, v) ∈ s.row n ↔ s.get? ⟨n, column⟩ = some v := by
    rw [row, get?]
    cases s.byRow[n]? with
    | none => simp
    | some r => exact Std.TreeMap.mem_toList_iff_getElem?_eq_some
  rw [hmem, ← mem_toList_iff, List.mem_filterMap]
  constructor
  · intro h
    exact ⟨_, h, by simp⟩
  · rintro ⟨⟨⟨row', column'⟩, v'⟩, h, heq⟩
    obtain ⟨rfl, ⟨⟩⟩ := Option.ite_none_right_eq_some.mp heq
    exact h

theorem rows_sorted (s : Store) : s.rows.Pairwise (· < ·) :=
  s.byRow.ordered_keys.imp Nat.compare_eq_lt.mp

theorem mem_rows_iff {n : Nat} : n ∈ s.rows ↔ ∃ column v, s.get? ⟨n, column⟩ = some v :=
  Std.TreeMap.mem_keys.trans mem_byRow_iff

/-- The rows with a cell that holds something. -/
def usedRows (m : Address → Option Value) : Set Nat :=
  {n | ∃ column v, m ⟨n, column⟩ = some v}

/-- The columns with a cell that holds something. -/
def usedColumns (m : Address → Option Value) : Set Nat :=
  {column | ∃ n v, m ⟨n, column⟩ = some v}

section Keys

variable {β : Type} {t : Std.TreeMap Nat β} {n : Nat}

theorem mem_iff_exists_getElem? : n ∈ t ↔ ∃ v, t[n]? = some v := by
  rw [Std.TreeMap.mem_iff_isSome_getElem?, Option.isSome_iff_exists]

theorem minKey?_eq_some_iff_isLeast : t.minKey? = some n ↔ IsLeast {k | k ∈ t} n := by
  simp only [Std.TreeMap.minKey?_eq_some_iff_mem_and_forall, Nat.isLE_compare]
  rfl

theorem maxKey?_eq_some_iff_isGreatest : t.maxKey? = some n ↔ IsGreatest {k | k ∈ t} n := by
  simp only [Std.TreeMap.maxKey?_eq_some_iff_mem_and_forall, Nat.isLE_compare]
  rfl

/-- The least of the least elements of some sets is the least of all their elements.  The order may
be a reversed one, in which the least is the greatest. -/
theorem isLeast_filterMap_iff {ι α : Type} [PartialOrder α] {rows : List ι} {f : ι → Option α}
    {S : ι → Set α} (hf : ∀ r x, f r = some x ↔ IsLeast (S r) x)
    (hsome : ∀ r, (f r).isSome = true) {x : α} :
    IsLeast {y | y ∈ rows.filterMap f} x ↔ IsLeast {y | ∃ r ∈ rows, y ∈ S r} x := by
  constructor
  · rintro ⟨hmem, hle⟩
    obtain ⟨r, hr, hx⟩ := List.mem_filterMap.mp hmem
    refine ⟨⟨r, hr, ((hf r x).mp hx).1⟩, ?_⟩
    rintro y ⟨r', hr', hy⟩
    obtain ⟨z, hz⟩ := Option.isSome_iff_exists.mp (hsome r')
    calc x ≤ z := hle (List.mem_filterMap.mpr ⟨r', hr', hz⟩)
      _ ≤ y := ((hf r' z).mp hz).2 hy
  · rintro ⟨⟨r, hr, hx⟩, hle⟩
    have hleast : IsLeast (S r) x := ⟨hx, fun y hy => hle ⟨r, hr, hy⟩⟩
    refine ⟨List.mem_filterMap.mpr ⟨r, hr, (hf r x).mpr hleast⟩, ?_⟩
    intro y hy
    obtain ⟨r', hr', hy⟩ := List.mem_filterMap.mp hy
    exact hle ⟨r', hr', ((hf r' y).mp hy).1⟩

end Keys

theorem mem_rowList_iff {r : Row} : r ∈ s.rowList ↔ ∃ n : Nat, s.byRow[n]? = some r := by
  simp [rowList, Std.TreeMap.mem_toList_iff_getElem?_eq_some]

theorem setOf_mem_byRow (s : Store) : {n | n ∈ s.byRow} = usedRows s.get? :=
  Set.ext fun _ => mem_byRow_iff

theorem setOf_mem_rowList (s : Store) :
    {column | ∃ r ∈ s.rowList, column ∈ r.cells} = usedColumns s.get? := by
  ext column
  constructor
  · rintro ⟨r, hr, hcolumn⟩
    obtain ⟨n, hn⟩ := mem_rowList_iff.mp hr
    exact ⟨n, _, get?_eq_some_iff_exists.mpr
      ⟨r, hn, Std.TreeMap.getElem?_eq_some_getElem hcolumn⟩⟩
  · rintro ⟨n, v, hv⟩
    obtain ⟨r, hr, hcell⟩ := get?_eq_some_iff_exists.mp hv
    exact ⟨r, mem_rowList_iff.mpr ⟨n, hr⟩, mem_iff_exists_getElem?.mpr ⟨v, hcell⟩⟩

theorem lastRow?_eq_some_iff {n : Nat} :
    s.lastRow? = some n ↔ IsGreatest (usedRows s.get?) n := by
  rw [← setOf_mem_byRow]
  exact maxKey?_eq_some_iff_isGreatest

theorem firstColumn_eq_some_iff {column : Nat} :
    (s.rowList.filterMap (·.cells.minKey?)).min? = some column ↔
      IsLeast (usedColumns s.get?) column := by
  rw [List.min?_eq_some_iff, ← setOf_mem_rowList]
  exact isLeast_filterMap_iff (fun r x => minKey?_eq_some_iff_isLeast) Row.isSome_minKey?

theorem lastColumn_eq_some_iff {column : Nat} :
    (s.rowList.filterMap (·.cells.maxKey?)).max? = some column ↔
      IsGreatest (usedColumns s.get?) column := by
  rw [List.max?_eq_some_iff, ← setOf_mem_rowList]
  exact isLeast_filterMap_iff (α := Natᵒᵈ) (fun r x => maxKey?_eq_some_iff_isGreatest)
    Row.isSome_maxKey?

theorem lastColumn?_eq_some_iff {n column : Nat} :
    s.lastColumn? n = some column ↔ IsGreatest {c | ∃ v, s.get? ⟨n, c⟩ = some v} column := by
  simp only [lastColumn?, get?]
  cases s.byRow[n]? with
  | none => exact iff_of_false (by simp) fun h => by simpa using h.1
  | some r =>
    have hkeys : {c | c ∈ r.cells} = {c | ∃ v, r.cells[c]? = some v} :=
      Set.ext fun c => mem_iff_exists_getElem?
    simp only [Option.bind_some, ← hkeys]
    exact maxKey?_eq_some_iff_isGreatest

/-- A greatest element is reached from just those numbers that some element is reached from. -/
theorem exists_le_greatest_iff {S : Set Nat} {greatest? : Option Nat}
    (hgreatest : ∀ m, greatest? = some m ↔ IsGreatest S m)
    (hsome : ∀ m ∈ S, greatest?.isSome = true) {n : Nat} :
    (∃ last ∈ greatest?, n ≤ last) ↔ ∃ m ∈ S, n ≤ m := by
  constructor
  · rintro ⟨last, hlast, hn⟩
    exact ⟨last, ((hgreatest last).mp hlast).1, hn⟩
  · rintro ⟨m, hm, hn⟩
    obtain ⟨last, hlast⟩ := Option.isSome_iff_exists.mp (hsome m hm)
    exact ⟨last, hlast, hn.trans (((hgreatest last).mp hlast).2 hm)⟩

/-- The last row is reached from all rows that have something in them. -/
theorem le_lastRow?_iff {n : Nat} :
    (∃ last ∈ s.lastRow?, n ≤ last) ↔ ∃ b, n ≤ b.row ∧ (s.get? b).isSome = true := by
  have hsome : ∀ m ∈ usedRows s.get?, s.lastRow?.isSome = true := by
    intro m hm
    rw [lastRow?, Std.TreeMap.isSome_maxKey?_iff_isEmpty_eq_false,
      Std.TreeMap.isEmpty_eq_false_iff_exists_mem]
    exact ⟨m, mem_byRow_iff.mpr hm⟩
  rw [exists_le_greatest_iff (fun m => lastRow?_eq_some_iff) hsome]
  constructor
  · rintro ⟨m, ⟨column, v, hv⟩, hn⟩
    exact ⟨⟨m, column⟩, hn, Option.isSome_iff_exists.mpr ⟨v, hv⟩⟩
  · rintro ⟨b, hn, hb⟩
    exact ⟨b.row, ⟨b.column, Option.isSome_iff_exists.mp hb⟩, hn⟩

/-- The last column of a row is reached from all its cells that have something in them. -/
theorem le_lastColumn?_iff {row n : Nat} :
    (∃ last ∈ s.lastColumn? row, n ≤ last) ↔
      ∃ b, b.row = row ∧ n ≤ b.column ∧ (s.get? b).isSome = true := by
  have hsome : ∀ c ∈ {c | ∃ v, s.get? ⟨row, c⟩ = some v}, (s.lastColumn? row).isSome = true := by
    rintro c ⟨v, hv⟩
    obtain ⟨r, hr, -⟩ := get?_eq_some_iff_exists.mp hv
    rw [lastColumn?, hr]
    exact r.isSome_maxKey?
  rw [exists_le_greatest_iff (fun c => lastColumn?_eq_some_iff) hsome]
  constructor
  · rintro ⟨c, ⟨v, hv⟩, hn⟩
    exact ⟨⟨row, c⟩, rfl, hn, Option.isSome_iff_exists.mpr ⟨v, hv⟩⟩
  · rintro ⟨b, rfl, hn, hb⟩
    exact ⟨b.column, Option.isSome_iff_exists.mp hb, hn⟩

/-- The corners of the used range are the first and the last row and column in use. -/
theorem usedRange?_eq_some {r : Range} (h : s.usedRange? = some r) :
    IsLeast (usedRows s.get?) r.first.row ∧ IsGreatest (usedRows s.get?) r.last.row ∧
      IsLeast (usedColumns s.get?) r.first.column ∧
      IsGreatest (usedColumns s.get?) r.last.column := by
  unfold usedRange? at h
  obtain ⟨firstRow, hfirstRow, h⟩ := Option.bind_eq_some_iff.mp h
  obtain ⟨lastRow, hlastRow, h⟩ := Option.bind_eq_some_iff.mp h
  obtain ⟨firstColumn, hfirstColumn, h⟩ := Option.bind_eq_some_iff.mp h
  obtain ⟨lastColumn, hlastColumn, h⟩ := Option.bind_eq_some_iff.mp h
  obtain rfl := Option.some.inj h
  rw [minKey?_eq_some_iff_isLeast, setOf_mem_byRow] at hfirstRow
  rw [maxKey?_eq_some_iff_isGreatest, setOf_mem_byRow] at hlastRow
  rw [firstColumn_eq_some_iff] at hfirstColumn
  rw [lastColumn_eq_some_iff] at hlastColumn
  have hrows : firstRow ≤ lastRow := hfirstRow.2 hlastRow.1
  have hcolumns : firstColumn ≤ lastColumn := hfirstColumn.2 hlastColumn.1
  simp only [Range.spanning, min_eq_left hrows, max_eq_right hrows, min_eq_left hcolumns,
    max_eq_right hcolumns]
  exact ⟨hfirstRow, hlastRow, hfirstColumn, hlastColumn⟩

theorem filterMap_rowList_ne_nil (h : s.isEmpty = false) {f : Row → Option Nat}
    (hf : ∀ r, (f r).isSome = true) : s.rowList.filterMap f ≠ [] := by
  obtain ⟨n, hn⟩ := Std.TreeMap.isEmpty_eq_false_iff_exists_mem.mp h
  obtain ⟨r, hr⟩ := mem_iff_exists_getElem?.mp hn
  obtain ⟨column, hcolumn⟩ := Option.isSome_iff_exists.mp (hf r)
  exact List.ne_nil_of_mem (List.mem_filterMap.mpr ⟨r, mem_rowList_iff.mpr ⟨n, hr⟩, hcolumn⟩)

theorem usedRange?_eq_none_iff : s.usedRange? = none ↔ ∀ a, s.get? a = none := by
  rw [← isEmpty_iff]
  constructor
  · intro hnone
    by_contra hne
    have hne : s.isEmpty = false := Bool.eq_false_iff.mpr hne
    obtain ⟨firstRow, hfirstRow⟩ : ∃ n, s.byRow.minKey? = some n :=
      Option.isSome_iff_exists.mp (Std.TreeMap.isSome_minKey?_iff_isEmpty_eq_false.mpr hne)
    obtain ⟨lastRow, hlastRow⟩ : ∃ n, s.byRow.maxKey? = some n :=
      Option.isSome_iff_exists.mp (Std.TreeMap.isSome_maxKey?_iff_isEmpty_eq_false.mpr hne)
    obtain ⟨firstColumn, hfirst⟩ := Option.isSome_iff_exists.mp
      (List.isSome_min?_iff.mpr (filterMap_rowList_ne_nil hne Row.isSome_minKey?))
    obtain ⟨lastColumn, hlast⟩ := Option.isSome_iff_exists.mp
      (List.isSome_max?_iff.mpr (filterMap_rowList_ne_nil hne Row.isSome_maxKey?))
    simp [usedRange?, hfirstRow, hlastRow, hfirst, hlast] at hnone
  · intro h
    simp [usedRange?, Std.TreeMap.minKey?_eq_none_iff.mpr h]

/-! ### Sequences of edits -/

/-- A change of the cells. -/
inductive Edit where
  | set (a : Address) (v : Value)
  | remove (a : Address)
  | clear

def edit (s : Store) : Edit → Store
  | .set a v => s.set a v
  | .remove a => (s.remove a).2
  | .clear => s.clear

/-- The store after some edits of one without cells. -/
def after (edits : List Edit) : Store :=
  edits.foldl edit empty

/-- The change of a map from addresses to values that an edit stands for. -/
def Edit.write (m : Address → Option Value) : Edit → Address → Option Value
  | .set a v => Function.update m a (stored v)
  | .remove a => Function.update m a none
  | .clear => fun _ => none

/-- The map that some edits write, one after the other. -/
def contents (edits : List Edit) : Address → Option Value :=
  edits.foldl Edit.write fun _ => none

/-- The text that an edit writes, if it writes one. -/
def Edit.text? : Edit → Option String
  | .set _ (.text t) => some t
  | _ => none

theorem Edit.text?_eq_some_iff {e : Edit} {t : String} :
    e.text? = some t ↔ ∃ a, e = .set a (.text t) := by
  constructor
  · intro h
    cases e with
    | set a v =>
      cases v with
      | text t' =>
        obtain rfl := Option.some.inj h
        exact ⟨a, rfl⟩
      | _ => cases h
    | _ => cases h
  · rintro ⟨a, rfl⟩
    rfl

theorem get?_edit (s : Store) (e : Edit) : (s.edit e).get? = e.write s.get? := by
  funext b
  cases e with
  | set a v =>
    rw [edit, get?_set, Edit.write, Function.update_apply]
    simp only [eq_comm]
  | remove a =>
    rw [edit, ← erase, get?_erase, Edit.write, Function.update_apply]
    simp only [eq_comm]
  | clear => exact get?_clear s b

theorem get?_after (edits : List Edit) : (after edits).get? = contents edits := by
  have hstart : empty.get? = fun _ => none := funext get?_empty
  rw [contents, ← hstart, after]
  generalize empty = s
  induction edits generalizing s with
  | nil => rfl
  | cons e edits ih => rw [List.foldl_cons, List.foldl_cons, ih, get?_edit]

theorem texts_edit (s : Store) (e : Edit) :
    (s.edit e).texts = (e.text?.map s.texts.insert).getD s.texts := by
  cases e with
  | set a v =>
    cases v with
    | empty => exact texts_erase s a
    | _ => rfl
  | remove a => exact texts_erase s a
  | clear => rfl

theorem mem_texts_after_iff {edits : List Edit} {t : String} :
    t ∈ (after edits).texts.texts ↔ t ∈ edits.filterMap Edit.text? := by
  have hrun (s : Store) : t ∈ (edits.foldl edit s).texts.texts ↔
      t ∈ edits.filterMap Edit.text? ∨ t ∈ s.texts.texts := by
    induction edits generalizing s with
    | nil => simp
    | cons e edits ih =>
      rw [List.foldl_cons, ih, texts_edit, List.filterMap_cons]
      cases e.text? with
      | none => simp
      | some u =>
        simp only [Option.map_some, Option.getD_some, Text.Pool.insert, Std.HashSet.mem_insert,
          beq_iff_eq, List.mem_cons, eq_comm (a := u)]
        tauto
  refine (hrun empty).trans ?_
  simp [empty, Text.Pool.empty]

theorem size_texts_after (edits : List Edit) :
    (after edits).texts.size = (edits.filterMap Edit.text?).toFinset.card := by
  have hnodup : (after edits).texts.texts.toList.Nodup :=
    Std.HashSet.distinct_toList.imp fun h => by simpa using h
  rw [Text.Pool.size, ← Std.HashSet.length_toList, ← List.toFinset_card_of_nodup hnodup]
  congr 1
  ext t
  rw [List.mem_toFinset, List.mem_toFinset, Std.HashSet.mem_toList, mem_texts_after_iff]

end Store

/-! ### What a store represents -/

/-- A range that holds the cells of a map and lies within every other range that does. -/
structure Range.IsTight (r : Range) (m : Address → Option Value) : Prop where
  contains : ∀ a, m a ≠ none → r.contains a = true
  least : ∀ r' : Range, (∀ a, m a ≠ none → r'.contains a = true) →
    r'.contains r.first = true ∧ r'.contains r.last = true

theorem Range.contains_iff {r : Range} {a : Address} :
    r.contains a = true ↔ (r.first.row ≤ a.row ∧ a.row ≤ r.last.row) ∧
      r.first.column ≤ a.column ∧ a.column ≤ r.last.column := by
  simp [Range.contains, and_assoc]

theorem Store.isTight_of_usedRange? {s : Store} {r : Range} (h : s.usedRange? = some r) :
    r.IsTight s.get? := by
  obtain ⟨hfirstRow, hlastRow, hfirstColumn, hlastColumn⟩ := Store.usedRange?_eq_some h
  constructor
  · intro a ha
    obtain ⟨v, hv⟩ := Option.ne_none_iff_exists'.mp ha
    have hrow : a.row ∈ usedRows s.get? := ⟨a.column, v, hv⟩
    have hcolumn : a.column ∈ usedColumns s.get? := ⟨a.row, v, hv⟩
    exact Range.contains_iff.mpr ⟨⟨hfirstRow.2 hrow, hlastRow.2 hrow⟩,
      hfirstColumn.2 hcolumn, hlastColumn.2 hcolumn⟩
  · intro r' hr'
    have hmem {row column : Nat} {v : Value} (hv : s.get? ⟨row, column⟩ = some v) :=
      Range.contains_iff.mp (hr' ⟨row, column⟩ (by simp [hv]))
    -- each side of the range has a cell on it, which the other range holds
    obtain ⟨_, _, htop⟩ := hfirstRow.1
    obtain ⟨_, _, hbottom⟩ := hlastRow.1
    obtain ⟨_, _, hleft⟩ := hfirstColumn.1
    obtain ⟨_, _, hright⟩ := hlastColumn.1
    exact ⟨Range.contains_iff.mpr ⟨(hmem htop).1, (hmem hleft).2⟩,
      Range.contains_iff.mpr ⟨(hmem hbottom).1, (hmem hright).2⟩⟩

/-- A store holds what a map has at each address, and all that is read off it is read off that
map. -/
structure Store.Represents (s : Store) (m : Address → Option Value) : Prop where
  get? : ∀ a, s.get? a = m a
  /-- A cell that is cleared gives back what it held. -/
  remove : ∀ a, (s.remove a).1 = m a
  ne_empty : ∀ a, m a ≠ some .empty
  /-- A row is kept just if one of its cells is. -/
  row_iff : ∀ n, (∃ r, s.byRow[n]? = some r) ↔ ∃ column v, m ⟨n, column⟩ = some v
  sorted : s.toList.Pairwise fun a b => a.1 < b.1
  mem_toList : ∀ a v, (a, v) ∈ s.toList ↔ m a = some v
  size : s.size = s.toList.length
  isEmpty : s.isEmpty = true ↔ ∀ a, m a = none
  usedRange_none : s.usedRange? = none ↔ ∀ a, m a = none
  usedRange_tight : ∀ r, s.usedRange? = some r → r.IsTight m
  lastRow : ∀ n, s.lastRow? = some n ↔ IsGreatest {n | ∃ column v, m ⟨n, column⟩ = some v} n
  lastColumn : ∀ n column,
    s.lastColumn? n = some column ↔ IsGreatest {column | ∃ v, m ⟨n, column⟩ = some v} column
  row : ∀ n, s.row n =
    s.toList.filterMap fun (a, v) => if a.row = n then some (a.column, v) else none
  rows_sorted : s.rows.Pairwise (· < ·)
  mem_rows : ∀ n, n ∈ s.rows ↔ ∃ a v, (a, v) ∈ s.toList ∧ a.row = n

namespace Store

theorem represents_get? (s : Store) : s.Represents s.get? where
  get? _ := rfl
  remove := s.remove_fst
  ne_empty := s.get?_ne_empty
  row_iff _ := mem_iff_exists_getElem?.symm.trans mem_byRow_iff
  sorted := s.toList_sorted
  mem_toList _ _ := mem_toList_iff
  size := s.size_eq_length
  isEmpty := isEmpty_iff
  usedRange_none := usedRange?_eq_none_iff
  usedRange_tight _ := isTight_of_usedRange?
  lastRow _ := lastRow?_eq_some_iff
  lastColumn _ _ := lastColumn?_eq_some_iff
  row := s.row_eq_filterMap
  rows_sorted := s.rows_sorted
  mem_rows n := by
    simp only [mem_rows_iff, mem_toList_iff]
    constructor
    · rintro ⟨column, v, h⟩
      exact ⟨⟨n, column⟩, v, h, rfl⟩
    · rintro ⟨a, v, h, rfl⟩
      exact ⟨a.column, v, h⟩

/-- **A store is a finite map.**  After any edits it represents the map that they write, and it
remembers the different texts that they write, cleared or not. -/
theorem represents_contents (edits : List Edit) :
    (after edits).Represents (contents edits) ∧
      (∀ t, t ∈ (after edits).texts.texts ↔ ∃ a, .set a (.text t) ∈ edits) ∧
      (after edits).texts.size = (edits.filterMap Edit.text?).toFinset.card := by
  refine ⟨get?_after edits ▸ represents_get? _, fun t => ?_, size_texts_after edits⟩
  rw [mem_texts_after_iff, List.mem_filterMap]
  constructor
  · rintro ⟨e, he, htext⟩
    obtain ⟨a, rfl⟩ := Edit.text?_eq_some_iff.mp htext
    exact ⟨a, he⟩
  · rintro ⟨a, ha⟩
    exact ⟨_, ha, rfl⟩

/-- A text is written over and then cleared by writing nothing into its cell: its row goes. -/
example :
    let s := after [.set ⟨2, 1⟩ (.text "new"), .set ⟨2, 1⟩ (.text "old"),
      .set ⟨0, 3⟩ (.boolean true), .set ⟨2, 1⟩ .empty, .remove ⟨5, 5⟩]
    (s.size, s.rows, s.isEmpty) = (1, [0], false) := by
  decide +kernel

end Store

end SheetRecords.Cell
