import SheetRecords.Proofs.Cell.Store
import SheetRecords.Scan.Order

/-!
# The cells of a scan come in order

Ranks and positions are linearly ordered by the comparisons that they are sorted with
(`Position.lt_iff`).  A grid is lawful (`Grid.IsLawful`) if it lists the cells of each sheet row by
row and reads the same values cell by cell; a workbook is such a grid (`Workbook.isLawful_grid`).
The scan of a lawful grid visits its cells in strictly increasing order (`Scan.visits_sorted`).
-/

namespace SheetRecords

open Cell

/-! ### Linear orders -/

instance : LinearOrder Rank := .ofStd _

instance : LinearOrder Position := .ofStd _

/-- Positions are ordered sheet by sheet. -/
theorem Position.lt_iff {p q : Position} :
    p < q ↔ p.rank < q.rank ∨ p.rank = q.rank ∧ p.address < q.address := by
  rw [← compare_lt_iff_lt, Position.compare_def, Ordering.then_eq_lt, compare_lt_iff_lt,
    compare_eq_iff_eq, compare_lt_iff_lt]

@[simp]
theorem Rank.sheet_lt_sheet {i j : Nat} : Rank.sheet i < .sheet j ↔ i < j := by
  rw [← compare_lt_iff_lt, Rank.compare_def]
  simp [Rank.key, Nat.compare_eq_lt]

theorem Rank.sheet_lt_unreachable (i : Nat) : Rank.sheet i < .unreachable := by
  rw [← compare_lt_iff_lt, Rank.compare_def]
  rfl

/-- All that comes before a sheet that is scanned is scanned. -/
theorem Rank.isReachable_of_le {r r' : Rank} (h : r ≤ r') (hr' : r'.isReachable = true) :
    r.isReachable = true := by
  cases r with
  | sheet i => rfl
  | unreachable =>
    cases r' with
    | sheet j => exact absurd h (not_le.mpr (Rank.sheet_lt_unreachable j))
    | unreachable => cases hr'

/-- The sheet of a position does not come after that of a later one. -/
theorem Position.rank_le_of_le {p q : Position} (h : q ≤ p) : q.rank ≤ p.rank := by
  rcases h.lt_or_eq with hlt | rfl
  · rcases Position.lt_iff.mp hlt with hlt | ⟨heq, -⟩
    · exact hlt.le
    · exact heq.le
  · exact le_rfl

theorem Position.isReachable_of_le {p q : Position} (h : q ≤ p)
    (hp : p.rank.isReachable = true) : q.rank.isReachable = true :=
  Rank.isReachable_of_le (Position.rank_le_of_le h) hp

/-! ### Lawful grids -/

/-- A grid that lists its cells row by row and reads the same values cell by cell. -/
structure Grid.IsLawful (g : Grid) : Prop where
  /-- The cells of a sheet are listed row by row, each once. -/
  cells_sorted : ∀ name, (g.cells name).Pairwise fun a b => a.1 < b.1
  /-- A cell is read as what it is listed with, and as nothing if it is not listed. -/
  value?_eq_some_iff : ∀ name a v, g.value? name a = some v ↔ (a, v) ∈ g.cells name

/-- A workbook reads the same values cell by cell and in a list. -/
theorem Workbook.isLawful_grid (w : Workbook) : w.grid.IsLawful where
  cells_sorted name := by
    change ((w.sheet? name).map (·.cells.toList)).getD [] |>.Pairwise _
    cases w.sheet? name with
    | none => exact List.Pairwise.nil
    | some sheet => exact sheet.cells.toList_sorted
  value?_eq_some_iff name a v := by
    change (w.sheet? name).bind (·.cells.get? a) = some v ↔
      (a, v) ∈ ((w.sheet? name).map (·.cells.toList)).getD []
    cases w.sheet? name with
    | none => simp
    | some sheet => exact Store.mem_toList_iff.symm

/-- A grid that knows how far the cells under each name reach. -/
structure Grid.KnowsExtent (g : Grid) : Prop where
  /-- The rows up to the last one are those with something in them or further down. -/
  lastRow : ∀ name n, (∃ last ∈ g.lastRow? name, n ≤ last) ↔
    ∃ b, n ≤ b.row ∧ (g.value? name b).isSome = true
  /-- The columns up to the last one of a row are those with something there or further right. -/
  lastColumn : ∀ name row n, (∃ last ∈ g.lastColumn? name row, n ≤ last) ↔
    ∃ b, b.row = row ∧ n ≤ b.column ∧ (g.value? name b).isSome = true

/-- A workbook knows how far the cells of its sheets reach. -/
theorem Workbook.knowsExtent_grid (w : Workbook) : w.grid.KnowsExtent where
  lastRow name n := by
    show (∃ last ∈ (w.sheet? name).bind (·.cells.lastRow?), n ≤ last) ↔
      ∃ b, n ≤ b.row ∧ ((w.sheet? name).bind (·.cells.get? b)).isSome = true
    cases w.sheet? name with
    | none => simp
    | some sheet => exact Store.le_lastRow?_iff
  lastColumn name row n := by
    show (∃ last ∈ (w.sheet? name).bind (·.cells.lastColumn? row), n ≤ last) ↔
      ∃ b, b.row = row ∧ n ≤ b.column ∧ ((w.sheet? name).bind (·.cells.get? b)).isSome = true
    cases w.sheet? name with
    | none => simp
    | some sheet => exact Store.le_lastColumn?_iff

/-! ### Ranks of sheets -/

namespace SheetOrder

theorem mem_dropRepeats {names : List String} {name : String} :
    name ∈ dropRepeats names ↔ name ∈ names := by
  induction names with
  | nil => rfl
  | cons first rest ih =>
    simp only [dropRepeats, List.mem_cons, List.mem_filter, ih, ne_eq, decide_eq_true_eq]
    tauto

/-- A sheet is scanned in one place only. -/
theorem index_unique (o : SheetOrder) {i j : Nat} {name : String}
    (hi : o.names[i]? = some name) (hj : o.names[j]? = some name) : i = j := by
  obtain ⟨hlt, -⟩ := List.getElem?_eq_some_iff.mp hi
  exact (List.getElem?_inj hlt o.nodup).mp (hi.trans hj.symm)

/-- The rank of a sheet is its place in the order. -/
theorem rank_of_getElem? {o : SheetOrder} {i : Nat} {name : String}
    (h : o.names[i]? = some name) : o.rank name = .sheet i := by
  have hfind : o.names.findIdx? (· = name) = some i := by
    rw [List.findIdx?_eq_some_iff_getElem]
    obtain ⟨hi, hname⟩ := List.getElem?_eq_some_iff.mp h
    refine ⟨hi, by simpa using hname, fun j hj => ?_⟩
    -- The name stands in one place only.
    have hne : o.names[j] ≠ name := by
      intro heq
      have hij := o.index_unique (List.getElem?_eq_some_iff.mpr ⟨hj.trans hi, heq⟩) h
      omega
    simpa using hne
  rw [rank, hfind]

end SheetOrder

/-! ### Visits -/

namespace Scan

variable {s : Scan}

theorem mem_sheetVisits_iff {i : Nat} {name : String} {v : Visit} :
    v ∈ s.sheetVisits i name ↔
      v.position.rank = .sheet i ∧ (v.position.address, v.value) ∈ s.grid.cells name := by
  constructor
  · intro hv
    obtain ⟨⟨a, x⟩, hmem, rfl⟩ := List.mem_map.mp hv
    exact ⟨rfl, hmem⟩
  · rintro ⟨hrank, hmem⟩
    refine List.mem_map.mpr ⟨_, hmem, ?_⟩
    rw [← hrank]

/-- The scan goes sheet by sheet. -/
theorem visits_eq_flatMap (s : Scan) :
    s.visits = s.order.names.zipIdx.flatMap fun sheet => s.sheetVisits sheet.2 sheet.1 := by
  rw [visits, List.mapIdx_eq_zipIdx_map, List.flatMap_def]

/-- The visits are those of the scanned sheets. -/
theorem mem_visits_iff {v : Visit} :
    v ∈ s.visits ↔ ∃ i name, s.order.names[i]? = some name ∧ v ∈ s.sheetVisits i name := by
  rw [visits_eq_flatMap, List.mem_flatMap]
  constructor
  · rintro ⟨⟨name, i⟩, hsheet, hv⟩
    exact ⟨i, name, List.mem_zipIdx_iff_getElem?.mp hsheet, hv⟩
  · rintro ⟨i, name, hname, hv⟩
    exact ⟨(name, i), List.mem_zipIdx_iff_getElem?.mpr hname, hv⟩

/-- Only sheets within reach are visited. -/
theorem isReachable_of_mem_visits {v : Visit} (hv : v ∈ s.visits) :
    v.position.rank.isReachable = true := by
  obtain ⟨i, name, -, hv⟩ := mem_visits_iff.mp hv
  rw [(mem_sheetVisits_iff.mp hv).1]
  rfl

/-- A visited cell reads as the value that it is visited with. -/
theorem value?_of_mem_visits (hs : s.grid.IsLawful) {v : Visit} (hv : v ∈ s.visits) :
    s.value? v.position = some v.value := by
  obtain ⟨i, name, hname, hv⟩ := mem_visits_iff.mp hv
  obtain ⟨hrank, hmem⟩ := mem_sheetVisits_iff.mp hv
  rw [value?, SheetOrder.name?, hrank, Rank.index?, Option.bind_some, hname, Option.bind_some]
  exact (hs.value?_eq_some_iff _ _ _).mpr hmem

theorem sheetVisits_sorted (hs : s.grid.IsLawful) (i : Nat) (name : String) :
    (s.sheetVisits i name).Pairwise fun u v => u.position < v.position := by
  refine List.pairwise_map.mpr ((hs.cells_sorted name).imp ?_)
  intro a b hab
  exact Position.lt_iff.mpr (.inr ⟨rfl, hab⟩)

/-- The cells are visited in strictly increasing order. -/
theorem visits_sorted (hs : s.grid.IsLawful) :
    s.visits.Pairwise fun u v => u.position < v.position := by
  refine List.pairwise_flatten.mpr ⟨?_, ?_⟩
  · intro vs hvs
    obtain ⟨i, hi, rfl⟩ := List.mem_mapIdx.mp hvs
    exact sheetVisits_sorted hs i _
  · rw [List.pairwise_iff_getElem]
    intro i j hi hj hij u hu v hv
    rw [List.getElem_mapIdx] at hu hv
    have hu := (mem_sheetVisits_iff.mp hu).1
    have hv := (mem_sheetVisits_iff.mp hv).1
    rw [Position.lt_iff, hu, hv]
    exact .inl (Rank.sheet_lt_sheet.mpr hij)

end Scan

end SheetRecords
