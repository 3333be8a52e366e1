import SheetRecords.Proofs.Record.Boundaries
import SheetRecords.Proofs.Record.Held
import SheetRecords.Proofs.Record.Locate

/-!
# Which cell a nested record takes its value from

With nested records the slots of a column stay over the rows of a sheet, and keep the first exact
value that they are offered; only metric values leave them, with the records of a row.  A record at
row `r` and column `c` therefore has, for a field that goes with columns, the value of the first
cell of the column that the field addresses, where a metric field starts afresh after each row with
a record for the column (`Prepared.offered`).  `Schema.get?_nested` states this for the cells of a
column down to the row of the record, and `headedTable` shows that it need not be the cell at `r`
and `c`.
-/

namespace SheetRecords

open Cell

/-! ### Rows -/

/-- The value that a cell gives to a field, if it lies in a column. -/
def PlannedField.sourceIn? (f : PlannedField) (c : Nat) (v : Visit) : Option Value :=
  if v.position.address.column = c then f.plan.sourceValue? v else none

theorem PlannedField.findSome?_sourceIn? (f : PlannedField) (c : Nat) (vs : List Visit) :
    vs.findSome? (f.sourceIn? c) =
      (vs.filter fun v => v.position.address.column = c).findSome? f.plan.sourceValue? := by
  induction vs with
  | nil => rfl
  | cons v vs ih =>
    rw [List.findSome?_cons, ih, List.filter_cons, sourceIn?]
    by_cases hc : v.position.address.column = c
    · simp [hc, List.findSome?_cons]
    · simp [hc]

/-- The first cell that gives a value is the first one that is addressed. -/
theorem PlannedField.findSome?_sourceValue? (f : PlannedField) (vs : List Visit) :
    vs.findSome? f.plan.sourceValue? =
      (vs.find? fun v => f.plan.addresses v.position).bind f.plan.sourceValue? := by
  induction vs with
  | nil => rfl
  | cons v vs ih =>
    have haddress := f.plan.isSome_sourceValue? v
    rw [List.findSome?_cons, List.find?_cons, ← haddress, ih]
    cases hv : f.plan.sourceValue? v with
    | none => rfl
    | some x => exact hv.symm

namespace Prepared

variable {p : Prepared} {f : PlannedField} {c : Nat}

/-- Whether a cell of the given rows is not behind a row that has taken the metric values of a
column along. -/
def IsOpen (p : Prepared) (f : PlannedField) (c : Nat) (rows : List (Nat × List Visit))
    (v : Visit) : Prop :=
  f.isMetric = true → ∀ x ∈ rows, v.position.address.row ≤ x.1 → some c ∉ p.rowColumns x.2

instance (rows : List (Nat × List Visit)) (v : Visit) : Decidable (p.IsOpen f c rows v) :=
  inferInstanceAs (Decidable (_ → _))

theorem isOpen_of_lt {rows : List (Nat × List Visit)} {v : Visit}
    (h : ∀ x ∈ rows, x.1 < v.position.address.row) : p.IsOpen f c rows v := by
  intro _ x hx hle
  exact absurd (h x hx) (not_lt.mpr hle)

theorem isOpen_append_iff {rows : List (Nat × List Visit)} {x : Nat × List Visit} {v : Visit} :
    p.IsOpen f c (rows ++ [x]) v ↔
      p.IsOpen f c rows v ∧
        (f.isMetric = true → v.position.address.row ≤ x.1 → some c ∉ p.rowColumns x.2) := by
  constructor
  · intro h
    exact ⟨fun hm y hy => h hm y (List.mem_append_left _ hy),
      fun hm => h hm x (by simp)⟩
  · rintro ⟨hrows, hx⟩ hm y hy
    rcases List.mem_append.mp hy with hy | hy
    · exact hrows hm y hy
    · rw [List.mem_singleton.mp hy]
      exact hx hm

theorem nodup_rowColumns (p : Prepared) (row : List Visit) : (p.rowColumns row).Nodup := by
  refine (p.pairwise_rowColumns row).imp ?_
  rintro a b ⟨m, n, rfl, rfl, hlt⟩ heq
  exact absurd (Option.some.inj heq) hlt.ne

/-! ### What the slot of a column holds -/

/-- The slot of the column, act by act. -/
abbrev holdColumn (f : PlannedField) (c : Nat) : Option Value → Act → Option Value :=
  (Track.start f .column).hold (some c)

theorem foldl_hold_observe (held : Option Value) (vs : List Visit) :
    (vs.map Act.observe).foldl (holdColumn f c) held = held.or (vs.findSome? (f.sourceIn? c)) := by
  rw [holdColumn, Track.foldl_hold_observe]
  simp only [Track.intake, Track.start, Option.some.injEq]
  rfl

theorem foldl_hold_emissions (held : Option Value) (columns : List (Option Nat))
    (origin : Option Nat → Origin) :
    (columns.map fun column => Act.emit true column (origin column)).foldl (holdColumn f c) held =
      if f.isMetric = true ∧ some c ∈ columns then none else held := by
  have hasked : (∃ column ∈ columns, (Track.start f .column).outlet true column = some (some c)) ↔
      some c ∈ columns := by
    simp [Track.outlet, Track.start, Option.map_eq_some_iff]
  rw [holdColumn, Track.foldl_hold_emissions]
  simp only [hasked]
  rfl

theorem foldl_hold_rowActs (held : Option Value) (name : String) (x : Nat × List Visit) :
    (p.rowActs name x).foldl (holdColumn f c) held =
      if f.isMetric = true ∧ some c ∈ p.rowColumns x.2 then none
      else held.or (x.2.findSome? (f.sourceIn? c)) := by
  rw [rowActs, List.foldl_append, List.foldl_append, foldl_hold_observe, rowEmissions,
    foldl_hold_emissions]
  rfl

/-- **Several rows of a sheet.**  The slot holds the value of the first open cell. -/
theorem foldl_hold_rows {name : String} {rows : List (Nat × List Visit)}
    (hrows : ∀ x ∈ rows, ∀ v ∈ x.2, v.position.address.row = x.1)
    (hsorted : rows.Pairwise fun x y => x.1 < y.1) :
    (rows.flatMap (p.rowActs name)).foldl (holdColumn f c) none =
      ((rows.flatMap (·.2)).filter fun v => p.IsOpen f c rows v).findSome? (f.sourceIn? c) := by
  induction rows using List.reverseRecOn with
  | nil => rfl
  | append_singleton rows x ih =>
    have hrows' : ∀ y ∈ rows, ∀ v ∈ y.2, v.position.address.row = y.1 := fun y hy =>
      hrows y (List.mem_append_left _ hy)
    obtain ⟨hsorted', -, hlast⟩ := List.pairwise_append.mp hsorted
    have hlt : ∀ y ∈ rows, y.1 < x.1 := fun y hy => hlast y hy x (List.mem_singleton_self x)
    have hx : ∀ v ∈ x.2, v.position.address.row = x.1 := hrows x (by simp)
    have hbefore : ∀ v ∈ rows.flatMap (·.2), v.position.address.row ≤ x.1 := by
      intro v hv
      obtain ⟨y, hy, hv⟩ := List.mem_flatMap.mp hv
      rw [hrows' y hy v hv]
      exact (hlt y hy).le
    rw [List.flatMap_append, List.flatMap_singleton, List.foldl_append, ih hrows' hsorted',
      foldl_hold_rowActs, List.flatMap_append, List.flatMap_singleton]
    by_cases htaken : f.isMetric = true ∧ some c ∈ p.rowColumns x.2
    · -- The row takes the value along, and no cell so far is open any more.
      have hnone : ((rows.flatMap (·.2) ++ x.2).filter
          fun v => p.IsOpen f c (rows ++ [x]) v) = [] := by
        refine List.filter_eq_nil_iff.mpr ?_
        intro v hv
        rw [decide_eq_true_eq, isOpen_append_iff]
        rintro ⟨-, hopen⟩
        have hle : v.position.address.row ≤ x.1 := by
          rcases List.mem_append.mp hv with hv | hv
          · exact hbefore v hv
          · exact (hx v hv).le
        exact hopen htaken.1 hle htaken.2
      rw [if_pos htaken, hnone]
      rfl
    · -- Otherwise the cells that were open stay so, and those of the row join them.
      have hold : ((rows.flatMap (·.2)).filter fun v => p.IsOpen f c (rows ++ [x]) v) =
          (rows.flatMap (·.2)).filter fun v => p.IsOpen f c rows v := by
        refine List.filter_congr ?_
        intro v _
        rw [decide_eq_decide, isOpen_append_iff]
        exact and_iff_left fun hmetric _ hc => htaken ⟨hmetric, hc⟩
      have hnew : (x.2.filter fun v => p.IsOpen f c (rows ++ [x]) v) = x.2 := by
        refine List.filter_eq_self.mpr ?_
        intro v hv
        rw [decide_eq_true_eq, isOpen_append_iff]
        refine ⟨isOpen_of_lt fun y hy => ?_, fun hmetric _ hc => htaken ⟨hmetric, hc⟩⟩
        rw [hx v hv]
        exact hlt y hy
      rw [if_neg htaken, List.filter_append, hold, hnew, List.findSome?_append]

/-- Nothing is held from one sheet to the next. -/
theorem foldl_hold_sheets (sheets : List (String × Nat)) :
    (sheets.flatMap fun sheet => p.sheetActs sheet.1 (p.scan.sheetVisits sheet.2 sheet.1)).foldl
      (holdColumn f c) none = none := by
  refine Track.foldl_hold_flatMap _ _ ?_
  intro sheet _
  rw [sheetActs]
  split_ifs
  · rfl
  · -- Whatever the rows leave behind, closing the sheet empties the slot.
    rw [List.foldl_append]
    rfl

/-! ### Records -/

/-- The cells of a sheet, down to row `r`, whose value a record at row `r` and column `c` may have:
those of the column, and for a metric field those after the last row before `r` with a record for
the column. -/
def offered (p : Prepared) (f : PlannedField) (i : Nat) (name : String) (r c : Nat) : List Visit :=
  (p.scan.sheetVisits i name).filter fun v =>
    v.position.address.column = c ∧ v.position.address.row ≤ r ∧
      (f.isMetric = true → ∀ r' < r, v.position.address.row ≤ r' →
        (⟨some name, some r', some c⟩ : Origin) ∉ p.origins)

section Offered

variable {i : Nat} {name : String} {r : Nat} {row : List Visit}
  {above below : List (Nat × List Visit)}

/-- The rows above with a record for the column are those that the origins name. -/
theorem forall_not_mem_origins_iff (hp : p.IsLawful) (hgrouping : p.grouping = .nested)
    (hname : p.scan.order.names[i]? = some name)
    (hrows : rowsOf (p.scan.sheetVisits i name) = above ++ (r, row) :: below) (n : Nat) :
    (∀ r' < r, n ≤ r' → (⟨some name, some r', some c⟩ : Origin) ∉ p.origins) ↔
      ∀ x ∈ above, n ≤ x.1 → some c ∉ p.rowColumns x.2 := by
  have hsorted := hp.rowsOf_sorted i name
  rw [hrows, List.pairwise_append, List.pairwise_cons] at hsorted
  obtain ⟨-, ⟨hbelow, -⟩, habove⟩ := hsorted
  constructor
  · intro h x hx hle hc
    have hlt : x.1 < r := habove x hx (r, row) (List.mem_cons_self ..)
    refine h x.1 hlt hle ((mem_origins_iff hp hgrouping hname).mpr ⟨x.2, ?_, hc⟩)
    rw [hrows]
    exact List.mem_append_left _ hx
  · intro h r' hr' hle hmem
    obtain ⟨row', hrow', hc⟩ := (mem_origins_iff hp hgrouping hname).mp hmem
    rw [hrows] at hrow'
    rcases List.mem_append.mp hrow' with hx | hx
    · exact h (r', row') hx hle hc
    · -- The row of the record and those below it do not lie above it.
      rcases List.mem_cons.mp hx with heq | hx
      · rw [Prod.mk.injEq] at heq
        omega
      · have hlt : r < r' := hbelow (r', row') hx
        omega

/-- The cells offered are those of the column which are open after the rows above. -/
theorem findSome?_offered (hp : p.IsLawful) (hgrouping : p.grouping = .nested)
    (hname : p.scan.order.names[i]? = some name)
    (hrows : rowsOf (p.scan.sheetVisits i name) = above ++ (r, row) :: below) :
    (p.offered f i name r c).findSome? f.plan.sourceValue? =
      (((above.flatMap (·.2)).filter fun v => p.IsOpen f c above v) ++ row).findSome?
        (f.sourceIn? c) := by
  have hopen := fun v : Visit =>
    forall_not_mem_origins_iff (c := c) hp hgrouping hname hrows v.position.address.row
  have hsorted := hp.rowsOf_sorted i name
  rw [hrows, List.pairwise_append, List.pairwise_cons] at hsorted
  obtain ⟨-, ⟨hbelow, -⟩, habove⟩ := hsorted
  have hin : ∀ x ∈ above ++ (r, row) :: below, ∀ v ∈ x.2, v.position.address.row = x.1 := by
    rw [← hrows]
    exact fun x hx => (of_mem_rowsOf hx).2
  have hlt : ∀ x ∈ above, x.1 < r := fun x hx => habove x hx (r, row) (List.mem_cons_self ..)
  -- The three parts of the sheet: no cell below the row counts,
  have hafter : ((below.flatMap (·.2)).filter fun v =>
      v.position.address.column = c ∧ v.position.address.row ≤ r ∧
        (f.isMetric = true → ∀ r' < r, v.position.address.row ≤ r' →
          (⟨some name, some r', some c⟩ : Origin) ∉ p.origins)) = [] := by
    refine List.filter_eq_nil_iff.mpr ?_
    intro v hv
    obtain ⟨x, hx, hv⟩ := List.mem_flatMap.mp hv
    have hvx := hin x (by simp [hx]) v hv
    have hrx : r < x.1 := hbelow x hx
    rw [decide_eq_true_eq]
    rintro ⟨-, hle, -⟩
    omega
  rw [offered, ← flatMap_rowsOf (p.scan.sheetVisits i name), hrows, List.flatMap_append,
    List.flatMap_cons, ← List.append_assoc, List.filter_append, List.findSome?_append, hafter,
    List.findSome?_nil, Option.or_none, PlannedField.findSome?_sourceIn?]
  congr 1
  rw [List.filter_append, List.filter_append, List.filter_filter]
  congr 1
  · -- the cells above count if they are open,
    refine List.filter_congr ?_
    intro v hv
    obtain ⟨x, hx, hv⟩ := List.mem_flatMap.mp hv
    have hle : v.position.address.row ≤ r := by
      rw [hin x (List.mem_append_left _ hx) v hv]
      exact (hlt x hx).le
    rw [← Bool.decide_and, decide_eq_decide, IsOpen, hopen]
    tauto
  · -- and those of the row all do.
    refine List.filter_congr ?_
    intro v hv
    have hrow : v.position.address.row = r := hin (r, row) (by simp) v hv
    have hvacuous : ∀ x ∈ above, r ≤ x.1 → some c ∉ p.rowColumns x.2 := fun x hx hle =>
      absurd (hlt x hx) (not_lt.mpr hle)
    rw [decide_eq_decide, hopen, hrow]
    tauto

end Offered

/-- What the slot of a column holds before the record of a row for the column. -/
theorem foldl_hold_actsBefore (hp : p.IsLawful) {sheets : List (String × Nat)} {i r : Nat}
    {name : String} {row : List Visit} {above below : List (Nat × List Visit)}
    (hrows : rowsOf (p.scan.sheetVisits i name) = above ++ (r, row) :: below)
    {before : List (Option Nat)} (hbefore : some c ∉ before) :
    (p.actsBefore sheets name above (r, row) before).foldl (holdColumn f c) none =
      (((above.flatMap (·.2)).filter fun v => p.IsOpen f c above v) ++ row).findSome?
        (f.sourceIn? c) := by
  have hin : ∀ x ∈ above, ∀ v ∈ x.2, v.position.address.row = x.1 := by
    intro x hx
    have hmem : (x.1, x.2) ∈ rowsOf (p.scan.sheetVisits i name) := by
      rw [hrows]
      exact List.mem_append_left _ hx
    exact (of_mem_rowsOf hmem).2
  have hsorted := (List.pairwise_append.mp (hrows ▸ hp.rowsOf_sorted i name)).1
  rw [actsBefore, List.foldl_append, List.foldl_append, List.foldl_append, foldl_hold_sheets,
    foldl_hold_rows hin hsorted, foldl_hold_observe, foldl_hold_emissions,
    if_neg fun hmem => hbefore hmem.2, ← List.findSome?_append]

/-- A record at row `r` and column `c` has the value of a cell that is offered, if there is one. -/
theorem eq_of_mem_given (hp : p.IsLawful) (hgrouping : p.grouping = .nested) (hf : f ∈ p.fields)
    (hrole : p.role f = .column) {i : Nat} {name : String}
    (hname : p.scan.order.names[i]? = some name) {r : Nat} {x : Option Value}
    (h : (⟨some name, some r, some c⟩, x) ∈ (Track.start f (p.role f)).given p.scan p.schedule)
    {y : Value} (hy : (p.offered f i name r c).findSome? f.plan.sourceValue? = some y) :
    x = some y := by
  obtain ⟨sheets, above, row, below, before, after, hrows, hcolumns, horder, hx⟩ :=
    exists_row_of_mem_given hp hname h
  -- In its row no record for the column has come before it.
  have hbefore : some c ∉ before := by
    have hnodup := p.nodup_rowColumns row
    rw [hcolumns] at hnodup
    exact fun hmem => (List.nodup_append.mp hnodup).2.2 _ hmem _ (List.mem_cons_self ..) rfl
  have hheld := Track.exactValue?_after (hp.plans f hf) (isConstant_of_role (.inr hrole))
    (p.role f) horder (some c)
  rw [hrole, foldl_hold_actsBefore hp hrows hbefore, ← findSome?_offered hp hgrouping hname hrows,
    hy] at hheld
  rw [hx, hrole, Track.value?_eq_slotAt, Track.outlet, Track.after_role]
  exact Slot.value?_of_exactValue? hheld

/-- A visit to a cell of the row of the record is offered. -/
theorem mem_offered_self {i : Nat} {name : String} {r c : Nat} {x : Value}
    (hx : (⟨r, c⟩, x) ∈ p.scan.grid.cells name) :
    (⟨⟨.sheet i, ⟨r, c⟩⟩, x⟩ : Visit) ∈ p.offered f i name r c := by
  rw [offered, List.mem_filter, decide_eq_true_eq]
  refine ⟨Scan.mem_sheetVisits_iff.mpr ⟨rfl, hx⟩, rfl, le_rfl, ?_⟩
  intro _ r' hr' hle
  exact absurd hr' (not_lt.mpr hle)

/-- The first cell that is offered and addressed decides. -/
theorem get?_eq_sourceValue? (hp : p.IsLawful) (hgrouping : p.grouping = .nested)
    {record : Record} (hrecord : record ∈ recordsOf p.scan p.names p.tracks p.schedule) {i : Nat}
    {name : String} (hname : p.scan.order.names[i]? = some name) {r c : Nat}
    (horigin : record.origin = ⟨some name, some r, some c⟩) (hf : f ∈ p.fields)
    (hrole : p.role f = .column) {x : Value} (hx : p.scan.grid.value? name ⟨r, c⟩ = some x)
    (haddress : f.plan.addresses ⟨.sheet i, ⟨r, c⟩⟩ = true) :
    ∃ v y, (p.offered f i name r c).find? (fun v => f.plan.addresses v.position) = some v ∧
      f.plan.sourceValue? v = some y ∧ record.get? f.name = some y := by
  -- The cell of the record is offered itself, so that there is a first one.
  have hself := p.mem_offered_self (f := f) (i := i) ((hp.grid.value?_eq_some_iff ..).mp hx)
  obtain ⟨v, hv⟩ : ∃ v, (p.offered f i name r c).find? (fun v => f.plan.addresses v.position) =
      some v :=
    Option.isSome_iff_exists.mp (List.find?_isSome.mpr ⟨_, hself, haddress⟩)
  have hsource := List.find?_some hv
  rw [← Plan.isSome_sourceValue?] at hsource
  obtain ⟨y, hy⟩ := Option.isSome_iff_exists.mp hsource
  refine ⟨v, y, hv, hy, ?_⟩
  have hgiven : (⟨some name, some r, some c⟩, record.get? f.name) ∈
      (Track.start f (p.role f)).given p.scan p.schedule := by
    rw [← get?_recordsOf hp hf, ← horigin]
    exact List.mem_map.mpr ⟨record, hrecord, rfl⟩
  refine eq_of_mem_given hp hgrouping hf hrole hname hgiven ?_
  rw [PlannedField.findSome?_sourceValue?, hv]
  exact hy

/-- If every cell of the column above that a metric field addresses has a record, as in a cross
table, the record has the value of its own cell. -/
theorem get?_eq_own (hp : p.IsLawful) (hgrouping : p.grouping = .nested)
    {record : Record} (hrecord : record ∈ recordsOf p.scan p.names p.tracks p.schedule) {i : Nat}
    {name : String} (hname : p.scan.order.names[i]? = some name) {r c : Nat}
    (horigin : record.origin = ⟨some name, some r, some c⟩) (hf : f ∈ p.fields)
    (hrole : p.role f = .column) {x : Value} (hx : p.scan.grid.value? name ⟨r, c⟩ = some x)
    (haddress : f.plan.addresses ⟨.sheet i, ⟨r, c⟩⟩ = true) (hmetric : f.isMetric = true)
    (habove : ∀ r' < r, f.plan.addresses ⟨.sheet i, ⟨r', c⟩⟩ = true →
      (⟨some name, some r', some c⟩ : Origin) ∈ p.origins) :
    record.get? f.name = f.plan.sourceValue? ⟨⟨.sheet i, ⟨r, c⟩⟩, x⟩ := by
  obtain ⟨v, y, hv, hy, hget⟩ :=
    get?_eq_sourceValue? hp hgrouping hrecord hname horigin hf hrole hx haddress
  obtain ⟨⟨rank, ⟨r', c'⟩⟩, x'⟩ := v
  have hmem := List.mem_of_find?_eq_some hv
  rw [offered, List.mem_filter, decide_eq_true_eq] at hmem
  obtain ⟨hvisit, rfl, hle, hfresh⟩ := hmem
  obtain ⟨rfl, hcell⟩ := Scan.mem_sheetVisits_iff.mp hvisit
  have haddress' := List.find?_some hv
  -- A cell above gives its value away with the record of its row.
  obtain rfl : r' = r := by
    by_contra hne
    have hlt : r' < r := lt_of_le_of_ne hle hne
    exact hfresh hmetric r' hlt le_rfl (habove r' hlt haddress')
  obtain rfl : x' = x :=
    Option.some.inj (((hp.grid.value?_eq_some_iff ..).mpr hcell).symm.trans hx)
  rw [hget, hy]

end Prepared

/-- **Nested records.**  For a field that goes with columns, a record at a row and a column in which
the field addresses the cell has the value of the first cell of the column, down to this one, that
the field addresses; for a metric field only the cells after the last row above with a record for
the column count. -/
theorem Schema.get?_nested {schema : Schema} {w : Workbook} {e : Extraction}
    (h : schema.extract w = .ok e) :
    ∃ p, schema.prepare w = .ok p ∧ (p.grouping = .nested →
      ∀ record ∈ e.records, ∀ i name r c, p.scan.order.names[i]? = some name →
        record.origin = ⟨some name, some r, some c⟩ →
        ∀ f ∈ p.fields, p.role f = .column →
          (w.value? name ⟨r, c⟩).isSome = true → f.plan.addresses ⟨.sheet i, ⟨r, c⟩⟩ = true →
          ∃ v x, (p.offered f i name r c).find? (fun v => f.plan.addresses v.position) = some v ∧
            f.plan.sourceValue? v = some x ∧ record.get? f.name = some x) := by
  obtain ⟨p, hprepare, hp, hsublist⟩ := Schema.sublist_recordsOf w.isLawful_grid h
  obtain ⟨-, hgrid, -, -⟩ := Schema.of_prepare_eq_ok hprepare
  refine ⟨p, hprepare, ?_⟩
  intro hgrouping record hrecord i name r c hname horigin f hf hrole hpopulated haddress
  obtain ⟨x, hx⟩ := Option.isSome_iff_exists.mp hpopulated
  have hx : p.scan.grid.value? name ⟨r, c⟩ = some x := by
    rw [hgrid]
    exact hx
  exact Prepared.get?_eq_sourceValue? hp hgrouping (hsublist.subset hrecord) hname horigin hf hrole
    hx haddress

/-- The only record of the table: its body is the heading. -/
def headedRecord : Record :=
  ⟨["label", "body"], [some (.boolean false), some (.boolean true)],
    ⟨some "Table", some 1, some 1⟩⟩

theorem records_headedTable : (Extraction.start headedPrepared none).records = [headedRecord] := rfl

/-- The heading comes first among the cells that are offered, and the record has its value. -/
theorem Schema.get?_nested_headedTable :
    headedSchema.extract headedTable = .ok (.start headedPrepared none) ∧
      headedRecord ∈ (Extraction.start headedPrepared none).records ∧
      ∃ v x, (headedPrepared.offered ⟨"body", false, some 1, .columnScan none 1 0⟩ 0 "Table" 1
          1).find? (fun v => (Plan.columnScan none 1 0).addresses v.position) = some v ∧
        (Plan.columnScan none 1 0).sourceValue? v = some x ∧
        headedRecord.get? "body" = some x := by
  have hextract : headedSchema.extract headedTable = .ok (.start headedPrepared none) := rfl
  have hmem : headedRecord ∈ (Extraction.start headedPrepared none).records := by
    rw [records_headedTable]
    exact List.mem_singleton_self _
  refine ⟨hextract, hmem, ?_⟩
  obtain ⟨p, hprepare, hnested⟩ := Schema.get?_nested hextract
  obtain rfl : headedPrepared = p := Except.ok.inj (prepare_headedSchema.symm.trans hprepare)
  exact hnested rfl headedRecord hmem 0 "Table" 1 1 rfl rfl
    ⟨"body", false, some 1, .columnScan none 1 0⟩
    (List.mem_cons_of_mem _ (List.mem_singleton_self _)) rfl rfl rfl

/-- A nested record need not have the value of its own cell, not even if no row above has a
record. -/
theorem Schema.get?_nested_ne_own :
    headedSchema.extract headedTable = .ok (.start headedPrepared none) ∧
      headedPrepared.grouping = .nested ∧
      headedRecord ∈ (Extraction.start headedPrepared none).records ∧
      headedRecord.origin = ⟨some "Table", some 1, some 1⟩ ∧
      (∃ f ∈ headedPrepared.fields, f.name = "body" ∧ headedPrepared.role f = .column ∧
        f.plan.addresses ⟨.sheet 0, ⟨1, 1⟩⟩ = true) ∧
      headedTable.value? "Table" ⟨1, 1⟩ = some (.boolean false) ∧
      headedRecord.get? "body" = some (.boolean true) := by
  refine ⟨rfl, rfl, ?_, rfl, ?_, rfl, rfl⟩
  · rw [records_headedTable]
    exact List.mem_singleton_self _
  · exact ⟨_, List.mem_cons_of_mem _ (List.mem_singleton_self _), rfl, rfl, rfl⟩

end SheetRecords
