import SheetRecords.Proofs.Record.Run

/-!
# Where records are put together

`Prepared.origins` lists the origins of the records as the documentation has them, from the source
cells of the sheets alone: a record for each row with a source that goes with rows, for each column
of a sheet with a source that goes with columns, or for each such column of each such row.
`Schema.origins_records` states that these are the origins of the records of an extraction, in this
order.
-/

namespace SheetRecords

open Cell

namespace Prepared

variable (p : Prepared)

/-! ### The documented origins -/

/-- The cells of the `i`-th scanned sheet that hold something and are sources of some field of a
role. -/
def sources (role : Role) (i : Nat) (name : String) : List Address :=
  ((p.scan.grid.cells name).map (·.1)).filter fun a => p.isSource role ⟨.sheet i, a⟩

/-- The rows of a sheet that have records. -/
def recordRows (i : Nat) (name : String) : List Nat :=
  ascending ((p.sources .row i name).map (·.row))

/-- One record for each row. -/
def rowOrigins (i : Nat) (name : String) : List Origin :=
  (p.recordRows i name).map fun r => ⟨some name, some r, none⟩

/-- One record for each column. -/
def columnOrigins (i : Nat) (name : String) : List Origin :=
  (ascending ((p.sources .column i name).map (·.column))).map fun c => ⟨some name, none, some c⟩

/-- One record for each column of a row, or a single one for the row. -/
def cellOrigins (i : Nat) (name : String) (r : Nat) : List Origin :=
  match ascending (((p.sources .column i name).filter (·.row = r)).map (·.column)) with
  | [] => [⟨some name, some r, none⟩]
  | columns => columns.map fun c => ⟨some name, some r, some c⟩

/-- The records of each row. -/
def nestedOrigins (i : Nat) (name : String) : List Origin :=
  (p.recordRows i name).flatMap (p.cellOrigins i name)

/-- Where the records of an extraction are put together, in order. -/
def origins : List Origin :=
  match p.grouping with
  | .rows => p.scan.order.names.zipIdx.flatMap fun sheet => p.rowOrigins sheet.2 sheet.1
  | .columns => p.scan.order.names.zipIdx.flatMap fun sheet => p.columnOrigins sheet.2 sheet.1
  | .nested => p.scan.order.names.zipIdx.flatMap fun sheet => p.nestedOrigins sheet.2 sheet.1
  | .document => [⟨none, none, none⟩]

end Prepared

/-- The columns of two records of one row or sheet, in the order of the records. -/
def ColumnBefore (a b : Option Nat) : Prop :=
  ∃ m n, a = some m ∧ b = some n ∧ m < n

/-- Of two records of one row or sheet, the one for the column further left comes first. -/
def Origin.Before (o o' : Origin) : Prop :=
  o.sheet = o'.sheet → o.row = o'.row → ColumnBefore o.column o'.column

/-! ### Rows and their visits -/

/-- The visits of a row are those of the sheet that lie in it. -/
theorem mem_row_iff {vs : List Visit}
    (hsorted : (rowsOf vs).Pairwise fun x y => x.1 < y.1) {r : Nat} {row : List Visit}
    (hrow : (r, row) ∈ rowsOf vs) {v : Visit} :
    v ∈ row ↔ v ∈ vs ∧ v.position.address.row = r := by
  constructor
  · intro hv
    refine ⟨?_, (of_mem_rowsOf hrow).2 v hv⟩
    rw [← flatMap_rowsOf vs]
    exact List.mem_flatMap.mpr ⟨(r, row), hrow, hv⟩
  · rintro ⟨hv, hr⟩
    rw [← flatMap_rowsOf vs] at hv
    obtain ⟨⟨r', row'⟩, hrow', hv⟩ := List.mem_flatMap.mp hv
    have hr' : r' = r := ((of_mem_rowsOf hrow').2 v hv).symm.trans hr
    -- No two rows have the same number.
    have hnodup : ((rowsOf vs).map (·.1)).Nodup :=
      List.pairwise_map.mpr (hsorted.imp fun hlt => hlt.ne)
    have heq : ((r', row') : Nat × List Visit) = (r, row) :=
      List.inj_on_of_nodup_map hnodup hrow' hrow hr'
    rw [Prod.mk.injEq] at heq
    rw [← heq.2]
    exact hv

namespace Prepared

variable {p : Prepared}

theorem mem_sources_iff {role : Role} {i : Nat} {name : String} {a : Address} :
    a ∈ p.sources role i name ↔
      ∃ v ∈ p.scan.sheetVisits i name, v.position.address = a ∧ p.isSource role v.position := by
  rw [sources, List.mem_filter, List.mem_map]
  constructor
  · rintro ⟨⟨⟨a, x⟩, hmem, rfl⟩, hsource⟩
    exact ⟨⟨⟨.sheet i, a⟩, x⟩, Scan.mem_sheetVisits_iff.mpr ⟨rfl, hmem⟩, rfl, hsource⟩
  · rintro ⟨v, hv, rfl, hsource⟩
    obtain ⟨hrank, hmem⟩ := Scan.mem_sheetVisits_iff.mp hv
    refine ⟨⟨_, hmem, rfl⟩, ?_⟩
    rw [← hrank]
    exact hsource

/-- The rows that have records, among the rows of the visits. -/
theorem recordRows_eq (hp : p.IsLawful) (i : Nat) (name : String) :
    p.recordRows i name =
      ((rowsOf (p.scan.sheetVisits i name)).filter fun x =>
        x.2.any fun v => p.isSource .row v.position).map (·.1) := by
  symm
  refine eq_ascending (List.Pairwise.sortedLT (List.pairwise_map.mpr ?_)) ?_
  · exact (hp.rowsOf_sorted i name).filter _
  · intro r
    rw [List.mem_map, List.mem_map]
    constructor
    · rintro ⟨⟨r, row⟩, hx, rfl⟩
      obtain ⟨hrow, hany⟩ := List.mem_filter.mp hx
      obtain ⟨v, hv, hsource⟩ := List.any_eq_true.mp hany
      obtain ⟨hmem, hr⟩ := (mem_row_iff (hp.rowsOf_sorted i name) hrow).mp hv
      exact ⟨_, mem_sources_iff.mpr ⟨v, hmem, rfl, hsource⟩, hr⟩
    · rintro ⟨a, ha, rfl⟩
      obtain ⟨v, hv, rfl, hsource⟩ := mem_sources_iff.mp ha
      rw [← flatMap_rowsOf (p.scan.sheetVisits i name)] at hv
      obtain ⟨⟨r, row⟩, hrow, hv⟩ := List.mem_flatMap.mp hv
      refine ⟨(r, row), List.mem_filter.mpr ⟨hrow, List.any_eq_true.mpr ⟨v, hv, hsource⟩⟩, ?_⟩
      exact ((of_mem_rowsOf hrow).2 v hv).symm

/-- The columns of a row that have records. -/
theorem ascending_sourceColumns_row (hp : p.IsLawful) {i : Nat} {name : String} {r : Nat}
    {row : List Visit} (hrow : (r, row) ∈ rowsOf (p.scan.sheetVisits i name)) :
    ascending (p.sourceColumns row) =
      ascending (((p.sources .column i name).filter (·.row = r)).map (·.column)) := by
  refine eq_ascending (sortedLT_ascending _) fun c => ?_
  rw [mem_ascending, sourceColumns, List.mem_map, List.mem_map]
  constructor
  · rintro ⟨v, hv, rfl⟩
    obtain ⟨hv, hsource⟩ := List.mem_filter.mp hv
    obtain ⟨hmem, hr⟩ := (mem_row_iff (hp.rowsOf_sorted i name) hrow).mp hv
    refine ⟨v.position.address, List.mem_filter.mpr ⟨?_, decide_eq_true hr⟩, rfl⟩
    exact mem_sources_iff.mpr ⟨v, hmem, rfl, hsource⟩
  · rintro ⟨a, ha, rfl⟩
    obtain ⟨ha, hr⟩ := List.mem_filter.mp ha
    obtain ⟨v, hv, rfl, hsource⟩ := mem_sources_iff.mp ha
    have hmem := (mem_row_iff (hp.rowsOf_sorted i name) hrow).mpr ⟨hv, of_decide_eq_true hr⟩
    exact ⟨v, List.mem_filter.mpr ⟨hmem, hsource⟩, rfl⟩

/-- The columns of a sheet that have records. -/
theorem ascending_sourceColumns_sheet (i : Nat) (name : String) :
    ascending (p.sourceColumns (p.scan.sheetVisits i name)) =
      ascending ((p.sources .column i name).map (·.column)) := by
  refine eq_ascending (sortedLT_ascending _) fun c => ?_
  rw [mem_ascending, sourceColumns, List.mem_map, List.mem_map]
  constructor
  · rintro ⟨v, hv, rfl⟩
    obtain ⟨hv, hsource⟩ := List.mem_filter.mp hv
    exact ⟨_, mem_sources_iff.mpr ⟨v, hv, rfl, hsource⟩, rfl⟩
  · rintro ⟨a, ha, rfl⟩
    obtain ⟨v, hv, rfl, hsource⟩ := mem_sources_iff.mp ha
    exact ⟨v, List.mem_filter.mpr ⟨hv, hsource⟩, rfl⟩

/-! ### The origins of the schedule -/

/-- The columns for which a row with records has them. -/
def recordColumns (p : Prepared) (row : List Visit) : List (Option Nat) :=
  match p.grouping with
  | .rows => [none]
  | .nested =>
    match ascending (p.sourceColumns row) with
    | [] => [none]
    | columns => columns.map some
  | _ => []

theorem rowColumns_eq (row : List Visit) :
    p.rowColumns row =
      if row.any fun v => p.isSource .row v.position then p.recordColumns row else [] := rfl

theorem flatMap_filter_of_eq_nil {α β : Type} {l : List α} (keep : α → Bool) {f : α → List β}
    (h : ∀ x, keep x = false → f x = []) : (l.filter keep).flatMap f = l.flatMap f := by
  induction l with
  | nil => rfl
  | cons x l ih =>
    rw [List.filter_cons, List.flatMap_cons]
    cases hx : keep x with
    | true => rw [if_pos rfl, List.flatMap_cons, ih]
    | false => rw [if_neg Bool.false_ne_true, ih, h x hx, List.nil_append]

/-- The origins of the records of the rows of a sheet. -/
theorem flatMap_rowColumns (hp : p.IsLawful) (i : Nat) (name : String) :
    ((rowsOf (p.scan.sheetVisits i name)).flatMap fun x =>
        (p.rowColumns x.2).map fun c => (⟨some name, some x.1, c⟩ : Origin)) =
      match p.grouping with
      | .rows => p.rowOrigins i name
      | .nested => p.nestedOrigins i name
      | _ => [] := by
  have hkeep : ∀ x : Nat × List Visit, (x.2.any fun v => p.isSource .row v.position) = true →
      p.rowColumns x.2 = p.recordColumns x.2 := by
    intro x hx
    rw [rowColumns_eq, if_pos hx]
  -- Rows without a source have no records, and may be left out beforehand.
  rw [← flatMap_filter_of_eq_nil fun x => x.2.any fun v => p.isSource .row v.position]
  · rw [rowOrigins, nestedOrigins, recordRows_eq hp, List.map_map, List.flatMap_map]
    cases hgrouping : p.grouping with
    | rows =>
      rw [List.map_eq_flatMap]
      refine List.flatMap_congr fun x hx => ?_
      rw [hkeep x (List.mem_filter.mp hx).2, recordColumns, hgrouping]
      rfl
    | nested =>
      refine List.flatMap_congr fun x hx => ?_
      obtain ⟨hrow, hany⟩ := List.mem_filter.mp hx
      rw [hkeep x hany, recordColumns, hgrouping, cellOrigins,
        ← ascending_sourceColumns_row hp hrow]
      cases ascending (p.sourceColumns x.2) with
      | nil => rfl
      | cons c columns => simp
    | columns =>
      refine List.flatMap_eq_nil_iff.mpr fun x hx => ?_
      rw [hkeep x (List.mem_filter.mp hx).2, recordColumns, hgrouping]
      rfl
    | document =>
      refine List.flatMap_eq_nil_iff.mpr fun x hx => ?_
      rw [hkeep x (List.mem_filter.mp hx).2, recordColumns, hgrouping]
      rfl
  · intro x hx
    rw [rowColumns_eq, hx]
    rfl

theorem filterMap_origin?_emissions (ofRow : Bool) (columns : List (Option Nat))
    (origin : Option Nat → Origin) :
    (columns.map fun column => Act.emit ofRow column (origin column)).filterMap Act.origin? =
      columns.map origin := by
  rw [List.filterMap_map]
  exact congrFun (List.filterMap_eq_map (f := origin)) columns

/-- Observing and closing put no records together. -/
theorem filterMap_origin?_rowActs (name : String) (x : Nat × List Visit) :
    (p.rowActs name x).filterMap Act.origin? =
      (p.rowColumns x.2).map fun c => ⟨some name, some x.1, c⟩ := by
  have hobserve : (x.2.map Act.observe).filterMap Act.origin? = [] := by
    rw [List.filterMap_map]
    exact List.filterMap_eq_nil_iff.mpr fun v _ => rfl
  rw [rowActs, List.filterMap_append, List.filterMap_append, hobserve, rowEmissions,
    filterMap_origin?_emissions]
  simp [Act.origin?]

theorem filterMap_origin?_sheetActs (name : String) (vs : List Visit) :
    (p.sheetActs name vs).filterMap Act.origin? =
      ((rowsOf vs).flatMap fun x => (p.rowColumns x.2).map fun c => ⟨some name, some x.1, c⟩) ++
        (p.sheetColumns vs).map fun c => ⟨some name, none, c⟩ := by
  rw [sheetActs]
  split_ifs with hvs
  · rw [hvs]
    simp [rowsOf, sheetColumns, sourceColumns, ascending]
  · rw [List.filterMap_append, List.filterMap_append, List.filterMap_flatMap, sheetEmissions,
      filterMap_origin?_emissions]
    simp [filterMap_origin?_rowActs, Act.origin?]

/-- The origins of the records of a sheet. -/
theorem filterMap_origin?_sheet (hp : p.IsLawful) (i : Nat) (name : String) :
    (p.sheetActs name (p.scan.sheetVisits i name)).filterMap Act.origin? =
      match p.grouping with
      | .rows => p.rowOrigins i name
      | .columns => p.columnOrigins i name
      | .nested => p.nestedOrigins i name
      | .document => [] := by
  rw [filterMap_origin?_sheetActs, flatMap_rowColumns hp, sheetColumns, columnOrigins,
    ascending_sourceColumns_sheet]
  cases p.grouping <;> simp

/-- The schedule puts records together at the documented origins. -/
theorem filterMap_origin?_schedule (hp : p.IsLawful) :
    p.schedule.filterMap Act.origin? = p.origins := by
  rw [schedule, List.filterMap_append, List.filterMap_flatMap, origins, endActs]
  simp only [filterMap_origin?_sheet hp]
  cases p.grouping with
  | document =>
    rw [List.flatMap_eq_nil_iff.mpr fun _ _ => rfl]
    rfl
  | _ => exact List.append_nil _

/-! ### From left to right -/

theorem pairwise_map_some {ns : List Nat} (h : ns.SortedLT) : (ns.map some).Pairwise ColumnBefore :=
  List.pairwise_map.mpr (h.pairwise.imp fun hlt => ⟨_, _, rfl, rfl, hlt⟩)

/-- A row has its records from the left to the right, or just one. -/
theorem pairwise_rowColumns (p : Prepared) (row : List Visit) :
    (p.rowColumns row).Pairwise ColumnBefore := by
  have hcolumns := pairwise_map_some (sortedLT_ascending (p.sourceColumns row))
  rw [rowColumns]
  split_ifs
  · cases p.grouping with
    | nested =>
      simp only
      split
      · exact List.pairwise_singleton _ _
      · exact hcolumns
    | rows => exact List.pairwise_singleton _ _
    | columns => exact List.Pairwise.nil
    | document => exact List.Pairwise.nil
  · exact List.Pairwise.nil

theorem pairwise_sheetColumns (p : Prepared) (vs : List Visit) :
    (p.sheetColumns vs).Pairwise ColumnBefore := by
  rw [sheetColumns]
  split_ifs
  · exact pairwise_map_some (sortedLT_ascending (p.sourceColumns vs))
  · exact List.Pairwise.nil

/-- The records of a sheet come row by row, and then column by column. -/
theorem pairwise_filterMap_origin?_sheetActs (hp : p.IsLawful) (i : Nat) (name : String) :
    ((p.sheetActs name (p.scan.sheetVisits i name)).filterMap Act.origin?).Pairwise
      Origin.Before := by
  rw [filterMap_origin?_sheetActs, List.pairwise_append]
  refine ⟨?_, ?_, ?_⟩
  · rw [List.pairwise_flatMap]
    constructor
    · intro x _
      refine List.pairwise_map.mpr ((p.pairwise_rowColumns x.2).imp ?_)
      intro a b hab _ _
      exact hab
    · -- Two rows have different numbers.
      refine (hp.rowsOf_sorted i name).imp ?_
      intro x y hxy o ho o' ho' _ hrow
      obtain ⟨_, _, rfl⟩ := List.mem_map.mp ho
      obtain ⟨_, _, rfl⟩ := List.mem_map.mp ho'
      exact absurd (Option.some.inj hrow) hxy.ne
  · refine List.pairwise_map.mpr ((p.pairwise_sheetColumns _).imp ?_)
    intro a b hab _ _
    exact hab
  · -- The records of the sheet have no row.
    intro o ho o' ho' _ hrow
    obtain ⟨_, _, ho⟩ := List.mem_flatMap.mp ho
    obtain ⟨_, _, rfl⟩ := List.mem_map.mp ho
    obtain ⟨_, _, rfl⟩ := List.mem_map.mp ho'
    cases hrow

/-- The records of a sheet name it. -/
theorem sheet_of_mem_sheetActs {name : String} {vs : List Visit} {o : Origin}
    (ho : o ∈ (p.sheetActs name vs).filterMap Act.origin?) : o.sheet = some name := by
  rw [filterMap_origin?_sheetActs, List.mem_append] at ho
  rcases ho with ho | ho
  · obtain ⟨_, _, ho⟩ := List.mem_flatMap.mp ho
    obtain ⟨_, _, rfl⟩ := List.mem_map.mp ho
    rfl
  · obtain ⟨_, _, rfl⟩ := List.mem_map.mp ho
    rfl

theorem sheet_of_mem_endActs {o : Origin} (ho : o ∈ p.endActs.filterMap Act.origin?) :
    o.sheet = none := by
  unfold endActs at ho
  split_ifs at ho
  · obtain rfl : ⟨none, none, none⟩ = o := by simpa [Act.origin?] using ho
    rfl
  · cases ho

/-- **From left to right.**  Of two records of a row, or of a sheet, the one for the column further
left comes first. -/
theorem pairwise_origins (hp : p.IsLawful) : p.origins.Pairwise Origin.Before := by
  rw [← filterMap_origin?_schedule hp, schedule, List.filterMap_append, List.filterMap_flatMap,
    List.pairwise_append, List.pairwise_flatMap]
  refine ⟨⟨?_, ?_⟩, ?_, ?_⟩
  · intro sheet _
    exact pairwise_filterMap_origin?_sheetActs hp sheet.2 sheet.1
  · -- Two sheets have different names.
    have hnames : (p.scan.order.names.zipIdx.map (·.1)).Nodup := by
      rw [List.zipIdx_map_fst]
      exact p.scan.order.nodup
    refine (List.pairwise_map.mp hnames).imp ?_
    intro sheet sheet' hne o ho o' ho' hsheet _
    rw [sheet_of_mem_sheetActs ho, sheet_of_mem_sheetActs ho'] at hsheet
    exact absurd (Option.some.inj hsheet) hne
  · unfold endActs
    split_ifs
    · exact List.pairwise_singleton _ _
    · exact List.Pairwise.nil
  · intro o ho o' ho' hsheet _
    obtain ⟨sheet, _, ho⟩ := List.mem_flatMap.mp ho
    rw [sheet_of_mem_sheetActs ho, sheet_of_mem_endActs ho'] at hsheet
    cases hsheet

/-- With nested records, a row has one for a column if the column is among those of the row. -/
theorem mem_origins_iff (hp : p.IsLawful) (hgrouping : p.grouping = .nested) {i : Nat}
    {name : String} (hname : p.scan.order.names[i]? = some name) {r : Nat} {c : Option Nat} :
    (⟨some name, some r, c⟩ : Origin) ∈ p.origins ↔
      ∃ row, (r, row) ∈ rowsOf (p.scan.sheetVisits i name) ∧ c ∈ p.rowColumns row := by
  have hsheet : ∀ j name', p.nestedOrigins j name' =
      (rowsOf (p.scan.sheetVisits j name')).flatMap fun x =>
        (p.rowColumns x.2).map fun c => ⟨some name', some x.1, c⟩ := by
    intro j name'
    rw [flatMap_rowColumns hp, hgrouping]
  rw [origins, hgrouping]
  simp only [hsheet, List.mem_flatMap, List.mem_map]
  constructor
  · rintro ⟨⟨name', j⟩, hmem, ⟨r', row⟩, hrow, c', hc, heq⟩
    simp only [Origin.mk.injEq, Option.some.injEq] at heq
    obtain ⟨rfl, rfl, rfl⟩ := heq
    obtain rfl : j = i := p.scan.order.index_unique (List.mem_zipIdx_iff_getElem?.mp hmem) hname
    exact ⟨row, hrow, hc⟩
  · rintro ⟨row, hrow, hc⟩
    exact ⟨(name, i), List.mem_zipIdx_iff_getElem?.mpr hname, (r, row), hrow, c, hc, rfl⟩

end Prepared

/-- **Record boundaries.**  An extraction from a workbook without a limit gives records at just the
documented origins, in order. -/
theorem Schema.origins_records {schema : Schema} {w : Workbook} {e : Extraction}
    (h : schema.extract w = .ok e) (hlimit : schema.options.recordLimit = none) :
    ∃ p, schema.prepare w = .ok p ∧ e.records.map (·.origin) = p.origins := by
  obtain ⟨p, hprepare, hp, hrecords⟩ := Schema.records_extract w.isLawful_grid h
  refine ⟨p, hprepare, ?_⟩
  rw [hrecords, hlimit]
  simp only
  rw [origin_recordsOf, Prepared.filterMap_origin?_schedule hp]

/-- A table with a heading above its second column: one cell in the first row and one below it. -/
def headedTable : Workbook :=
  ⟨[⟨"Table", (Store.empty.set ⟨0, 1⟩ (.boolean true)).set ⟨1, 1⟩ (.boolean false)⟩]⟩

/-- A field along the second row, and one down the second column and nested within it. -/
def headedSchema : Schema :=
  ⟨[{ Field.named "label" with row := some 1, depth := some 0 },
    { Field.named "body" with column := some 1, depth := some 1 }], .default⟩

/-- The schema made ready for the table. -/
def headedPrepared : Prepared :=
  ⟨⟨headedTable, .ofNames ["Table"]⟩,
    [⟨"label", false, some 0, .rowScan none 1⟩, ⟨"body", false, some 1, .columnScan none 1 0⟩]⟩

theorem prepare_headedSchema : headedSchema.prepare headedTable = .ok headedPrepared := rfl

/-- The row of the heading has no record, since nothing that goes with rows has a source there. -/
theorem Schema.origins_records_headedTable :
    headedSchema.extract headedTable = .ok (.start headedPrepared none) ∧
      (Extraction.start headedPrepared none).records.map (·.origin) =
        [⟨some "Table", some 1, some 1⟩] := by
  have hextract : headedSchema.extract headedTable = .ok (.start headedPrepared none) := rfl
  refine ⟨hextract, ?_⟩
  obtain ⟨p, hprepare, horigins⟩ := Schema.origins_records hextract rfl
  obtain rfl : headedPrepared = p := Except.ok.inj (prepare_headedSchema.symm.trans hprepare)
  rw [horigins]
  decide +kernel

end SheetRecords
