import SheetRecords.Proofs.Record.Nested

/-!
# The first source of a row or of a column

For a field that goes with rows, the records of a row have the value of the first cell of the row
that the field addresses; where a row has several records, a metric value goes to the first of them
and to no other.  With a record for each column of a sheet, the record has the value of the uppermost
cell of the column that the field addresses.  `Schema.get?_first_source` states both.

Nearby values and the values of other rows and columns have no part in this: a slot holds the first
exact value that it was offered since it was emptied (`Track.hold`), and between two rows, or two
sheets, it is empty (`Prepared.foldl_hold_actsBefore_row`, `Prepared.foldl_hold_actsBefore_sheet`).
-/

namespace SheetRecords

open Cell

/-! ### The first of several values -/

/-- The value that belongs to the least number to which one belongs. -/
def FirstOf (source : Nat → Option Value) (x : Value) : Prop :=
  ∃ n, source n = some x ∧ ∀ m < n, source m = none

theorem FirstOf.unique {source : Nat → Option Value} {x y : Value} (hx : FirstOf source x)
    (hy : FirstOf source y) : x = y := by
  obtain ⟨m, hm, hbefore⟩ := hx
  obtain ⟨n, hn, hbefore'⟩ := hy
  rcases lt_trichotomy m n with hlt | rfl | hlt
  · rw [hbefore' m hlt] at hm
    cases hm
  · exact Option.some.inj (hm.symm.trans hn)
  · rw [hbefore n hlt] at hn
    cases hn

/-- Among visits in ascending order the first one with a value decides. -/
theorem exists_firstOf {vs : List Visit} (key : Visit → Nat)
    (hsorted : vs.Pairwise fun u v => key u < key v) {value? : Visit → Option Value}
    {source : Nat → Option Value} (hvalue : ∀ v ∈ vs, value? v = source (key v))
    (hsource : ∀ n, (source n).isSome → ∃ v ∈ vs, key v = n) (h : ∃ n, (source n).isSome) :
    ∃ x, FirstOf source x ∧ vs.findSome? value? = some x := by
  obtain ⟨n, hn⟩ := h
  obtain ⟨u, hu, rfl⟩ := hsource n hn
  obtain ⟨x, hx⟩ : ∃ x, vs.findSome? value? = some x := by
    rw [← Option.isSome_iff_exists, List.findSome?_isSome_iff]
    exact ⟨u, hu, (hvalue u hu).symm ▸ hn⟩
  refine ⟨x, ?_, hx⟩
  obtain ⟨before, v, after, rfl, hv, hbefore⟩ := List.findSome?_eq_some_iff.mp hx
  refine ⟨key v, (hvalue v (by simp)).symm.trans hv, ?_⟩
  intro m hm
  by_contra hne
  obtain ⟨w, hw, rfl⟩ := hsource m (Option.isSome_iff_ne_none.mpr hne)
  rw [List.pairwise_append, List.pairwise_cons] at hsorted
  rcases List.mem_append.mp hw with hw' | hw'
  · exact hne ((hvalue w hw).symm.trans (hbefore w hw'))
  · rcases List.mem_cons.mp hw' with rfl | hw'
    · exact absurd hm (lt_irrefl _)
    · have hlt := hsorted.2.1.1 w hw'
      omega

namespace Prepared

variable {p : Prepared} {f : PlannedField} {i : Nat} {name : String}

/-- The value that a cell of the `i`-th scanned sheet gives to a field, if the cell holds something
and the field addresses it. -/
def sourceAt? (p : Prepared) (f : PlannedField) (i : Nat) (name : String) (a : Address) :
    Option Value :=
  (p.scan.grid.value? name a).bind fun x => f.plan.sourceValue? ⟨⟨.sheet i, a⟩, x⟩

/-- A visited cell gives what it holds. -/
theorem sourceAt?_of_mem_sheetVisits (hp : p.IsLawful) {v : Visit}
    (hv : v ∈ p.scan.sheetVisits i name) :
    f.plan.sourceValue? v = p.sourceAt? f i name v.position.address := by
  obtain ⟨⟨rank, address⟩, x⟩ := v
  obtain ⟨rfl, hmem⟩ := Scan.mem_sheetVisits_iff.mp hv
  rw [sourceAt?, (hp.grid.value?_eq_some_iff ..).mpr hmem]
  rfl

/-- A cell that gives a value is visited. -/
theorem exists_visit_of_isSome_sourceAt? (hp : p.IsLawful) {a : Address}
    (h : (p.sourceAt? f i name a).isSome) :
    ∃ v ∈ p.scan.sheetVisits i name, v.position.address = a := by
  unfold sourceAt? at h
  cases hx : p.scan.grid.value? name a with
  | none =>
    rw [hx] at h
    cases h
  | some x =>
    have hmem := (hp.grid.value?_eq_some_iff ..).mp hx
    exact ⟨⟨⟨.sheet i, a⟩, x⟩, Scan.mem_sheetVisits_iff.mpr ⟨rfl, hmem⟩, rfl⟩

/-! ### Rows -/

section Row

variable {r : Nat} {row : List Visit}

/-- The visits of a row come from the left to the right. -/
theorem pairwise_column_of_mem_rowsOf (hp : p.IsLawful)
    (hrow : (r, row) ∈ rowsOf (p.scan.sheetVisits i name)) :
    row.Pairwise fun u v => u.position.address.column < v.position.address.column := by
  have hsublist : row.Sublist (p.scan.sheetVisits i name) := by
    obtain ⟨above, below, hrows⟩ := List.append_of_mem hrow
    rw [← flatMap_rowsOf (p.scan.sheetVisits i name), hrows, List.flatMap_append,
      List.flatMap_cons]
    exact (List.sublist_append_left _ _).trans (List.sublist_append_right _ _)
  refine ((Scan.sheetVisits_sorted hp.grid i name).sublist hsublist).imp_of_mem ?_
  intro u v hu hv huv
  have hrank : u.position.rank = v.position.rank :=
    (Scan.mem_sheetVisits_iff.mp (hsublist.subset hu)).1.trans
      (Scan.mem_sheetVisits_iff.mp (hsublist.subset hv)).1.symm
  have hr : u.position.address.row = v.position.address.row :=
    ((of_mem_rowsOf hrow).2 u hu).trans ((of_mem_rowsOf hrow).2 v hv).symm
  rw [Position.lt_iff, hrank, Address.lt_iff, hr] at huv
  simpa using huv

/-- The first source of a row, among its visits. -/
theorem exists_firstOf_row (hp : p.IsLawful)
    (hrow : (r, row) ∈ rowsOf (p.scan.sheetVisits i name))
    (h : ∃ c, (p.sourceAt? f i name ⟨r, c⟩).isSome) :
    ∃ x, FirstOf (fun c => p.sourceAt? f i name ⟨r, c⟩) x ∧
      row.findSome? f.plan.sourceValue? = some x := by
  have hmem := fun v => mem_row_iff (v := v) (hp.rowsOf_sorted i name) hrow
  refine exists_firstOf (·.position.address.column) (pairwise_column_of_mem_rowsOf hp hrow) ?_ ?_ h
  · intro v hv
    obtain ⟨hvisit, rfl⟩ := (hmem v).mp hv
    exact sourceAt?_of_mem_sheetVisits hp hvisit
  · intro c hc
    obtain ⟨v, hv, haddress⟩ := exists_visit_of_isSome_sourceAt? hp hc
    exact ⟨v, (hmem v).mpr ⟨hv, by rw [haddress]⟩, by rw [haddress]⟩

/-- The slot for rows, act by act. -/
abbrev holdRow (f : PlannedField) : Option Value → Act → Option Value :=
  (Track.start f .row).hold none

/-- Closing a row empties the slot. -/
theorem foldl_holdRow_rowActs (held : Option Value) (x : Nat × List Visit) :
    (p.rowActs name x).foldl (holdRow f) held = none := by
  rw [rowActs, List.foldl_append]
  rfl

/-- Nothing is held from one sheet to the next. -/
theorem foldl_holdRow_sheets (sheets : List (String × Nat)) :
    (sheets.flatMap fun sheet => p.sheetActs sheet.1 (p.scan.sheetVisits sheet.2 sheet.1)).foldl
      (holdRow f) none = none := by
  refine Track.foldl_hold_flatMap _ _ ?_
  intro sheet _
  have hrows : ∀ vs : List Visit,
      ((rowsOf vs).flatMap (p.rowActs sheet.1)).foldl (holdRow f) none = none := fun vs =>
    Track.foldl_hold_flatMap _ _ fun x _ => foldl_holdRow_rowActs none x
  rw [sheetActs]
  split_ifs
  · rfl
  · rw [List.foldl_append, List.foldl_append, hrows, sheetEmissions, Track.foldl_hold_emissions,
      ite_self]
    rfl

/-- What the slot for rows holds before a record of a row: the first exact value of the row, unless
a record before has taken it along. -/
theorem foldl_hold_actsBefore_row (sheets : List (String × Nat)) (above : List (Nat × List Visit))
    (before : List (Option Nat)) :
    (p.actsBefore sheets name above (r, row) before).foldl (holdRow f) none =
      if f.isMetric = true ∧ before ≠ [] then none else row.findSome? f.plan.sourceValue? := by
  have habove : (above.flatMap (p.rowActs name)).foldl (holdRow f) none = none :=
    Track.foldl_hold_flatMap _ _ fun x _ => foldl_holdRow_rowActs none x
  have hasked : (∃ column ∈ before, (Track.start f .row).outlet true column = some none) ↔
      before ≠ [] := by
    constructor
    · rintro ⟨column, hmem, -⟩
      exact List.ne_nil_of_mem hmem
    · intro hne
      obtain ⟨column, hmem⟩ := List.exists_mem_of_ne_nil before hne
      exact ⟨column, hmem, rfl⟩
  rw [actsBefore, List.foldl_append, List.foldl_append, List.foldl_append, foldl_holdRow_sheets,
    habove, Track.foldl_hold_observe, Track.foldl_hold_emissions]
  simp only [hasked]
  simp [Track.intake, Track.start]

/-- A metric value that a record has taken along is gone for the records after it. -/
theorem slotAt_after_emissions {s : Scan} {t : Track} (hrole : t.role = .row)
    (hmetric : t.field.isMetric = true) {columns : List (Option Nat)} (hne : columns ≠ [])
    (origin : Option Nat → Origin) :
    (t.after s (columns.map fun column => .emit true column (origin column))).slotAt none =
      .empty := by
  obtain ⟨columns, c, rfl⟩ := (List.eq_nil_or_concat columns).resolve_left hne
  rw [List.concat_eq_append, List.map_append, Track.after_append]
  generalize hemitted : t.after s (columns.map fun column => .emit true column (origin column)) = t'
  have hrole' : t'.role = .row := by rw [← hemitted, Track.after_role, hrole]
  have hmetric' : t'.field.isMetric = true := by rw [← hemitted, Track.after_field, hmetric]
  show (t'.act s (.emit true c (origin c))).slotAt none = .empty
  rw [Track.act, Track.slotAt_emit, if_pos]
  exact ⟨hmetric', by simp [Track.outlet, hrole']⟩

/-- **Records of a row.**  A record has the value of the first source of its row, but a metric value
only if it is the first record of the row. -/
theorem eq_of_mem_given_row (hp : p.IsLawful) (hf : f ∈ p.fields) (hrole : p.role f = .row)
    (hname : p.scan.order.names[i]? = some name) {c : Option Nat} {x : Option Value}
    (h : (⟨some name, some r, c⟩, x) ∈ (Track.start f (p.role f)).given p.scan p.schedule)
    (hsource : ∃ c, (p.sourceAt? f i name ⟨r, c⟩).isSome) :
    ∃ row before after y, (r, row) ∈ rowsOf (p.scan.sheetVisits i name) ∧
      p.rowColumns row = before ++ c :: after ∧
      FirstOf (fun c => p.sourceAt? f i name ⟨r, c⟩) y ∧
      x = if f.isMetric = true ∧ before ≠ [] then none else some y := by
  obtain ⟨sheets, above, row, below, before, after, hrows, hcolumns, horder, hx⟩ :=
    exists_row_of_mem_given hp hname h
  have hrow : (r, row) ∈ rowsOf (p.scan.sheetVisits i name) := by
    rw [hrows]
    exact List.mem_append_right _ (List.mem_cons_self ..)
  obtain ⟨y, hfirst, hy⟩ := exists_firstOf_row hp hrow hsource
  refine ⟨row, before, after, y, hrow, hcolumns, hfirst, ?_⟩
  rw [hrole] at hx
  rw [hx, Track.value?_eq_slotAt]
  have houtlet : ((Track.start f .row).after p.scan
      (p.actsBefore sheets name above (r, row) before)).outlet true c = some none := by
    simp [Track.outlet, Track.start]
  rw [houtlet, Option.bind_some]
  split_ifs with htaken
  · -- The last record before this one has emptied the slot.
    rw [actsBefore, Track.after_append, slotAt_after_emissions _ _ htaken.2]
    · rfl
    · rw [Track.after_role]
      rfl
    · rw [Track.after_field]
      exact htaken.1
  · have hheld := Track.exactValue?_after (hp.plans f hf) (isConstant_of_role (.inl hrole)) .row
      horder none
    rw [foldl_hold_actsBefore_row, if_neg htaken, hy] at hheld
    exact Slot.value?_of_exactValue? hheld

end Row

/-! ### Columns -/

section Column

variable {c : Nat}

/-- The first source of a column of a sheet, among its visits. -/
theorem exists_firstOf_column (hp : p.IsLawful)
    (h : ∃ r, (p.sourceAt? f i name ⟨r, c⟩).isSome) :
    ∃ x, FirstOf (fun r => p.sourceAt? f i name ⟨r, c⟩) x ∧
      (p.scan.sheetVisits i name).findSome? (f.sourceIn? c) = some x := by
  rw [PlannedField.findSome?_sourceIn?]
  have hmem : ∀ v, v ∈ (p.scan.sheetVisits i name).filter
      (fun v => v.position.address.column = c) ↔
        v ∈ p.scan.sheetVisits i name ∧ v.position.address.column = c := by
    intro v
    rw [List.mem_filter, decide_eq_true_eq]
  refine exists_firstOf (·.position.address.row) ?_ ?_ ?_ h
  · refine ((Scan.sheetVisits_sorted hp.grid i name).filter _).imp_of_mem ?_
    intro u v hu hv huv
    obtain ⟨hu, hcu⟩ := (hmem u).mp hu
    obtain ⟨hv, hcv⟩ := (hmem v).mp hv
    have hrank : u.position.rank = v.position.rank :=
      (Scan.mem_sheetVisits_iff.mp hu).1.trans (Scan.mem_sheetVisits_iff.mp hv).1.symm
    rw [Position.lt_iff, hrank, Address.lt_iff, hcu, hcv] at huv
    simpa using huv
  · intro v hv
    obtain ⟨hvisit, rfl⟩ := (hmem v).mp hv
    exact sourceAt?_of_mem_sheetVisits hp hvisit
  · intro r hr
    obtain ⟨v, hv, haddress⟩ := exists_visit_of_isSome_sourceAt? hp hr
    exact ⟨v, (hmem v).mpr ⟨hv, by rw [haddress]⟩, by rw [haddress]⟩

/-- Without records of rows, the slot of a column holds the first exact value of the whole column
before the record of the column. -/
theorem foldl_hold_actsBefore_column (hp : p.IsLawful) (hgrouping : p.grouping = .columns)
    (sheets : List (String × Nat)) {before : List (Option Nat)} (hbefore : some c ∉ before) :
    (p.actsBeforeColumn sheets name (p.scan.sheetVisits i name) before).foldl (holdColumn f c)
        none =
      (p.scan.sheetVisits i name).findSome? (f.sourceIn? c) := by
  have hopen : ∀ v : Visit, p.IsOpen f c (rowsOf (p.scan.sheetVisits i name)) v := by
    intro v _ x _ _ hc
    rw [rowColumns, hgrouping] at hc
    split_ifs at hc <;> cases hc
  have hrows : ((rowsOf (p.scan.sheetVisits i name)).flatMap (p.rowActs name)).foldl
      (holdColumn f c) none = (p.scan.sheetVisits i name).findSome? (f.sourceIn? c) := by
    rw [foldl_hold_rows (fun x hx => (of_mem_rowsOf hx).2) (hp.rowsOf_sorted i name),
      flatMap_rowsOf, List.filter_eq_self.mpr]
    intro v _
    exact decide_eq_true (hopen v)
  have hasked : ¬ ∃ column ∈ before,
      (Track.start f .column).outlet false column = some (some c) := by
    rintro ⟨column, hmem, hcolumn⟩
    obtain ⟨c', rfl, hc⟩ := Option.map_eq_some_iff.mp hcolumn
    obtain rfl := Option.some.inj hc
    exact hbefore hmem
  rw [actsBeforeColumn, List.foldl_append, List.foldl_append, foldl_hold_sheets, hrows, holdColumn,
    Track.foldl_hold_emissions, if_neg fun h => hasked h.2]

/-- **Records of columns.**  A record has the value of the uppermost source of its column. -/
theorem eq_of_mem_given_column (hp : p.IsLawful) (hgrouping : p.grouping = .columns)
    (hf : f ∈ p.fields) (hrole : p.role f = .column)
    (hname : p.scan.order.names[i]? = some name) {x : Option Value}
    (h : (⟨some name, none, some c⟩, x) ∈ (Track.start f (p.role f)).given p.scan p.schedule)
    (hsource : ∃ r, (p.sourceAt? f i name ⟨r, c⟩).isSome) :
    ∃ y, FirstOf (fun r => p.sourceAt? f i name ⟨r, c⟩) y ∧ x = some y := by
  obtain ⟨sheets, before, after, hcolumns, horder, hx⟩ := exists_sheet_of_mem_given hp hname h
  obtain ⟨y, hfirst, hy⟩ := exists_firstOf_column hp hsource
  refine ⟨y, hfirst, ?_⟩
  -- No record for the column has come before this one.
  have hbefore : some c ∉ before := by
    intro hmem
    have hpairwise := p.pairwise_sheetColumns (p.scan.sheetVisits i name)
    rw [hcolumns, List.pairwise_append] at hpairwise
    obtain ⟨m, n, hm, hn, hlt⟩ := hpairwise.2.2 _ hmem _ (List.mem_cons_self ..)
    have := Option.some.inj hm
    have := Option.some.inj hn
    omega
  have hheld := Track.exactValue?_after (hp.plans f hf) (isConstant_of_role (.inr hrole))
    (p.role f) horder (some c)
  rw [hrole, foldl_hold_actsBefore_column hp hgrouping sheets hbefore, hy] at hheld
  rw [hx, hrole, Track.value?_eq_slotAt, Track.outlet, Track.after_role]
  exact Slot.value?_of_exactValue? hheld

end Column

/-! ### Which records come before -/

/-- No two rows of a sheet have the same number. -/
theorem row_unique (hp : p.IsLawful) {r : Nat} {row row' : List Visit}
    (hrow : (r, row) ∈ rowsOf (p.scan.sheetVisits i name))
    (hrow' : (r, row') ∈ rowsOf (p.scan.sheetVisits i name)) : row' = row := by
  have hnodup : ((rowsOf (p.scan.sheetVisits i name)).map (·.1)).Nodup :=
    List.pairwise_map.mpr ((hp.rowsOf_sorted i name).imp fun hlt => hlt.ne)
  have heq : ((r, row') : Nat × List Visit) = (r, row) :=
    List.inj_on_of_nodup_map hnodup hrow' hrow rfl
  exact (Prod.mk.inj heq).2

/-- A record of a row with nested records is not the first one of the row just if some column comes
before its own. -/
theorem exists_earlier_iff (hp : p.IsLawful) (hgrouping : p.grouping = .nested)
    (hname : p.scan.order.names[i]? = some name) {r : Nat} {row : List Visit}
    (hrow : (r, row) ∈ rowsOf (p.scan.sheetVisits i name)) {c : Option Nat}
    {before after : List (Option Nat)} (hcolumns : p.rowColumns row = before ++ c :: after)
    {earlier later : List Origin}
    (horigins : p.origins = earlier ++ ⟨some name, some r, c⟩ :: later) :
    (∃ o ∈ earlier, o.sheet = some name ∧ o.row = some r) ↔ before ≠ [] := by
  have hcolumnsBefore := p.pairwise_rowColumns row
  rw [hcolumns, List.pairwise_append, List.pairwise_cons] at hcolumnsBefore
  obtain ⟨-, ⟨hafter, -⟩, hbefore⟩ := hcolumnsBefore
  have horiginsBefore := pairwise_origins hp
  rw [horigins, List.pairwise_append, List.pairwise_cons] at horiginsBefore
  obtain ⟨-, ⟨hlater, -⟩, hearlier⟩ := horiginsBefore
  constructor
  · rintro ⟨⟨sheet, r', c'⟩, ho, rfl, rfl⟩
    -- The column of an earlier record of the row lies further left, and so not in `after`.
    obtain ⟨m, n, rfl, rfl, hlt⟩ := hearlier _ ho _ (List.mem_cons_self ..) rfl rfl
    have hmem : (⟨some name, some r, some m⟩ : Origin) ∈ p.origins := by
      rw [horigins]
      exact List.mem_append_left _ ho
    obtain ⟨row', hrow', hm⟩ := (mem_origins_iff hp hgrouping hname).mp hmem
    rw [row_unique hp hrow hrow', hcolumns] at hm
    rintro rfl
    rcases List.mem_cons.mp hm with heq | hm
    · have := Option.some.inj heq
      omega
    · obtain ⟨n', m', hn, hm, hlt'⟩ := hafter _ hm
      have := Option.some.inj hn
      have := Option.some.inj hm
      omega
  · intro hne
    obtain ⟨a, ha⟩ := List.exists_mem_of_ne_nil before hne
    obtain ⟨m, n, rfl, rfl, hlt⟩ := hbefore a ha c (List.mem_cons_self ..)
    have hmem : (⟨some name, some r, some m⟩ : Origin) ∈ p.origins := by
      refine (mem_origins_iff hp hgrouping hname).mpr ⟨row, hrow, ?_⟩
      rw [hcolumns]
      exact List.mem_append_left _ ha
    rw [horigins] at hmem
    rcases List.mem_append.mp hmem with hmem | hmem
    · exact ⟨_, hmem, rfl, rfl⟩
    · -- A record for a column further left does not come later.
      rcases List.mem_cons.mp hmem with heq | hmem
      · have := Option.some.inj (Origin.mk.inj heq).2.2
        omega
      · obtain ⟨n', m', hn, hm, hlt'⟩ := hlater _ hmem rfl rfl
        have := Option.some.inj hn
        have := Option.some.inj hm
        omega

/-! ### Where records belong -/

/-- A record belongs to a scanned sheet, or to the document. -/
theorem exists_sheet_of_mem_origins (hp : p.IsLawful) {o : Origin} (ho : o ∈ p.origins) :
    (∃ i name, p.scan.order.names[i]? = some name ∧
        o ∈ (p.sheetActs name (p.scan.sheetVisits i name)).filterMap Act.origin?) ∨
      p.grouping = .document ∧ o = ⟨none, none, none⟩ := by
  rw [← filterMap_origin?_schedule hp, schedule, List.filterMap_append, List.filterMap_flatMap,
    List.mem_append, List.mem_flatMap] at ho
  rcases ho with ⟨⟨name, i⟩, hsheet, ho⟩ | ho
  · exact .inl ⟨i, name, List.mem_zipIdx_iff_getElem?.mp hsheet, ho⟩
  · right
    unfold endActs at ho
    split_ifs at ho with hgrouping
    · exact ⟨hgrouping, by simpa [Act.origin?, eq_comm] using ho⟩
    · cases ho

/-- A record belongs to a scanned sheet, unless it is that of the document. -/
theorem exists_name_of_ne (hp : p.IsLawful) {o : Origin} (ho : o ∈ p.origins)
    (hne : o ≠ ⟨none, none, none⟩) :
    ∃ (i : Nat) (name : String), p.scan.order.names[i]? = some name ∧ o.sheet = some name := by
  rcases exists_sheet_of_mem_origins hp ho with ⟨i, name, hname, ho⟩ | ⟨-, hdocument⟩
  · exact ⟨i, name, hname, sheet_of_mem_sheetActs ho⟩
  · exact absurd hdocument hne

/-- A record with a row belongs to a scanned sheet. -/
theorem exists_name_of_row (hp : p.IsLawful) {o : Origin} (ho : o ∈ p.origins) {r : Nat}
    (hr : o.row = some r) :
    ∃ (i : Nat) (name : String), p.scan.order.names[i]? = some name ∧ o.sheet = some name := by
  refine exists_name_of_ne hp ho ?_
  rintro rfl
  cases hr

/-- With a record for each column, a record belongs to a column of a scanned sheet. -/
theorem exists_column_of_mem_origins (hp : p.IsLawful) (hgrouping : p.grouping = .columns)
    {o : Origin} (ho : o ∈ p.origins) :
    ∃ (i : Nat) (name : String) (c : Nat),
      p.scan.order.names[i]? = some name ∧ o = ⟨some name, none, some c⟩ := by
  rcases exists_sheet_of_mem_origins hp ho with ⟨i, name, hname, ho⟩ | ⟨hdocument, -⟩
  · rw [filterMap_origin?_sheet hp, hgrouping] at ho
    obtain ⟨c, -, rfl⟩ := List.mem_map.mp ho
    exact ⟨i, name, c, hname, rfl⟩
  · rw [hgrouping] at hdocument
    cases hdocument

/-- Outside nested records a row has one record at most. -/
theorem eq_nil_of_rowColumns (hgrouping : p.grouping ≠ .nested) {row : List Visit} {c : Option Nat}
    {before after : List (Option Nat)} (h : p.rowColumns row = before ++ c :: after) :
    before = [] := by
  have hlength : (p.rowColumns row).length ≤ 1 := by
    rw [rowColumns]
    split_ifs
    · cases hg : p.grouping with
      | nested => exact absurd hg hgrouping
      | rows => simp
      | columns => simp
      | document => simp
    · simp
  rw [h, List.length_append, List.length_cons] at hlength
  exact List.length_eq_zero_iff.mp (by omega)

/-- The value of a record of the schedule is given by the track of the field. -/
theorem mem_given_of_mem_recordsOf (hp : p.IsLawful) (hf : f ∈ p.fields) {record : Record}
    (hrecord : record ∈ recordsOf p.scan p.names p.tracks p.schedule) :
    (record.origin, record.get? f.name) ∈
      (Track.start f (p.role f)).given p.scan p.schedule := by
  rw [← get?_recordsOf hp hf]
  exact List.mem_map.mpr ⟨record, hrecord, rfl⟩

end Prepared

/-- **The first source decides.**  For a field that goes with rows and has a source in a row, the
records of the row have the value of the leftmost such source; with nested records a metric value
goes to the first record of the row, and the others have none.  With a record for each column, a
field that goes with columns and has a source in the column of a record has the value of the
uppermost one. -/
theorem Schema.get?_first_source {schema : Schema} {w : Workbook} {e : Extraction}
    (h : schema.extract w = .ok e) :
    ∃ p, schema.prepare w = .ok p ∧
      ∀ earlier record later, e.records = earlier ++ record :: later →
        (∀ r, record.origin.row = some r →
          ∃ (i : Nat) (name : String),
            p.scan.order.names[i]? = some name ∧ record.origin.sheet = some name ∧
              ∀ f ∈ p.fields, p.role f = .row → (∃ c, (p.sourceAt? f i name ⟨r, c⟩).isSome) →
                ∃ x, FirstOf (fun c => p.sourceAt? f i name ⟨r, c⟩) x ∧
                  record.get? f.name =
                    if p.grouping = .nested ∧ f.isMetric = true ∧
                      ∃ o ∈ earlier, o.origin.sheet = some name ∧ o.origin.row = some r
                    then none else some x) ∧
        (p.grouping = .columns →
          ∃ (i : Nat) (name : String) (c : Nat),
            p.scan.order.names[i]? = some name ∧ record.origin = ⟨some name, none, some c⟩ ∧
              ∀ f ∈ p.fields, p.role f = .column → (∃ r, (p.sourceAt? f i name ⟨r, c⟩).isSome) →
                ∃ x, FirstOf (fun r => p.sourceAt? f i name ⟨r, c⟩) x ∧
                  record.get? f.name = some x) := by
  obtain ⟨p, hprepare, hp, rest, hrecords⟩ := Schema.isPrefix_recordsOf w.isLawful_grid h
  refine ⟨p, hprepare, ?_⟩
  intro earlier record later heq
  rw [heq, List.append_assoc, List.cons_append] at hrecords
  have hrecord : record ∈ recordsOf p.scan p.names p.tracks p.schedule := by
    rw [← hrecords]
    simp
  have horigins : p.origins =
      earlier.map (·.origin) ++ record.origin :: (later ++ rest).map (·.origin) := by
    rw [← Prepared.filterMap_origin?_schedule hp, ← origin_recordsOf p.scan p.names p.tracks,
      ← hrecords, List.map_append, List.map_cons]
  have horigin : record.origin ∈ p.origins := by
    rw [horigins]
    simp
  constructor
  · intro r hr
    obtain ⟨i, name, hname, hsheet⟩ := Prepared.exists_name_of_row hp horigin hr
    refine ⟨i, name, hname, hsheet, ?_⟩
    intro f hf hrole hsource
    have hgiven := Prepared.mem_given_of_mem_recordsOf hp hf hrecord
    have hcolumn : record.origin = ⟨some name, some r, record.origin.column⟩ := by
      rw [← hsheet, ← hr]
    generalize record.origin.column = c at hcolumn
    rw [hcolumn] at hgiven horigins
    obtain ⟨row, before, after, x, hrow, hcolumns, hfirst, hx⟩ :=
      Prepared.eq_of_mem_given_row hp hf hrole hname hgiven hsource
    refine ⟨x, hfirst, ?_⟩
    rw [hx]
    refine if_congr ?_ rfl rfl
    by_cases hgrouping : p.grouping = .nested
    · rw [← Prepared.exists_earlier_iff hp hgrouping hname hrow hcolumns horigins]
      simp [hgrouping]
    · rw [Prepared.eq_nil_of_rowColumns hgrouping hcolumns]
      simp [hgrouping]
  · intro hgrouping
    obtain ⟨i, name, c, hname, hcolumn⟩ :=
      Prepared.exists_column_of_mem_origins hp hgrouping horigin
    refine ⟨i, name, c, hname, hcolumn, ?_⟩
    intro f hf hrole hsource
    have hgiven := Prepared.mem_given_of_mem_recordsOf hp hf hrecord
    rw [hcolumn] at hgiven
    exact Prepared.eq_of_mem_given_column hp hgrouping hf hrole hname hgiven hsource

/-- A table with a cell in its first row and three in the second. -/
def crossTable : Workbook :=
  ⟨[⟨"Cross", (((Store.empty.set ⟨0, 0⟩ (.boolean true)).set ⟨1, 0⟩ (.boolean true)).set ⟨1, 1⟩
    (.boolean false)).set ⟨1, 2⟩ (.boolean false)⟩]⟩

/-- Two fields of the same two cells, one of them a metric, and a field along the second row. -/
def crossSchema : Schema :=
  ⟨[{ Field.named "label" with cells := [⟨none, ⟨0, 0⟩⟩, ⟨none, ⟨1, 2⟩⟩] },
    { Field.named "total" with cells := [⟨none, ⟨0, 0⟩⟩, ⟨none, ⟨1, 2⟩⟩], type := .number },
    { Field.named "body" with row := some 1 }], .default⟩

/-- The two cells as entries of a list. -/
def crossEntries : Array Entry :=
  #[⟨⟨.sheet 0, ⟨0, 0⟩⟩, none⟩, ⟨⟨.sheet 0, ⟨1, 2⟩⟩, none⟩]

/-- The schema made ready for the table. -/
def crossPrepared : Prepared :=
  ⟨⟨crossTable, .ofNames ["Cross"]⟩,
    [⟨"label", false, none, .list crossEntries⟩, ⟨"total", true, none, .list crossEntries⟩,
      ⟨"body", false, none, .rowScan none 1⟩]⟩

/-- A record of the table: it has a label in any case. -/
def crossRecord (row : Nat) (column : Option Nat) (label : Bool) (total body : Option Value) :
    Record :=
  ⟨["label", "total", "body"], [some (.boolean label), total, body],
    ⟨some "Cross", some row, column⟩⟩

theorem records_crossTable : (Extraction.start crossPrepared none).records =
    [crossRecord 0 none true (some (.boolean true)) none,
      crossRecord 1 (some 1) false (some (.boolean false)) (some (.boolean false))] ++
      crossRecord 1 (some 2) false none (some (.boolean false)) :: [] := by
  cbv

/-- In the second row both fields have their value from the last cell, not from the one above.  The
second record of the row has the label, but not the total. -/
theorem Schema.get?_first_source_crossTable :
    crossSchema.extract crossTable = .ok (.start crossPrepared none) ∧
      ∃ record ∈ (Extraction.start crossPrepared none).records,
        record.origin = ⟨some "Cross", some 1, some 2⟩ ∧
        (∃ x, FirstOf (fun c => crossPrepared.sourceAt?
            ⟨"label", false, none, .list crossEntries⟩ 0 "Cross" ⟨1, c⟩) x ∧
          record.get? "label" = some x) ∧
        ∃ x, FirstOf (fun c => crossPrepared.sourceAt?
            ⟨"total", true, none, .list crossEntries⟩ 0 "Cross" ⟨1, c⟩) x ∧
          record.get? "total" = none := by
  have hextract : crossSchema.extract crossTable = .ok (.start crossPrepared none) := by
    cbv
  obtain ⟨p, hprepare, hrecords⟩ := Schema.get?_first_source hextract
  have hprepare' : crossSchema.prepare crossTable = .ok crossPrepared := by
    cbv
  obtain rfl : crossPrepared = p := Except.ok.inj (hprepare'.symm.trans hprepare)
  obtain ⟨i, name, hname, hsheet, hvalues⟩ := (hrecords _ _ _ records_crossTable).1 1 rfl
  obtain rfl : "Cross" = name := Option.some.inj hsheet
  obtain rfl : i = 0 := crossPrepared.scan.order.index_unique hname rfl
  refine ⟨hextract, crossRecord 1 (some 2) false none (some (.boolean false)), ?_, rfl, ?_, ?_⟩
  · rw [records_crossTable]
    exact List.mem_append_right _ (List.mem_singleton_self _)
  · obtain ⟨x, hfirst, hx⟩ := hvalues ⟨"label", false, none, .list crossEntries⟩
      (List.mem_cons_self ..) rfl ⟨2, rfl⟩
    rw [if_neg fun h => Bool.false_ne_true h.2.1] at hx
    exact ⟨x, hfirst, hx⟩
  · obtain ⟨x, hfirst, hx⟩ := hvalues ⟨"total", true, none, .list crossEntries⟩
      (List.mem_cons_of_mem _ (List.mem_cons_self ..)) rfl ⟨2, rfl⟩
    rw [if_pos ⟨rfl, rfl, _, List.mem_cons_of_mem _ (List.mem_singleton_self _), rfl, rfl⟩] at hx
    exact ⟨x, hfirst, hx⟩

end SheetRecords
