import SheetRecords.Proofs.Record.Agree
import SheetRecords.Proofs.Record.Boundaries
import SheetRecords.Proofs.Record.Select

/-!
# Sheets do not interfere

Two workbooks with the same sheet names are scanned in the same order.  When the scans come to a
sheet that is the same in both, the tracks of a field may have come by different ways, but all slots
are empty (`Prepared.slotAt_after_sheets`), and whether the current entry of a list is used no longer
matters, since it lies on an earlier sheet.  From there on the tracks agree
(`Prepared.agree_before_sheet`), so that the records of the sheet are the same
(`Schema.records_of_sheet`).
-/

namespace SheetRecords

open Cell

/-! ### Between two sheets nothing is held -/

namespace Prepared

variable {p p' : Prepared}

/-- The acts of the first sheets of the order. -/
def actsOfSheets (p : Prepared) (sheets : List (String × Nat)) : List Act :=
  sheets.flatMap fun sheet => p.sheetActs sheet.1 (p.scan.sheetVisits sheet.2 sheet.1)

/-- Only constants go with the whole document. -/
theorem role_ne_document {f : PlannedField} (hconstant : f.plan.isConstant = false) :
    p.role f ≠ .document := by
  unfold role PlannedField.role PlannedField.axis
  cases hplan : f.plan with
  | constant source =>
    rw [hplan] at hconstant
    cases hconstant
  | void => simp [Plan.axis]
  | columnScan sheet column firstRow =>
    simp only [Plan.axis]
    unfold PlannedField.role.byDepth
    split_ifs <;> simp
  | rowScan sheet row =>
    simp only [Plan.axis]
    unfold PlannedField.role.byDepth
    split_ifs <;> simp
  | list entries =>
    simp only [Plan.axis]
    unfold PlannedField.role.byDepth
    split_ifs <;> simp

/-- Whatever a track holds for the open row, it holds no longer after the row. -/
theorem slotAt_after_rows {t : Track} (hrole : t.role = .row) (name : String)
    (rows : List (Nat × List Visit)) (h : t.slotAt none = .empty) :
    (t.after p.scan (rows.flatMap (p.rowActs name))).slotAt none = .empty := by
  induction rows generalizing t with
  | nil => exact h
  | cons row rows ih =>
    rw [List.flatMap_cons, Track.after_append]
    refine ih (by rwa [Track.after_role]) ?_
    have hclosed : t.after p.scan (p.rowActs name row) =
        (t.after p.scan (row.2.map .observe ++ p.rowEmissions name row.1 row.2)).closeRow := by
      rw [rowActs, Track.after_append]
      rfl
    rw [hclosed, Track.slotAt_closeRow, Track.after_role, if_pos ⟨hrole, rfl⟩]

/-- A sheet leaves nothing behind in the slots of a field, unless it goes with the document. -/
theorem slotAt_after_sheetActs {t : Track} (hconstant : t.field.plan.isConstant = false)
    (hrole : t.role ≠ .document) (h : ∀ k, t.slotAt k = .empty) (name : String)
    (vs : List Visit) (k : Option Nat) :
    (t.after p.scan (p.sheetActs name vs)).slotAt k = .empty := by
  rw [sheetActs]
  split_ifs
  · exact h k
  · cases hr : t.role with
    | document => exact absurd hr hrole
    | inactive =>
      exact Track.slotAt_after_eq_empty hconstant (h k) fun v _ => by simp [Track.intake, hr]
    | row =>
      cases k with
      | none =>
        rw [List.append_assoc, Track.after_append]
        refine Track.slotAt_after_eq_empty (by rwa [Track.after_field])
          (slotAt_after_rows hr name _ (h none)) ?_
        intro v hv
        simp [sheetEmissions] at hv
      | some c =>
        exact Track.slotAt_after_eq_empty hconstant (h _) fun v _ => by simp [Track.intake, hr]
    | column =>
      cases k with
      | none =>
        exact Track.slotAt_after_eq_empty hconstant (h _) fun v _ => by simp [Track.intake, hr]
      | some c =>
        rw [Track.after_append]
        exact (Track.slotAt_closeSheet _ _).trans (if_neg (Option.some_ne_none c))

/-- Before the first cell of a sheet all slots are empty. -/
theorem slotAt_after_sheets {f : PlannedField} (hconstant : f.plan.isConstant = false)
    (sheets : List (String × Nat)) (k : Option Nat) :
    ((Track.start f (p.role f)).after p.scan (p.actsOfSheets sheets)).slotAt k = .empty := by
  induction sheets using List.reverseRecOn generalizing k with
  | nil => exact Track.slotAt_start f _ k
  | append_singleton sheets sheet ih =>
    rw [actsOfSheets, List.flatMap_append, List.flatMap_singleton, Track.after_append]
    refine slotAt_after_sheetActs ?_ ?_ ih _ _ k
    · rwa [Track.after_field]
    · rw [Track.after_role]
      exact role_ne_document hconstant

/-- The cells that are visited before a sheet lie on earlier sheets. -/
theorem rank_lt_of_standsAt {sheets : List (String × Nat)} {i : Nat} (hi : ∀ x ∈ sheets, x.2 < i)
    {q : Position} (hq : q ∈ Act.standsAt (p.actsOfSheets sheets)) : q.rank < .sheet i := by
  obtain ⟨u, hu, rfl⟩ := Option.map_eq_some_iff.mp hq
  have hmem := List.mem_of_getLast? hu
  rw [Act.visits, actsOfSheets, List.filterMap_flatMap] at hmem
  obtain ⟨⟨name, j⟩, hsheet, hmem⟩ := List.mem_flatMap.mp hmem
  change u ∈ Act.visits _ at hmem
  rw [visits_sheetActs] at hmem
  rw [(Scan.mem_sheetVisits_iff.mp hmem).1]
  exact Rank.sheet_lt_sheet.mpr (hi _ hsheet)

theorem role_of_fields_eq (h : p'.fields = p.fields) (f : PlannedField) :
    p'.role f = p.role f := by
  unfold role
  rw [h]

theorem sheetActs_of_fields_eq (h : p'.fields = p.fields) (name : String) (vs : List Visit) :
    p'.sheetActs name vs = p.sheetActs name vs := by
  have hgrouping : p'.grouping = p.grouping := by
    unfold grouping
    rw [h]
  refine sheetActs_congr hgrouping name fun role v _ => ?_
  unfold isSource
  rw [h]
  simp only [role_of_fields_eq h]

/-- **At the start of a sheet** the tracks of a field agree, whatever the sheets before. -/
theorem agree_before_sheet (hfields : p'.fields = p.fields) {f : PlannedField}
    (hconstant : f.plan.isConstant = false) {sheets : List (String × Nat)} {i : Nat}
    (hi : ∀ x ∈ sheets, x.2 < i) :
    ((Track.start f (p.role f)).after p.scan (p.actsOfSheets sheets)).Agree (· = .sheet i)
      (Act.standsAt (p.actsOfSheets sheets)) (Act.standsAt (p'.actsOfSheets sheets))
      ((Track.start f (p.role f)).after p'.scan (p'.actsOfSheets sheets)) where
  field := by
    rw [Track.after_field, Track.after_field]
    exact .refl f
  role := by rw [Track.after_role, Track.after_role]
  slots k := by
    rw [slotAt_after_sheets hconstant, ← role_of_fields_eq hfields, slotAt_after_sheets hconstant]
  stands := by
    refine .inr ⟨?_, ?_⟩
    · rintro q hq _ rfl
      exact rank_lt_of_standsAt hi hq
    · rintro q hq _ rfl
      exact rank_lt_of_standsAt hi hq
  used entries _ q hq e he hrank := by
    -- An entry on the sheet lies after every cell that has been visited.
    have hlt : q < e.position :=
      Position.lt_iff.mpr (.inl (hrank ▸ rank_lt_of_standsAt hi hq))
    exact absurd (mem_of_lastUpTo he).2 (not_le.mpr hlt)

/-! ### The records of a sheet -/

/-- The records that are put together on the sheet of a name. -/
theorem filter_recordsOf_eq_nil {s : Scan} {names : List String} {tracks : List Track}
    {acts : List Act} {name : String}
    (h : ∀ o ∈ acts.filterMap Act.origin?, o.sheet ≠ some name) :
    (recordsOf s names tracks acts).filter (·.origin.sheet = some name) = [] := by
  refine List.filter_eq_nil_iff.mpr fun r hr => ?_
  have horigin : r.origin ∈ acts.filterMap Act.origin? := by
    rw [← origin_recordsOf s names tracks]
    exact List.mem_map_of_mem hr
  simpa using h _ horigin

theorem filter_recordsOf_sheets {s : Scan} {names : List String} {tracks : List Track}
    {sheets : List (String × Nat)} {name : String} (h : ∀ x ∈ sheets, x.1 ≠ name) :
    (recordsOf s names tracks (p.actsOfSheets sheets)).filter (·.origin.sheet = some name) = [] := by
  refine filter_recordsOf_eq_nil fun o ho => ?_
  rw [actsOfSheets, List.filterMap_flatMap] at ho
  obtain ⟨x, hx, ho⟩ := List.mem_flatMap.mp ho
  rw [sheet_of_mem_sheetActs ho]
  exact fun heq => h x hx (Option.some.inj heq)

theorem filter_recordsOf_endActs {s : Scan} {names : List String} {tracks : List Track}
    {name : String} :
    (recordsOf s names tracks p.endActs).filter (·.origin.sheet = some name) = [] := by
  refine filter_recordsOf_eq_nil fun o ho => ?_
  rw [sheet_of_mem_endActs ho]
  exact (Option.some_ne_none name).symm

theorem filter_recordsOf_sheetActs {s : Scan} {names : List String} {tracks : List Track}
    {name : String} {vs : List Visit} :
    (recordsOf s names tracks (p.sheetActs name vs)).filter (·.origin.sheet = some name) =
      recordsOf s names tracks (p.sheetActs name vs) := by
  refine List.filter_eq_self.mpr fun r hr => decide_eq_true ?_
  have horigin : r.origin ∈ (p.sheetActs name vs).filterMap Act.origin? := by
    rw [← origin_recordsOf s names tracks]
    exact List.mem_map_of_mem hr
  exact sheet_of_mem_sheetActs horigin

theorem schedule_eq (p : Prepared) :
    p.schedule = p.actsOfSheets p.scan.order.names.zipIdx ++ p.endActs := rfl

/-- The records of a sheet that is not scanned. -/
theorem filter_recordsOf_of_not_mem {name : String} (h : name ∉ p.scan.order.names) :
    (recordsOf p.scan p.names p.tracks p.schedule).filter (·.origin.sheet = some name) = [] := by
  rw [schedule_eq, recordsOf_append, List.filter_append, filter_recordsOf_endActs,
    filter_recordsOf_sheets, List.append_nil]
  rintro x hx rfl
  exact h (List.fst_mem_of_mem_zipIdx hx)

/-- The acts before a sheet, those of the sheet, and those after it. -/
theorem schedule_of_split {name : String} {before after : List String}
    (h : p.scan.order.names = before ++ name :: after) :
    p.schedule = p.actsOfSheets before.zipIdx ++
      p.sheetActs name (p.scan.sheetVisits before.length name) ++
      (p.actsOfSheets (after.zipIdx (before.length + 1)) ++ p.endActs) := by
  rw [schedule_eq, h, List.zipIdx_append, List.zipIdx_cons, Nat.zero_add]
  simp [actsOfSheets]

/-- The records of a sheet that is scanned are put together by the acts of the sheet. -/
theorem filter_recordsOf_of_split {name : String} {before after : List String}
    (h : p.scan.order.names = before ++ name :: after) :
    (recordsOf p.scan p.names p.tracks p.schedule).filter (·.origin.sheet = some name) =
      recordsOf p.scan p.names (p.tracks.map (·.after p.scan (p.actsOfSheets before.zipIdx)))
        (p.sheetActs name (p.scan.sheetVisits before.length name)) := by
  have hnodup := p.scan.order.nodup
  rw [h, List.nodup_append, List.nodup_cons] at hnodup
  obtain ⟨-, ⟨hafter, -⟩, hbefore⟩ := hnodup
  have hfirst : ∀ x ∈ before.zipIdx, x.1 ≠ name := fun x hx =>
    hbefore x.1 (List.fst_mem_of_mem_zipIdx hx) name (List.mem_cons_self ..)
  have hlast : ∀ x ∈ after.zipIdx (before.length + 1), x.1 ≠ name := by
    rintro x hx rfl
    exact hafter (List.fst_mem_of_mem_zipIdx hx)
  rw [schedule_of_split h, recordsOf_append, recordsOf_append, recordsOf_append]
  simp only [List.filter_append, filter_recordsOf_sheets hfirst, filter_recordsOf_sheetActs,
    filter_recordsOf_sheets hlast, filter_recordsOf_endActs, List.nil_append, List.append_nil]

/-- A sheet with the same cells reads the same. -/
theorem sameOn_of_cells (hp : p.IsLawful) (hp' : p'.IsLawful)
    (horder : p'.scan.order = p.scan.order) {name : String} {i : Nat}
    (hname : p.scan.order.names[i]? = some name)
    (hcells : p'.scan.grid.cells name = p.scan.grid.cells name) :
    Scan.SameOn (· = .sheet i) p.scan p'.scan := by
  intro q hq
  have hvalue : p'.scan.grid.value? name q.address = p.scan.grid.value? name q.address := by
    refine Option.ext fun x => ?_
    rw [hp'.grid.value?_eq_some_iff, hp.grid.value?_eq_some_iff, hcells]
  unfold Scan.value? SheetOrder.name?
  rw [horder, hq]
  simp only [Rank.index?, Option.bind_some, hname]
  exact hvalue

/-- **One sheet in two extractions.**  With the same fields and the same order of sheets, the records
of a sheet that has the same cells agree on all fields but constants. -/
theorem map_select_of_sheet (hp : p.IsLawful) (hp' : p'.IsLawful)
    (hfields : p'.fields = p.fields) (horder : p'.scan.order = p.scan.order) {name : String}
    (hcells : p'.scan.grid.cells name = p.scan.grid.cells name) {names : List String}
    (hnames : ∀ n ∈ names, ∃ f ∈ p.fields, f.name = n ∧ f.plan.isConstant = false) :
    ((recordsOf p'.scan p'.names p'.tracks p'.schedule).filter
        (·.origin.sheet = some name)).map (·.select names) =
      ((recordsOf p.scan p.names p.tracks p.schedule).filter
        (·.origin.sheet = some name)).map (·.select names) := by
  by_cases hname : name ∈ p.scan.order.names
  · obtain ⟨before, after, hsplit⟩ := List.append_of_mem hname
    have hsplit' : p'.scan.order.names = before ++ name :: after := by
      rw [horder]
      exact hsplit
    have hvisits : p'.scan.sheetVisits before.length name =
        p.scan.sheetVisits before.length name := by
      unfold Scan.sheetVisits
      rw [hcells]
    have hacts : p'.sheetActs name (p'.scan.sheetVisits before.length name) =
        p.sheetActs name (p.scan.sheetVisits before.length name) := by
      rw [hvisits]
      exact sheetActs_of_fields_eq hfields name _
    have hindex : p.scan.order.names[before.length]? = some name := by
      rw [hsplit]
      simp
    have horderBefore := hp.inOrder_schedule
    have horderBefore' := hp'.inOrder_schedule
    rw [schedule_of_split hsplit] at horderBefore
    rw [schedule_of_split hsplit', hacts] at horderBefore'
    rw [filter_recordsOf_of_split hsplit, filter_recordsOf_of_split hsplit', hacts]
    refine Record.map_select_eq ?_ ?_
    · rw [origin_recordsOf, origin_recordsOf]
    · intro n hn
      obtain ⟨f, hf, rfl, hconstant⟩ := hnames n hn
      have hf' : f ∈ p'.fields := by
        rw [hfields]
        exact hf
      have hearlier : ∀ x ∈ before.zipIdx, x.2 < before.length := by
        intro x hx
        simpa using List.snd_lt_of_mem_zipIdx hx
      have hagree := agree_before_sheet hfields hconstant hearlier
      rw [map_get?_recordsOf_after hp' hf', map_get?_recordsOf_after hp hf,
        role_of_fields_eq hfields]
      refine congrArg _ (hagree.given_eq (hp.plans f hf) (hp.plans f hf) hconstant
        (sameOn_of_cells hp hp' horder hindex hcells) horderBefore.of_append
        horderBefore'.of_append ?_)
      intro v hv
      rw [visits_sheetActs] at hv
      have hrank := (Scan.mem_sheetVisits_iff.mp hv).1
      exact ⟨hrank, by rw [hrank]; rfl⟩
  · rw [filter_recordsOf_of_not_mem hname, filter_recordsOf_of_not_mem]
    rw [horder]
    exact hname

end Prepared

namespace Schema

/-- The fields that are no constants. -/
def variableNames (schema : Schema) : List String :=
  (schema.fields.filter fun f => !f.isConstant).map (·.name)

/-- The order of the sheets depends on their names only. -/
theorem sheetOrder_congr (schema : Schema) {w w' : Workbook} (hnames : w'.names = w.names) :
    schema.sheetOrder w' = schema.sheetOrder w := by
  have hgrid : w'.grid.names = w.grid.names := hnames
  unfold sheetOrder SheetOrder.ofGrid SheetOrder.select
  rw [hgrid]

/-- A schema that is made ready for a workbook is made ready for any other with the same names. -/
theorem prepare_of_names_eq {schema : Schema} {w w' : Workbook} (hnames : w'.names = w.names)
    {p : Prepared} (h : schema.prepare w = .ok p) :
    schema.prepare w' = .ok ⟨⟨w', p.scan.order⟩, p.fields⟩ := by
  obtain ⟨hnodup, -, horder, hplans⟩ := prepare_eq_ok_iff.mp h
  refine prepare_eq_ok_iff.mpr ⟨hnodup, rfl, ?_, hplans⟩
  rw [sheetOrder_congr schema hnames]
  exact horder

/-- **Sheets do not interfere.**  Without a limit to the records, extractions from two workbooks with
the same sheet names give the same records for a sheet that has the same cells in both: as many, at
the same origins, in the same order and with the same values of all fields but constants. -/
theorem records_of_sheet {schema : Schema} {w w' : Workbook} {name : String} {e : Extraction}
    (hlimit : schema.options.recordLimit = none) (hnames : w'.names = w.names)
    (hcells : w'.cells name = w.cells name) (h : schema.extract w = .ok e) :
    ∃ e', schema.extract w' = .ok e' ∧
      (e'.records.filter (·.origin.sheet = some name)).map (·.select schema.variableNames) =
        (e.records.filter (·.origin.sheet = some name)).map (·.select schema.variableNames) := by
  obtain ⟨p, hprepare, rfl⟩ := extract_eq_ok_iff.mp h
  obtain ⟨-, hgrid, -, hplans⟩ := prepare_eq_ok_iff.mp hprepare
  have hprepare' := prepare_of_names_eq hnames hprepare
  have hp := isLawful_of_prepare w.isLawful_grid hprepare
  have hp' := isLawful_of_prepare w'.isLawful_grid hprepare'
  have hcells' : w'.grid.cells name = p.scan.grid.cells name := by
    rw [hgrid]
    exact hcells
  have hvariable : ∀ n ∈ schema.variableNames,
      ∃ f ∈ p.fields, f.name = n ∧ f.plan.isConstant = false := by
    intro n hn
    obtain ⟨field, hfield, rfl⟩ := List.mem_map.mp hn
    obtain ⟨hfield, hconstant⟩ := List.mem_filter.mp hfield
    obtain ⟨f, hf, hplan⟩ := exists_of_mem_forall₂ hplans hfield
    refine ⟨f, hf, Field.name_plan hplan, ?_⟩
    rw [Field.isConstant_plan hplan]
    simpa using hconstant
  have hall : ∀ p : Prepared, p.IsLawful →
      (Extraction.start p none).records = recordsOf p.scan p.names p.tracks p.schedule :=
    fun _ hp => Extraction.allRecords_start hp none
  refine ⟨_, extract_eq_ok_iff.mpr ⟨_, hprepare', rfl⟩, ?_⟩
  rw [hlimit, hall _ hp, hall _ hp']
  exact Prepared.map_select_of_sheet hp hp' rfl rfl hcells' hvariable

end Schema

/-- A workbook of two sheets, the second of which is always the same. -/
def quarters (first : Store) : Workbook :=
  ⟨[⟨"First", first⟩,
    ⟨"Second", ((Store.empty.set ⟨0, 1⟩ (.boolean false)).set ⟨1, 0⟩ (.boolean true)).set ⟨1, 1⟩
      (.boolean true)⟩]⟩

/-- A first sheet with a cell for each of the fields. -/
def firstQuarter : Store :=
  (Store.empty.set ⟨0, 0⟩ (.boolean false)).set ⟨0, 1⟩ (.boolean true)

/-- A metric of one cell on each sheet, and a field of a column of both sheets. -/
def quartersSchema : Schema :=
  ⟨[{ Field.named "total" with
        cells := [⟨some "First", ⟨0, 0⟩⟩, ⟨some "Second", ⟨1, 0⟩⟩], type := .number },
    { Field.named "entry" with column := some 1 }], .default⟩

/-- The entries of the metric. -/
def quartersEntries : Array Entry :=
  #[⟨⟨.sheet 0, ⟨0, 0⟩⟩, none⟩, ⟨⟨.sheet 1, ⟨1, 0⟩⟩, none⟩]

/-- The schema made ready for the two sheets. -/
def quartersPrepared : Prepared :=
  ⟨⟨quarters firstQuarter, .ofNames ["First", "Second"]⟩,
    [⟨"total", true, none, .list quartersEntries⟩, ⟨"entry", false, none, .columnScan none 1 0⟩]⟩

/-- The total of the first sheet goes into a record, or there is none: the records of the second
sheet are the same. -/
theorem Schema.records_of_sheet_second :
    ∃ e', quartersSchema.extract (quarters .empty) = .ok e' ∧
      (e'.records.filter (·.origin.sheet = some "Second")).map
          (·.select quartersSchema.variableNames) =
        [⟨["total", "entry"], [none, some (.boolean false)], ⟨some "Second", some 0, none⟩⟩,
          ⟨["total", "entry"], [some (.boolean true), some (.boolean true)],
            ⟨some "Second", some 1, none⟩⟩] := by
  have hextract : quartersSchema.extract (quarters firstQuarter) =
      .ok (.start quartersPrepared none) := by
    cbv
  have hrecords : ((Extraction.start quartersPrepared none).records.filter
      (·.origin.sheet = some "Second")).map (·.select quartersSchema.variableNames) =
        [⟨["total", "entry"], [none, some (.boolean false)], ⟨some "Second", some 0, none⟩⟩,
          ⟨["total", "entry"], [some (.boolean true), some (.boolean true)],
            ⟨some "Second", some 1, none⟩⟩] := by
    cbv
  have hnames : (quarters .empty).names = (quarters firstQuarter).names := rfl
  have hcells : (quarters .empty).cells "Second" = (quarters firstQuarter).cells "Second" := rfl
  obtain ⟨e', he', heq⟩ := Schema.records_of_sheet rfl hnames hcells hextract
  exact ⟨e', he', heq.trans hrecords⟩

end SheetRecords
