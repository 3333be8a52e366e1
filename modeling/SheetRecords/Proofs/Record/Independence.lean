import Mathlib.Data.List.Perm.Basic
import SheetRecords.Proofs.Record.Select

/-!
# Fields do not interfere

Where records are put together is settled by the fields that have new values along rows or columns,
and of each of these by its plan and the depth that it declares alone
(`Prepared.schedule_of_coveredBy`).  The order of the fields, their metric flags, and constants and
fields without cells have no part in it, and no field has a part in the values of another
(`Schema.extract_independent`).
-/

namespace SheetRecords

open Cell

/-! ### Fields with an axis -/

namespace PlannedField

/-- Fields that are addressed alike and declare the same depth. -/
structure Alike (f f' : PlannedField) : Prop where
  plan : f'.plan = f.plan
  depth : f'.declaredDepth = f.declaredDepth

/-- Whether the field has new values along rows or along columns. -/
def HasAxis (f : PlannedField) : Prop :=
  f.axis = .rows ∨ f.axis = .columns

variable {f f' : PlannedField}

theorem Alike.refl (f : PlannedField) : f.Alike f := ⟨rfl, rfl⟩

theorem Alike.symm (h : f.Alike f') : f'.Alike f := ⟨h.plan.symm, h.depth.symm⟩

theorem Alike.axis (h : f.Alike f') : f'.axis = f.axis := by
  unfold PlannedField.axis
  rw [h.plan]

theorem Alike.role (h : f.Alike f') (mixed : Bool) : f'.role mixed = f.role mixed :=
  role_congr h.axis h.depth mixed

/-- Only fields with an axis go with rows or columns. -/
theorem hasAxis_of_role {mixed : Bool} (h : f.role mixed = .row ∨ f.role mixed = .column) :
    f.HasAxis := by
  unfold role at h
  unfold HasAxis
  cases haxis : f.axis with
  | fixed => simp [haxis] at h
  | unset => simp [haxis] at h
  | rows => exact .inl rfl
  | columns => exact .inr rfl

/-- Only fields with an axis have sources. -/
theorem hasAxis_of_addresses {q : Position} (h : f.plan.addresses q = true) : f.HasAxis := by
  unfold HasAxis axis
  cases hplan : f.plan with
  | constant source => rw [hplan] at h; cases h
  | void => rw [hplan] at h; cases h
  | columnScan sheet column firstRow => exact .inl rfl
  | rowScan sheet row => exact .inr rfl
  | list entries =>
    simp only [Plan.axis]
    split_ifs
    · exact .inl rfl
    · exact .inr rfl

end PlannedField

/-- A field whose metric flag is set otherwise is planned alike. -/
theorem Field.plan_setMetric {o : SheetOrder} {field : Field} {f : PlannedField}
    (h : field.plan o = .ok f) (metric : Option Bool) :
    ∃ f', { field with metric := metric }.plan o = .ok f' ∧ f.Alike f' := by
  obtain ⟨a, plan, ha, hplan, rfl⟩ := Field.plan_eq_ok_iff.mp h
  exact ⟨_, Field.plan_eq_ok_iff.mpr ⟨a, plan, ha, hplan, rfl⟩, rfl, rfl⟩

/-- Each of the fields that has an axis has its like among the others. -/
def CoveredBy (fields fields' : List PlannedField) : Prop :=
  ∀ f ∈ fields, f.HasAxis → ∃ f' ∈ fields', f.Alike f'

namespace CoveredBy

variable {fields fields' : List PlannedField}

theorem of_subset (h : ∀ f ∈ fields, f ∈ fields') : CoveredBy fields fields' :=
  fun f hf _ => ⟨f, h f hf, .refl f⟩

/-- A field may be put in the place of its like. -/
theorem of_alike {f f' : PlannedField} (h : f.Alike f') (before after : List PlannedField) :
    CoveredBy (before ++ f :: after) (before ++ f' :: after) := by
  intro g hg _
  rcases List.mem_append.mp hg with hg | hg
  · exact ⟨g, List.mem_append_left _ hg, .refl g⟩
  · rcases List.mem_cons.mp hg with rfl | hg
    · exact ⟨f', List.mem_append_right _ (List.mem_cons_self ..), h⟩
    · exact ⟨g, List.mem_append_right _ (List.mem_cons_of_mem _ hg), .refl g⟩

/-- Fields of both axes stay so. -/
theorem isMixed (h : CoveredBy fields fields') (hmixed : isMixed fields = true) :
    SheetRecords.isMixed fields' = true := by
  have hany : ∀ axis, axis = .rows ∨ axis = .columns →
      (fields.any (·.axis = axis)) = true → (fields'.any (·.axis = axis)) = true := by
    intro axis haxis hany
    obtain ⟨f, hf, hfaxis⟩ := List.any_eq_true.mp hany
    have hfaxis : f.axis = axis := of_decide_eq_true hfaxis
    have hhas : f.HasAxis := by
      unfold PlannedField.HasAxis
      rwa [hfaxis]
    obtain ⟨f', hf', halike⟩ := h f hf hhas
    exact List.any_eq_true.mpr ⟨f', hf', decide_eq_true (halike.axis.trans hfaxis)⟩
  rw [SheetRecords.isMixed, Bool.and_eq_true] at hmixed ⊢
  exact ⟨hany .rows (.inl rfl) hmixed.1, hany .columns (.inr rfl) hmixed.2⟩

/-- Roles that make records stay. -/
theorem mem_roles (h : CoveredBy fields fields') {mixed : Bool} {role : Role}
    (hrole : role = .row ∨ role = .column) (hmem : role ∈ fields.map (·.role mixed)) :
    role ∈ fields'.map (·.role mixed) := by
  obtain ⟨f, hf, rfl⟩ := List.mem_map.mp hmem
  obtain ⟨f', hf', halike⟩ := h f hf (PlannedField.hasAxis_of_role hrole)
  exact List.mem_map.mpr ⟨f', hf', halike.role mixed⟩

end CoveredBy

/-! ### The acts -/

namespace Prepared

variable {p p' : Prepared}

theorem isMixed_of_coveredBy (h : CoveredBy p.fields p'.fields)
    (h' : CoveredBy p'.fields p.fields) : isMixed p'.fields = isMixed p.fields :=
  Bool.eq_iff_iff.mpr ⟨h'.isMixed, h.isMixed⟩

theorem role_of_coveredBy (h : CoveredBy p.fields p'.fields) (h' : CoveredBy p'.fields p.fields)
    (f : PlannedField) : p'.role f = p.role f := by
  unfold role
  rw [isMixed_of_coveredBy h h']

theorem grouping_of_coveredBy (h : CoveredBy p.fields p'.fields)
    (h' : CoveredBy p'.fields p.fields) : p'.grouping = p.grouping := by
  refine grouping_congr fun role hrole => ?_
  unfold roles
  rw [isMixed_of_coveredBy h h']
  exact ⟨h'.mem_roles hrole, h.mem_roles hrole⟩

/-- The like of a source is a source. -/
theorem isSource_of_coveredBy (h : CoveredBy p.fields p'.fields)
    (h' : CoveredBy p'.fields p.fields) {role : Role} {q : Position}
    (hsource : p.isSource role q = true) : p'.isSource role q = true := by
  obtain ⟨f, hf, hfq⟩ := List.any_eq_true.mp hsource
  rw [Bool.and_eq_true, decide_eq_true_eq] at hfq
  obtain ⟨hrole, hq⟩ := hfq
  obtain ⟨f', hf', halike⟩ := h f hf (PlannedField.hasAxis_of_addresses hq)
  refine List.any_eq_true.mpr ⟨f', hf', ?_⟩
  rw [Bool.and_eq_true, decide_eq_true_eq, halike.plan]
  refine ⟨?_, hq⟩
  rw [role_of_coveredBy h h', ← hrole]
  exact halike.role _

/-- **Only fields with an axis count.**  Extractions of one scan have the same acts if each field
with an axis has its like in the other. -/
theorem schedule_of_coveredBy (hscan : p'.scan = p.scan) (h : CoveredBy p.fields p'.fields)
    (h' : CoveredBy p'.fields p.fields) : p'.schedule = p.schedule := by
  refine schedule_congr hscan (grouping_of_coveredBy h h') ?_
  intro role v _
  exact Bool.eq_iff_iff.mpr ⟨isSource_of_coveredBy h' h, isSource_of_coveredBy h h'⟩

/-- Such extractions agree on the fields that they have in common. -/
theorem map_select_of_coveredBy (hp : p.IsLawful) (hp' : p'.IsLawful) (hscan : p'.scan = p.scan)
    (h : CoveredBy p.fields p'.fields) (h' : CoveredBy p'.fields p.fields) {names : List String}
    (hnames : ∀ n ∈ names, ∃ f ∈ p.fields, f ∈ p'.fields ∧ f.name = n) :
    (recordsOf p'.scan p'.names p'.tracks p'.schedule).map (·.select names) =
      (recordsOf p.scan p.names p.tracks p.schedule).map (·.select names) := by
  have hschedule := schedule_of_coveredBy hscan h h'
  refine map_select_eq hp' hp ?_ ?_
  · rw [hschedule]
  · intro n hn
    obtain ⟨f, hf, hf', hname⟩ := hnames n hn
    refine ⟨f, hf', f, hf, hname, hname, ?_⟩
    rw [role_of_coveredBy h h', hscan, hschedule]

end Prepared

/-! ### Other fields for a schema -/

namespace Schema

variable {schema : Schema} {w : Workbook} {e : Extraction}

/-- Fields that are planned for the scan of an extraction, and whose fields with an axis are those of
the schema, can be extracted in its place.  The records agree on the fields in common. -/
theorem exists_extract_of_coveredBy {p : Prepared} (hprepare : schema.prepare w = .ok p)
    (he : .start p schema.options.recordLimit = e) {fields : List Field}
    {planned : List PlannedField} (hnodup : (fields.map (·.name)).Nodup)
    (hplanned : List.Forall₂ (fun field f => field.plan p.scan.order = .ok f) fields planned)
    (h : CoveredBy p.fields planned) (h' : CoveredBy planned p.fields) {names : List String}
    (hnames : ∀ n ∈ names, ∃ f ∈ p.fields, f ∈ planned ∧ f.name = n) :
    ∃ e', { schema with fields := fields }.extract w = .ok e' ∧
      e'.records.map (·.select names) = e.records.map (·.select names) := by
  obtain ⟨-, hgrid, horder, -⟩ := prepare_eq_ok_iff.mp hprepare
  have hprepare' : { schema with fields := fields }.prepare w = .ok ⟨p.scan, planned⟩ :=
    prepare_eq_ok_iff.mpr ⟨hnodup, hgrid, horder, hplanned⟩
  have hp := isLawful_of_prepare w.isLawful_grid hprepare
  have hp' := isLawful_of_prepare w.isLawful_grid hprepare'
  refine ⟨_, extract_eq_ok_iff.mpr ⟨_, hprepare', rfl⟩, ?_⟩
  rw [← he]
  exact Extraction.map_records_start hp' hp _
    (Prepared.map_select_of_coveredBy hp hp' rfl h h' hnames)

/-- The order of the fields is that of the values in a record, and nothing else. -/
theorem extract_perm (h : schema.extract w = .ok e) {fields : List Field}
    (hperm : fields.Perm schema.fields) :
    ∃ e', { schema with fields := fields }.extract w = .ok e' ∧
      e'.records = e.records.map (·.select (fields.map (·.name))) := by
  obtain ⟨p, hprepare, he⟩ := extract_eq_ok_iff.mp h
  obtain ⟨hnodup, -, -, hplans⟩ := prepare_eq_ok_iff.mp hprepare
  obtain ⟨planned, hplanned, hperm'⟩ := List.perm_comp_forall₂ hperm hplans
  have hnames : ∀ n ∈ fields.map (·.name), ∃ f ∈ p.fields, f ∈ planned ∧ f.name = n := by
    intro n hn
    obtain ⟨field, hfield, rfl⟩ := List.mem_map.mp hn
    obtain ⟨f, hf, hplan⟩ := exists_of_mem_forall₂ hplanned hfield
    exact ⟨f, hperm'.mem_iff.mp hf, hf, Field.name_plan hplan⟩
  obtain ⟨e', he', hrecords⟩ := exists_extract_of_coveredBy hprepare he
    ((hperm.map _).nodup_iff.mpr hnodup) hplanned (.of_subset fun f hf => hperm'.mem_iff.mpr hf)
    (.of_subset fun f hf => hperm'.mem_iff.mp hf) hnames
  refine ⟨e', he', ?_⟩
  rw [← hrecords]
  exact (map_select_names he').symm

/-- A constant or a field without cells may be added in any place. -/
theorem extract_insert (h : schema.extract w = .ok e) {before after : List Field} {f : Field}
    (hfields : schema.fields = before ++ after) (hname : f.name ∉ schema.fields.map (·.name))
    (hf : f.isVoid = true ∨
      f.isConstant = true ∧ ∀ o, schema.sheetOrder w = .ok o → ∃ g, f.plan o = .ok g) :
    ∃ e', { schema with fields := before ++ f :: after }.extract w = .ok e' ∧
      e'.records.map (·.select (schema.fields.map (·.name))) = e.records := by
  obtain ⟨p, hprepare, he⟩ := extract_eq_ok_iff.mp h
  obtain ⟨hnodup, -, horder, hplans⟩ := prepare_eq_ok_iff.mp hprepare
  -- The new field has a plan, and no axis.
  obtain ⟨g, hg, haxis⟩ : ∃ g, f.plan p.scan.order = .ok g ∧ ¬ g.HasAxis := by
    rcases hf with hvoid | ⟨hconstant, hplan⟩
    · refine ⟨_, Field.plan_of_isVoid hvoid _, ?_⟩
      simp [PlannedField.HasAxis, PlannedField.axis, Plan.axis]
    · obtain ⟨g, hg⟩ := hplan _ horder
      refine ⟨g, hg, ?_⟩
      rw [← Field.isConstant_plan hg] at hconstant
      unfold PlannedField.HasAxis PlannedField.axis
      cases hgplan : g.plan with
      | constant source => simp [Plan.axis]
      | _ => rw [hgplan] at hconstant; cases hconstant
  rw [hfields] at hplans hnodup hname
  obtain ⟨plannedBefore, plannedAfter, hplanned, hbefore, hafter⟩ := exists_append_of_forall₂ hplans
  have hnodup' : ((before ++ f :: after).map (·.name)).Nodup := by
    have hperm : ((before ++ f :: after).map (·.name)).Perm (f.name :: (before ++ after).map (·.name)) :=
      List.perm_middle.map _
    exact hperm.nodup_iff.mpr (List.nodup_cons.mpr ⟨hname, hnodup⟩)
  have hsubset : ∀ f' ∈ p.fields, f' ∈ plannedBefore ++ g :: plannedAfter := by
    intro f' hf'
    rw [hplanned, List.mem_append] at hf'
    exact List.mem_append.mpr (hf'.imp_right (List.mem_cons_of_mem g))
  have hcovered : CoveredBy (plannedBefore ++ g :: plannedAfter) p.fields := by
    intro f' hf' hf'axis
    refine ⟨f', ?_, .refl f'⟩
    rw [hplanned, List.mem_append]
    refine (List.mem_append.mp hf').imp_right fun hmem => ?_
    rcases List.mem_cons.mp hmem with rfl | hmem
    · exact absurd hf'axis haxis
    · exact hmem
  have hnames : ∀ n ∈ schema.fields.map (·.name), ∃ f' ∈ p.fields,
      f' ∈ plannedBefore ++ g :: plannedAfter ∧ f'.name = n := by
    intro n hn
    rw [hfields] at hn
    obtain ⟨field, hfield, rfl⟩ := List.mem_map.mp hn
    obtain ⟨f', hf', hplan⟩ := exists_of_mem_forall₂ hplans hfield
    exact ⟨f', hf', hsubset f' hf', Field.name_plan hplan⟩
  have hplans' : List.Forall₂ (fun field f => field.plan p.scan.order = .ok f)
      (before ++ f :: after) (plannedBefore ++ g :: plannedAfter) :=
    List.rel_append hbefore (.cons hg hafter)
  obtain ⟨e', he', hrecords⟩ := exists_extract_of_coveredBy hprepare he hnodup' hplans'
    (.of_subset hsubset) hcovered hnames
  exact ⟨e', he', hrecords.trans (map_select_names h)⟩

/-- Whether a field is a metric is of no concern to the others. -/
theorem extract_setMetric (h : schema.extract w = .ok e) {before after : List Field} {f : Field}
    (hfields : schema.fields = before ++ f :: after) (metric : Option Bool) :
    ∃ e', { schema with fields := before ++ { f with metric := metric } :: after }.extract w =
        .ok e' ∧
      e'.records.map (·.select ((before ++ after).map (·.name))) =
        e.records.map (·.select ((before ++ after).map (·.name))) := by
  obtain ⟨p, hprepare, he⟩ := extract_eq_ok_iff.mp h
  obtain ⟨hnodup, -, -, hplans⟩ := prepare_eq_ok_iff.mp hprepare
  rw [hfields] at hplans hnodup
  obtain ⟨plannedBefore, rest, hplanned, hbefore, hrest⟩ := exists_append_of_forall₂ hplans
  obtain ⟨g, plannedAfter, hg, hafter, rfl⟩ := List.forall₂_cons_left_iff.mp hrest
  obtain ⟨g', hg', halike⟩ := Field.plan_setMetric hg metric
  rw [List.map_append, List.map_cons] at hnodup
  have hnodup' : ((before ++ { f with metric := metric } :: after).map (·.name)).Nodup := by
    rw [List.map_append, List.map_cons]
    exact hnodup
  have hplans' : List.Forall₂ (fun field f => field.plan p.scan.order = .ok f)
      (before ++ { f with metric := metric } :: after)
      (plannedBefore ++ g' :: plannedAfter) :=
    List.rel_append hbefore (.cons hg' hafter)
  refine exists_extract_of_coveredBy hprepare he hnodup' hplans' ?_ ?_ ?_
  · rw [hplanned]
    exact .of_alike halike _ _
  · rw [hplanned]
    exact .of_alike halike.symm _ _
  · intro n hn
    obtain ⟨field, hfield, rfl⟩ := List.mem_map.mp hn
    obtain ⟨f', hf', hplan⟩ := exists_of_mem_forall₂ (List.rel_append hbefore hafter) hfield
    rw [hplanned]
    have hmem : ∀ g, f' ∈ plannedBefore ++ g :: plannedAfter := fun g =>
      List.mem_append.mpr ((List.mem_append.mp hf').imp_right (List.mem_cons_of_mem g))
    exact ⟨f', hmem _, hmem _, Field.name_plan hplan⟩

/-- **Fields do not interfere.**  Whenever an extraction succeeds, so does the one with the fields in
another order, with a constant or a field without cells in addition, or with the metric flag of a
field set otherwise; there are records at the same origins, in the same order, and in each of them
all fields have the values they had, but for the one whose flag was set. -/
theorem extract_independent (h : schema.extract w = .ok e) :
    (∀ fields : List Field, fields.Perm schema.fields →
      ∃ e', { schema with fields := fields }.extract w = .ok e' ∧
        e'.records = e.records.map (·.select (fields.map (·.name)))) ∧
    (∀ before after f, schema.fields = before ++ after →
      f.name ∉ schema.fields.map (·.name) →
      (f.isVoid = true ∨
        f.isConstant = true ∧ ∀ o, schema.sheetOrder w = .ok o → ∃ g, f.plan o = .ok g) →
      ∃ e', { schema with fields := before ++ f :: after }.extract w = .ok e' ∧
        e'.records.map (·.select (schema.fields.map (·.name))) = e.records) ∧
    ∀ before f after metric, schema.fields = before ++ f :: after →
      ∃ e', { schema with fields := before ++ { f with metric := metric } :: after }.extract w =
          .ok e' ∧
        e'.records.map (·.select ((before ++ after).map (·.name))) =
          e.records.map (·.select ((before ++ after).map (·.name))) := by
  refine ⟨?_, ?_, ?_⟩
  · intro fields hperm
    exact extract_perm h hperm
  · intro before after f hfields hname hf
    exact extract_insert h hfields hname hf
  · intro before f after metric hfields
    exact extract_setMetric h hfields metric

end Schema

/-- A ledger of one row: a total and two entries. -/
def ledger : Workbook :=
  ⟨[⟨"Ledger", ((Store.empty.set ⟨0, 0⟩ (.boolean true)).set ⟨0, 1⟩ (.boolean false)).set ⟨0, 2⟩
    (.boolean true)⟩]⟩

/-- The total of each row, which is a metric. -/
def ledgerTotal : Field :=
  { Field.named "total" with column := some 0, type := .number }

/-- The entries of the row. -/
def ledgerEntry : Field :=
  { Field.named "entry" with row := some 0 }

/-- The cell of the total once more, as a constant. -/
def ledgerTitle : Field :=
  { Field.named "title" with row := some 0, column := some 0 }

/-- The records have totals and entries. -/
def ledgerSchema : Schema := ⟨[ledgerTotal, ledgerEntry], .default⟩

/-- The total and the entries planned for the ledger. -/
def ledgerPrepared : Prepared :=
  ⟨⟨ledger, .ofNames ["Ledger"]⟩,
    [⟨"total", true, none, .columnScan none 0 0⟩, ⟨"entry", false, none, .rowScan none 0⟩]⟩

/-- Only the first record of the row has the total.  The order of the fields, a constant beside them
and the metric flag of the total make no difference to the entries. -/
theorem Schema.extract_independent_ledger :
    (∃ e', { ledgerSchema with fields := [ledgerEntry, ledgerTotal] }.extract ledger = .ok e' ∧
      e'.records =
        [⟨["entry", "total"], [some (.boolean false), some (.boolean true)],
            ⟨some "Ledger", some 0, some 1⟩⟩,
          ⟨["entry", "total"], [some (.boolean true), none], ⟨some "Ledger", some 0, some 2⟩⟩]) ∧
    (∃ e', { ledgerSchema with fields := [ledgerTotal, ledgerTitle, ledgerEntry] }.extract ledger =
        .ok e' ∧
      e'.records.map (·.select ["total", "entry"]) =
        [⟨["total", "entry"], [some (.boolean true), some (.boolean false)],
            ⟨some "Ledger", some 0, some 1⟩⟩,
          ⟨["total", "entry"], [none, some (.boolean true)], ⟨some "Ledger", some 0, some 2⟩⟩]) ∧
    ∃ e', { ledgerSchema with
        fields := [{ ledgerTotal with metric := some false }, ledgerEntry] }.extract ledger =
        .ok e' ∧
      e'.records.map (·.select ["entry"]) =
        [⟨["entry"], [some (.boolean false)], ⟨some "Ledger", some 0, some 1⟩⟩,
          ⟨["entry"], [some (.boolean true)], ⟨some "Ledger", some 0, some 2⟩⟩] := by
  have hextract : ledgerSchema.extract ledger = .ok (.start ledgerPrepared none) := by
    cbv
  have hrecords : (Extraction.start ledgerPrepared none).records =
      [⟨["total", "entry"], [some (.boolean true), some (.boolean false)],
          ⟨some "Ledger", some 0, some 1⟩⟩,
        ⟨["total", "entry"], [none, some (.boolean true)], ⟨some "Ledger", some 0, some 2⟩⟩] := by
    cbv
  obtain ⟨hperm, hinsert, hmetric⟩ := Schema.extract_independent hextract
  rw [hrecords] at hperm hinsert hmetric
  refine ⟨?_, ?_, ?_⟩
  · exact hperm _ (.swap ..)
  · refine hinsert [ledgerTotal] [ledgerEntry] ledgerTitle rfl (by decide) (.inr ⟨by decide, ?_⟩)
    intro o ho
    obtain rfl : SheetOrder.ofNames ["Ledger"] = o := Except.ok.inj ho
    exact ⟨⟨"title", false, none, .constant (.cell ⟨.sheet 0, ⟨0, 0⟩⟩)⟩, by cbv⟩
  · exact hmetric [] ledgerTotal [ledgerEntry] (some false) rfl

end SheetRecords
