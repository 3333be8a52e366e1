import Mathlib.Data.List.Forall2
import SheetRecords.Extraction
import SheetRecords.Proofs.Scan.Source

/-!
# Schemas that are made ready

What `Schema.prepare` promises on success (`Prepared.IsLawful`): the grid is lawful if it was so
before, the plans of the fields are sorted, and no two fields have the same name.  It succeeds just
if the names of the fields differ, the sheets have an order, and each field has a plan
(`Schema.prepare_eq_ok_iff`).
-/

namespace SheetRecords

open Cell

/-- The role of a field is settled by its axis and the depth that it declares. -/
theorem PlannedField.role_congr {f f' : PlannedField} (haxis : f'.axis = f.axis)
    (hdepth : f'.declaredDepth = f.declaredDepth) (mixed : Bool) : f'.role mixed = f.role mixed := by
  unfold role role.byDepth depth
  rw [haxis, hdepth]

namespace Prepared

variable (p : Prepared)

/-- The role of a field among the fields of the schema. -/
def role (f : PlannedField) : Role :=
  f.role (isMixed p.fields)

/-- The names of the fields. -/
def names : List String :=
  p.fields.map (·.name)

/-- A grid is lawful, the plans of its fields are sorted and their names differ. -/
structure IsLawful : Prop where
  grid : p.scan.grid.IsLawful
  plans : ∀ f ∈ p.fields, f.plan.IsSorted
  nodup_names : p.names.Nodup

variable {p}

/-- Only fields that go with the whole document are constants. -/
theorem isConstant_of_role {f : PlannedField} (h : p.role f = .row ∨ p.role f = .column) :
    f.plan.isConstant = false := by
  cases hplan : f.plan with
  | constant source =>
    have hrole : p.role f = .document := by
      simp [role, PlannedField.role, PlannedField.axis, hplan, Plan.axis]
    rw [hrole] at h
    simp at h
  | _ => rfl

end Prepared

/-! ### Names -/

/-- A name is given just if its second occurrence is still to come. -/
theorem mem_repeatedNames_iff {met names : List String} {name : String} :
    name ∈ repeatedNames met names ↔
      met.count name ≤ 1 ∧ 2 ≤ met.count name + names.count name := by
  induction names generalizing met with
  | nil =>
    simp only [repeatedNames, List.not_mem_nil, List.count_nil, false_iff]
    omega
  | cons first rest ih =>
    simp only [repeatedNames]
    by_cases hname : first = name
    · subst hname
      have hmet : (first :: met).count first = met.count first + 1 := List.count_cons_self ..
      have hrest : (first :: rest).count first = rest.count first + 1 := List.count_cons_self ..
      split_ifs with hsecond
      · simp only [List.mem_cons, true_or, true_iff]
        omega
      · rw [ih]
        omega
    · have hmet : (first :: met).count name = met.count name := List.count_cons_of_ne hname
      have hrest : (first :: rest).count name = rest.count name := List.count_cons_of_ne hname
      have hmem : name ∈ first :: repeatedNames (first :: met) rest ↔
          name ∈ repeatedNames (first :: met) rest := by
        rw [List.mem_cons]
        exact or_iff_right (Ne.symm hname)
      split_ifs
      · rw [hmem, ih]
        omega
      · rw [ih]
        omega

/-- No name is repeated just if all differ. -/
theorem repeatedNames_eq_nil_iff {names : List String} :
    repeatedNames [] names = [] ↔ names.Nodup := by
  rw [List.nodup_iff_count_le_one, List.eq_nil_iff_forall_not_mem]
  refine forall_congr' fun name => ?_
  rw [mem_repeatedNames_iff, List.count_nil]
  omega

/-! ### What preparing promises -/

/-- A schema that is made ready has no issues, an order of sheets, and its fields planned for it. -/
theorem Schema.of_prepare_eq_ok {schema : Schema} {g : Grid} {p : Prepared}
    (h : schema.prepare g = .ok p) :
    schema.report.issues = [] ∧ p.scan.grid = g ∧ schema.sheetOrder g = .ok p.scan.order ∧
      planFields p.scan.order schema.fields = .ok p.fields := by
  simp only [Schema.prepare] at h
  split_ifs at h with hissues
  · cases h
  · have hissues : schema.report.issues = [] := by simpa using hissues
    cases horder : schema.sheetOrder g with
    | error e => rw [horder] at h; cases h
    | ok order =>
      rw [horder] at h
      change (do
        let fields ← (planFields order schema.fields).mapError ExtractionError.misconfigured
        return Prepared.mk ⟨g, order⟩ fields) = .ok p at h
      cases hfields : planFields order schema.fields with
      | error issues => rw [hfields] at h; cases h
      | ok fields =>
        rw [hfields] at h
        cases h
        exact ⟨hissues, rfl, rfl, hfields⟩

/-- **When a schema is made ready.**  The names of its fields differ, the sheets have an order, and
each field has a plan. -/
theorem Schema.prepare_eq_ok_iff {schema : Schema} {g : Grid} {p : Prepared} :
    schema.prepare g = .ok p ↔
      (schema.fields.map (·.name)).Nodup ∧ p.scan.grid = g ∧
        schema.sheetOrder g = .ok p.scan.order ∧
        List.Forall₂ (fun field f => field.plan p.scan.order = .ok f) schema.fields p.fields := by
  constructor
  · intro h
    obtain ⟨hissues, hgrid, horder, hfields⟩ := Schema.of_prepare_eq_ok h
    have hrepeated : repeatedNames [] (schema.fields.map (·.name)) = [] :=
      List.map_eq_nil_iff.mp (List.append_eq_nil_iff.mp hissues).2
    exact ⟨repeatedNames_eq_nil_iff.mp hrepeated, hgrid, horder,
      planFields_eq_ok_iff.mp hfields⟩
  · rintro ⟨hnames, rfl, horder, hfields⟩
    have hissues : schema.report.issues = [] := by
      have hclassified : schema.fields.filterMap Field.issue? = [] := by
        refine List.filterMap_eq_nil_iff.mpr ?_
        intro field hfield
        obtain ⟨f, -, hplan⟩ := exists_of_mem_forall₂ hfields hfield
        exact Field.issue?_of_plan_eq_ok hplan
      simp only [Schema.report, hclassified]
      rw [repeatedNames_eq_nil_iff.mpr hnames]
      rfl
    simp only [Schema.prepare, hissues, horder]
    change (do
      let fields ← (planFields p.scan.order schema.fields).mapError ExtractionError.misconfigured
      return Prepared.mk ⟨p.scan.grid, p.scan.order⟩ fields) = .ok p
    rw [planFields_eq_ok_iff.mpr hfields]
    rfl

/-- An extraction starts as soon as the schema is ready. -/
theorem Schema.extract_eq_ok_iff {schema : Schema} {g : Grid} {e : Extraction} :
    schema.extract g = .ok e ↔
      ∃ p, schema.prepare g = .ok p ∧ .start p schema.options.recordLimit = e := by
  rw [Schema.extract]
  cases schema.prepare g with
  | error issue =>
    constructor
    · intro h
      cases h
    · rintro ⟨p, hp, -⟩
      cases hp
  | ok p =>
    constructor
    · intro h
      cases h
      exact ⟨p, rfl, rfl⟩
    · rintro ⟨_, hp, rfl⟩
      cases hp
      rfl

/-- A schema that is made ready for a lawful grid. -/
theorem Schema.isLawful_of_prepare {schema : Schema} {g : Grid} (hg : g.IsLawful) {p : Prepared}
    (h : schema.prepare g = .ok p) : p.IsLawful := by
  obtain ⟨hissues, rfl, -, hfields⟩ := Schema.of_prepare_eq_ok h
  refine ⟨hg, ?_, ?_⟩
  · intro f hf
    obtain ⟨field, -, hplan⟩ := mem_planFields hfields hf
    exact Field.isSorted_plan hplan
  · have hrepeated : repeatedNames [] (schema.fields.map (·.name)) = [] :=
      List.map_eq_nil_iff.mp (List.append_eq_nil_iff.mp hissues).2
    rw [Prepared.names, map_name_planFields hfields]
    exact repeatedNames_eq_nil_iff.mp hrepeated

end SheetRecords
