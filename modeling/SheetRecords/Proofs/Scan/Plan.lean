import SheetRecords.Proofs.Except
import SheetRecords.Proofs.Scan.Canonical
import SheetRecords.Proofs.Schema.Addressing

/-!
# The plans of fields

What the plan of each way of addressing looks like (`Addressing.plannedAs_of_plan`): constants and
lists are planned as such and nothing else is, and the entries of a list are sorted
(`Field.isSorted_plan`).  Fields are planned one by one (`planFields_eq_ok_iff`).
-/

namespace SheetRecords

open Cell

/-! ### Ways of addressing -/

/-- What the plan of each way of addressing looks like. -/
def Addressing.PlannedAs (o : SheetOrder) : Addressing → Plan → Prop
  | .constant _ _, plan => ∃ source, plan = .constant source
  | .columnScan sheet column firstRow, plan =>
    ∃ rank, o.resolve? sheet = .ok rank ∧ plan = .columnScan rank column firstRow
  | .rowScan sheet row, plan => ∃ rank, o.resolve? sheet = .ok rank ∧ plan = .rowScan rank row
  | .cellList _, plan => ∃ located, plan = .list (canonicalEntries located).toArray
  | .valueList _, plan => ∃ located, plan = .list (canonicalEntries located).toArray
  | .void, plan => plan = .void

theorem Addressing.plannedAs_of_plan {o : SheetOrder} {a : Addressing} {plan : Plan}
    (h : a.plan o = .ok plan) : a.PlannedAs o plan := by
  cases a with
  | constant place value =>
    obtain ⟨p, -, hplan⟩ := exists_of_bind_eq_ok h
    exact ⟨_, (Except.ok.inj hplan).symm⟩
  | columnScan sheet column firstRow =>
    obtain ⟨rank, hrank, hplan⟩ := exists_of_bind_eq_ok h
    exact ⟨rank, hrank, (Except.ok.inj hplan).symm⟩
  | rowScan sheet row =>
    obtain ⟨rank, hrank, hplan⟩ := exists_of_bind_eq_ok h
    exact ⟨rank, hrank, (Except.ok.inj hplan).symm⟩
  | cellList places =>
    obtain ⟨located, -, hplan⟩ := exists_of_bind_eq_ok h
    exact ⟨located, (Except.ok.inj hplan).symm⟩
  | valueList values =>
    obtain ⟨located, -, hplan⟩ := exists_of_bind_eq_ok h
    exact ⟨located, (Except.ok.inj hplan).symm⟩
  | void => exact (Except.ok.inj h).symm

/-- Planning sorts the entries of lists. -/
theorem Addressing.isSorted_plan {o : SheetOrder} {a : Addressing} {plan : Plan}
    (h : a.plan o = .ok plan) : plan.IsSorted := by
  have hplan := Addressing.plannedAs_of_plan h
  cases a with
  | constant place value =>
    obtain ⟨source, rfl⟩ := hplan
    trivial
  | columnScan sheet column firstRow =>
    obtain ⟨rank, -, rfl⟩ := hplan
    trivial
  | rowScan sheet row =>
    obtain ⟨rank, -, rfl⟩ := hplan
    trivial
  | cellList places =>
    obtain ⟨located, rfl⟩ := hplan
    exact canonicalEntries_sorted _
  | valueList values =>
    obtain ⟨located, rfl⟩ := hplan
    exact canonicalEntries_sorted _
  | void =>
    obtain rfl := hplan
    trivial

/-- The plan of a planned field is sorted. -/
theorem Field.isSorted_plan {o : SheetOrder} {field : Field} {f : PlannedField}
    (h : field.plan o = .ok f) : f.plan.IsSorted := by
  rw [Field.plan] at h
  split at h
  · cases h
  · split at h
    · cases h
    · next hplan =>
      cases h
      exact Addressing.isSorted_plan hplan

/-- Lists are planned as lists, and nothing else is. -/
theorem Addressing.isList_iff_plan {o : SheetOrder} {a : Addressing} {plan : Plan}
    (h : a.plan o = .ok plan) : a.isList = true ↔ ∃ entries, plan = .list entries := by
  have hplan := Addressing.plannedAs_of_plan h
  cases a with
  | constant place value =>
    obtain ⟨source, rfl⟩ := hplan
    simp [isList]
  | columnScan sheet column firstRow =>
    obtain ⟨rank, -, rfl⟩ := hplan
    simp [isList]
  | rowScan sheet row =>
    obtain ⟨rank, -, rfl⟩ := hplan
    simp [isList]
  | cellList places =>
    obtain ⟨located, rfl⟩ := hplan
    simp [isList]
  | valueList values =>
    obtain ⟨located, rfl⟩ := hplan
    simp [isList]
  | void =>
    obtain rfl := hplan
    simp [isList]

/-! ### Fields with a plan -/

/-- The plan of a field is that of its addressing, and the rest of the field stays. -/
theorem Field.plan_eq_ok_iff {o : SheetOrder} {field : Field} {f : PlannedField} :
    field.plan o = .ok f ↔ ∃ a plan, field.addressing = .ok a ∧ a.plan o = .ok plan ∧
      ⟨field.name, field.isMetric, field.depth, plan⟩ = f := by
  rw [Field.plan]
  constructor
  · intro h
    split at h
    · cases h
    · next a ha =>
      split at h
      · cases h
      · next plan hplan =>
        cases h
        exact ⟨a, plan, ha, hplan, rfl⟩
  · rintro ⟨a, plan, ha, hplan, rfl⟩
    simp only [ha, hplan]

theorem Field.addressing_plan {o : SheetOrder} {field : Field} {f : PlannedField}
    (h : field.plan o = .ok f) {a : Addressing} (ha : field.addressing = .ok a) :
    a.plan o = .ok f.plan := by
  obtain ⟨a', plan, ha', hplan, rfl⟩ := Field.plan_eq_ok_iff.mp h
  obtain rfl : a = a' := Except.ok.inj (ha.symm.trans ha')
  exact hplan

/-- Planning a field keeps its name. -/
theorem Field.name_plan {o : SheetOrder} {field : Field} {f : PlannedField}
    (h : field.plan o = .ok f) : f.name = field.name := by
  obtain ⟨a, plan, -, -, rfl⟩ := Field.plan_eq_ok_iff.mp h
  rfl

/-- Planning a field keeps whether it is a metric. -/
theorem Field.isMetric_plan {o : SheetOrder} {field : Field} {f : PlannedField}
    (h : field.plan o = .ok f) : f.isMetric = field.isMetric := by
  obtain ⟨a, plan, -, -, rfl⟩ := Field.plan_eq_ok_iff.mp h
  rfl

/-- A list that is planned has entries. -/
theorem Field.size_pos_of_plan {o : SheetOrder} {field : Field} {f : PlannedField}
    (h : field.plan o = .ok f) {entries : Array Entry} (hl : f.plan = .list entries) :
    0 < entries.size := by
  obtain ⟨a, plan, ha, hplan, rfl⟩ := Field.plan_eq_ok_iff.mp h
  obtain rfl : plan = .list entries := hl
  have hlist := (Addressing.isList_iff_plan hplan).mpr ⟨entries, rfl⟩
  obtain ⟨-, -, hlisted⟩ := (Field.addressing_eq_list_iff hlist).mp ha
  -- One of the places that are listed has an entry.
  have hkept : ∀ {α : Type} {l : List α} {locate : α → Except Fault Entry}, l ≠ [] →
      (do return Plan.list (canonicalEntries (← l.mapM locate)).toArray) =
        Except.ok (Plan.list entries) → 0 < entries.size := by
    intro α l locate hne h
    obtain ⟨located, hlocated, hentries⟩ := exists_of_bind_eq_ok h
    obtain rfl := Plan.list.inj (Except.ok.inj hentries)
    obtain ⟨x, hx⟩ := List.exists_mem_of_ne_nil l hne
    obtain ⟨e, he, -⟩ := exists_of_mem_forall₂ (mapM_eq_ok_iff.mp hlocated) hx
    obtain ⟨e', he', -⟩ := exists_mem_canonicalEntries he
    rw [List.size_toArray]
    exact List.length_pos_of_mem he'
  cases a with
  | cellList places =>
    obtain ⟨rfl, hne⟩ := Field.of_listed_eq_cellList hlisted
    exact hkept hne hplan
  | valueList values =>
    obtain ⟨rfl, hne⟩ := Field.of_listed_eq_valueList hlisted
    exact hkept hne hplan
  | _ => cases hlist

/-- A field that has a plan is addressed without fault. -/
theorem Field.issue?_of_plan_eq_ok {o : SheetOrder} {field : Field} {f : PlannedField}
    (h : field.plan o = .ok f) : field.issue? = none := by
  obtain ⟨a, plan, ha, -, -⟩ := Field.plan_eq_ok_iff.mp h
  rw [Field.issue?, ha]

/-- A field without cells has a plan in any case. -/
theorem Field.plan_of_isVoid {field : Field} (h : field.isVoid = true) (o : SheetOrder) :
    field.plan o = .ok ⟨field.name, field.isMetric, field.depth, .void⟩ := by
  have hvoid : field.addressing = .ok .void := by
    unfold Field.isVoid at h
    split at h
    · assumption
    · cases h
  exact Field.plan_eq_ok_iff.mpr ⟨.void, .void, hvoid, rfl, rfl⟩

/-- Whether the value of a field comes from a fixed place. -/
def Plan.isConstant : Plan → Bool
  | .constant _ => true
  | _ => false

/-- Only the addressing of a constant has the plan of one. -/
theorem Addressing.isConstant_plan {o : SheetOrder} {a : Addressing} {plan : Plan}
    (h : a.plan o = .ok plan) :
    plan.isConstant = true ↔ ∃ place value, a = .constant place value := by
  have hplan := Addressing.plannedAs_of_plan h
  cases a with
  | constant place value =>
    obtain ⟨source, rfl⟩ := hplan
    simp [Plan.isConstant]
  | columnScan sheet column firstRow =>
    obtain ⟨rank, -, rfl⟩ := hplan
    simp [Plan.isConstant]
  | rowScan sheet row =>
    obtain ⟨rank, -, rfl⟩ := hplan
    simp [Plan.isConstant]
  | cellList places =>
    obtain ⟨located, rfl⟩ := hplan
    simp [Plan.isConstant]
  | valueList values =>
    obtain ⟨located, rfl⟩ := hplan
    simp [Plan.isConstant]
  | void =>
    obtain rfl := hplan
    simp [Plan.isConstant]

/-- A field is planned as a constant just if it is one. -/
theorem Field.isConstant_plan {o : SheetOrder} {field : Field} {f : PlannedField}
    (h : field.plan o = .ok f) : f.plan.isConstant = field.isConstant := by
  obtain ⟨a, plan, ha, hplan, rfl⟩ := Field.plan_eq_ok_iff.mp h
  rw [Bool.eq_iff_iff, Addressing.isConstant_plan hplan, Field.isConstant, ha]
  cases a <;> simp

/-! ### All fields -/

/-- The fields are planned one by one. -/
theorem planFields_eq_ok_iff {o : SheetOrder} {fields : List Field} {planned : List PlannedField} :
    planFields o fields = .ok planned ↔
      List.Forall₂ (fun field f => field.plan o = .ok f) fields planned := by
  induction fields generalizing planned with
  | nil => simp [planFields, eq_comm]
  | cons field rest ih =>
    rw [planFields, List.forall₂_cons_left_iff]
    constructor
    · intro h
      split at h
      · next first others hfirst hothers =>
        cases h
        exact ⟨first, others, hfirst, ih.mp hothers, rfl⟩
      all_goals cases h
    · rintro ⟨first, others, hfirst, hothers, rfl⟩
      rw [hfirst, ih.mpr hothers]

/-- If some fields cannot be planned, the issues of all of them are given, in order. -/
theorem planFields_of_failures (o : SheetOrder) (fields : List Field) :
    let issues := fields.filterMap fun field => failure? (field.plan o)
    (issues = [] → ∃ planned, planFields o fields = .ok planned) ∧
      (issues ≠ [] → planFields o fields = .error issues) := by
  induction fields with
  | nil => exact ⟨fun _ => ⟨[], rfl⟩, fun h => absurd rfl h⟩
  | cons field rest ih =>
    obtain ⟨hnone, hsome⟩ := ih
    rw [List.filterMap_cons, planFields]
    generalize rest.filterMap (fun field => failure? (field.plan o)) = issues at hnone hsome
    cases hplan : field.plan o with
    | ok planned =>
      simp only [failure?]
      constructor
      · intro h
        obtain ⟨others, hothers⟩ := hnone h
        exact ⟨planned :: others, by rw [hothers]⟩
      · intro h
        rw [hsome h]
    | error issue =>
      simp only [failure?]
      refine ⟨fun h => absurd h (List.cons_ne_nil _ _), fun _ => ?_⟩
      by_cases h : issues = []
      · obtain ⟨others, hothers⟩ := hnone h
        rw [hothers, h]
      · rw [hsome h]

/-- Planned fields come from fields that are planned one by one. -/
theorem mem_planFields {o : SheetOrder} {fields : List Field} {planned : List PlannedField}
    (h : planFields o fields = .ok planned) {f : PlannedField} (hf : f ∈ planned) :
    ∃ field ∈ fields, field.plan o = .ok f := by
  induction fields generalizing planned with
  | nil =>
    cases h
    cases hf
  | cons field rest ih =>
    rw [planFields] at h
    split at h
    · next first others hfirst hothers =>
      cases h
      rcases List.mem_cons.mp hf with rfl | hf
      · exact ⟨field, List.mem_cons_self .., hfirst⟩
      · obtain ⟨field', hmem, hplan⟩ := ih hothers hf
        exact ⟨field', List.mem_cons_of_mem _ hmem, hplan⟩
    all_goals cases h

theorem map_name_planFields {o : SheetOrder} {fields : List Field} {planned : List PlannedField}
    (h : planFields o fields = .ok planned) : planned.map (·.name) = fields.map (·.name) := by
  have hplans := planFields_eq_ok_iff.mp h
  clear h
  induction hplans with
  | nil => rfl
  | cons hfirst _ ih => rw [List.map_cons, List.map_cons, ih, Field.name_plan hfirst]

end SheetRecords
