import Mathlib.Data.Finset.Sort
import SheetRecords.Proofs.Record.Act
import SheetRecords.Proofs.Record.Prepared

/-!
# The schedule of an extraction

Which acts the tracks of an extraction go through is settled by the cells and the plans alone
(`Prepared.schedule`): the cells of each row are observed, the records of the row are emitted and
the row is closed; after the last row of a sheet the records of the sheet are emitted and the sheet
is closed.  A row or column has a record if it holds a source of a field with the role that goes
with it (`Prepared.isSource`).

The schedule visits each cell of the scan once and in order (`Prepared.visits_schedule`).
-/

namespace SheetRecords

open Cell

/-! ### Ascending lists -/

/-- The numbers of a list in ascending order, each once. -/
def ascending (ns : List Nat) : List Nat :=
  ns.toFinset.sort

@[simp]
theorem mem_ascending {ns : List Nat} {n : Nat} : n ∈ ascending ns ↔ n ∈ ns := by
  simp [ascending]

theorem sortedLT_ascending (ns : List Nat) : (ascending ns).SortedLT :=
  Finset.sortedLT_sort _

/-- An ascending list is settled by its members. -/
theorem eq_ascending {l ns : List Nat} (hl : l.SortedLT) (h : ∀ n, n ∈ l ↔ n ∈ ns) :
    l = ascending ns :=
  hl.eq_of_mem_iff (sortedLT_ascending ns) fun n => (h n).trans mem_ascending.symm

theorem toList_eq_ascending {t : Std.TreeSet Nat} {ns : List Nat} (h : ∀ n, n ∈ t ↔ n ∈ ns) :
    t.toList = ascending ns := by
  refine eq_ascending ?_ fun n => Std.TreeSet.mem_toList.trans (h n)
  exact (t.ordered_toList.imp fun hab => Nat.compare_eq_lt.mp hab).sortedLT

/-! ### Rows -/

/-- The visits of a sheet split where the row changes, with the numbers of the rows. -/
def rowsOf : List Visit → List (Nat × List Visit)
  | [] => []
  | v :: vs =>
    match rowsOf vs with
    | [] => [(v.position.address.row, [v])]
    | (r, row) :: rest =>
      if v.position.address.row = r then (r, v :: row) :: rest
      else (v.position.address.row, [v]) :: (r, row) :: rest

/-- Nothing is lost in splitting. -/
theorem flatMap_rowsOf (vs : List Visit) : (rowsOf vs).flatMap (·.2) = vs := by
  induction vs with
  | nil => rfl
  | cons v vs ih =>
    rw [rowsOf]
    split
    · next h =>
      rw [h] at ih
      rw [← ih]
      rfl
    · next r row rest h =>
      rw [h] at ih
      split_ifs <;> rw [← ih] <;> rfl

/-- A row has cells, and all of them lie in it. -/
theorem of_mem_rowsOf {vs : List Visit} {r : Nat} {row : List Visit} (h : (r, row) ∈ rowsOf vs) :
    row ≠ [] ∧ ∀ v ∈ row, v.position.address.row = r := by
  induction vs generalizing r row with
  | nil => cases h
  | cons v vs ih =>
    rw [rowsOf] at h
    split at h
    · rw [List.mem_singleton, Prod.mk.injEq] at h
      obtain ⟨rfl, rfl⟩ := h
      simp
    · next r' row' rest hrest =>
      rw [hrest] at ih
      split_ifs at h with hrow
      · rcases List.mem_cons.mp h with heq | hmem
        · rw [Prod.mk.injEq] at heq
          obtain ⟨rfl, rfl⟩ := heq
          refine ⟨List.cons_ne_nil _ _, ?_⟩
          intro u hu
          rcases List.mem_cons.mp hu with rfl | hu
          · exact hrow
          · exact (ih (List.mem_cons_self ..)).2 u hu
        · exact ih (List.mem_cons_of_mem _ hmem)
      · rcases List.mem_cons.mp h with heq | hmem
        · rw [Prod.mk.injEq] at heq
          obtain ⟨rfl, rfl⟩ := heq
          simp
        · exact ih hmem

/-- The rows come in strictly ascending order if the visits do not go back to an earlier row. -/
theorem rowsOf_sorted {vs : List Visit}
    (h : vs.Pairwise fun u v => u.position.address.row ≤ v.position.address.row) :
    (rowsOf vs).Pairwise fun a b => a.1 < b.1 := by
  induction vs with
  | nil => exact List.Pairwise.nil
  | cons v vs ih =>
    rw [List.pairwise_cons] at h
    have hrows := ih h.2
    -- The number of a later row is that of a later visit.
    have hle : ∀ a ∈ rowsOf vs, v.position.address.row ≤ a.1 := by
      intro ⟨r, row⟩ ha
      obtain ⟨hne, hall⟩ := of_mem_rowsOf ha
      obtain ⟨u, hu⟩ := List.exists_mem_of_ne_nil row hne
      rw [← hall u hu]
      refine h.1 u ?_
      rw [← flatMap_rowsOf vs]
      exact List.mem_flatMap.mpr ⟨(r, row), ha, hu⟩
    rw [rowsOf]
    split
    · exact List.pairwise_singleton _ _
    · next r row rest hrest =>
      rw [hrest] at hrows hle
      split_ifs with hrow
      · exact List.pairwise_cons.mpr (List.pairwise_cons.mp hrows)
      · refine List.pairwise_cons.mpr ⟨?_, hrows⟩
        have hlt : v.position.address.row < r :=
          lt_of_le_of_ne (hle (r, row) (List.mem_cons_self ..)) hrow
        intro a ha
        rcases List.mem_cons.mp ha with rfl | ha
        · exact hlt
        · exact hlt.trans ((List.pairwise_cons.mp hrows).1 a ha)

/-! ### The schedule -/

namespace Prepared

variable (p : Prepared)

/-- How the records are told apart. -/
def grouping : Grouping :=
  .ofRoles (roles p.fields)

/-- Whether a cell is a source of some field of a role. -/
def isSource (role : Role) (q : Position) : Bool :=
  p.fields.any fun f => p.role f = role && f.plan.addresses q

/-- The columns of the cells that are sources of fields which go with columns. -/
def sourceColumns (vs : List Visit) : List Nat :=
  (vs.filter fun v => p.isSource .column v.position).map (·.position.address.column)

/-- The columns for which a row gives records. -/
def rowColumns (row : List Visit) : List (Option Nat) :=
  if row.any fun v => p.isSource .row v.position then
    match p.grouping with
    | .rows => [none]
    | .nested =>
      match ascending (p.sourceColumns row) with
      | [] => [none]
      | columns => columns.map some
    | _ => []
  else []

/-- The columns for which a sheet gives records. -/
def sheetColumns (vs : List Visit) : List (Option Nat) :=
  if p.grouping = .columns then (ascending (p.sourceColumns vs)).map some else []

/-- The records of a row. -/
def rowEmissions (name : String) (r : Nat) (row : List Visit) : List Act :=
  (p.rowColumns row).map fun column => .emit true column ⟨some name, some r, column⟩

/-- The records of a sheet. -/
def sheetEmissions (name : String) (vs : List Visit) : List Act :=
  (p.sheetColumns vs).map fun column => .emit false column ⟨some name, none, column⟩

/-- The acts of a row. -/
def rowActs (name : String) (row : Nat × List Visit) : List Act :=
  row.2.map .observe ++ p.rowEmissions name row.1 row.2 ++ [.closeRow]

/-- The acts of a sheet with the given visits.  A sheet without any is passed over. -/
def sheetActs (name : String) (vs : List Visit) : List Act :=
  if vs = [] then []
  else (rowsOf vs).flatMap (p.rowActs name) ++ p.sheetEmissions name vs ++ [.closeSheet]

/-- The acts at the end: a document of constants has one record. -/
def endActs : List Act :=
  if p.grouping = .document then [.readConstants, .emit false none ⟨none, none, none⟩] else []

/-- The acts of the whole extraction. -/
def schedule : List Act :=
  (p.scan.order.names.zipIdx.flatMap fun sheet =>
    p.sheetActs sheet.1 (p.scan.sheetVisits sheet.2 sheet.1)) ++ p.endActs

/-- The tracks before the scan. -/
def tracks : List Track :=
  p.fields.map fun f => .start f (p.role f)

end Prepared

theorem visits_map_observe (vs : List Visit) : Act.visits (vs.map .observe) = vs := by
  simp [Act.visits, List.filterMap_map, Function.comp_def, Act.visit?]

theorem visits_map_emit (ofRow : Bool) (columns : List (Option Nat))
    (origin : Option Nat → Origin) :
    Act.visits (columns.map fun column => .emit ofRow column (origin column)) = [] := by
  simp [Act.visits, List.filterMap_map, Function.comp_def, Act.visit?]

namespace Prepared

variable (p : Prepared)

theorem visits_rowActs (name : String) (row : Nat × List Visit) :
    Act.visits (p.rowActs name row) = row.2 := by
  have hemissions : Act.visits (p.rowEmissions name row.1 row.2) = [] := visits_map_emit ..
  rw [rowActs, Act.visits_append, Act.visits_append, visits_map_observe, hemissions]
  simp [Act.visits, Act.visit?]

theorem visits_sheetActs (name : String) (vs : List Visit) :
    Act.visits (p.sheetActs name vs) = vs := by
  have hemissions : Act.visits (p.sheetEmissions name vs) = [] := visits_map_emit ..
  rw [sheetActs]
  split_ifs with hvs
  · rw [hvs]
    rfl
  · have hrows : Act.visits ((rowsOf vs).flatMap (p.rowActs name)) = vs := by
      rw [Act.visits, List.filterMap_flatMap]
      conv_rhs => rw [← flatMap_rowsOf vs]
      exact List.flatMap_congr fun row _ => p.visits_rowActs name row
    rw [Act.visits_append, Act.visits_append, hrows, hemissions]
    simp [Act.visits, Act.visit?]

/-- The schedule visits the cells of the scan. -/
theorem visits_schedule : Act.visits p.schedule = p.scan.visits := by
  have hend : Act.visits p.endActs = [] := by
    rw [endActs]
    split_ifs <;> rfl
  rw [schedule, Act.visits_append, hend, List.append_nil, Act.visits, List.filterMap_flatMap,
    Scan.visits_eq_flatMap]
  exact List.flatMap_congr fun sheet _ => p.visits_sheetActs sheet.1 _

variable {p}

theorem isReachable_of_mem_schedule {v : Visit} (hv : v ∈ Act.visits p.schedule) :
    v.position.rank.isReachable = true := by
  rw [visits_schedule] at hv
  exact Scan.isReachable_of_mem_visits hv

/-- The acts of a lawful extraction visit the cells in order. -/
theorem IsLawful.inOrder_schedule (hp : p.IsLawful) : Act.InOrder p.scan p.schedule where
  sorted := by
    rw [visits_schedule]
    exact Scan.visits_sorted hp.grid
  agrees v hv := by
    rw [visits_schedule] at hv
    exact Scan.agrees_of_mem_visits hp.grid hv

/-- The rows of the visits of a sheet come in ascending order. -/
theorem IsLawful.rowsOf_sorted (hp : p.IsLawful) (i : Nat) (name : String) :
    (rowsOf (p.scan.sheetVisits i name)).Pairwise fun x y => x.1 < y.1 := by
  refine SheetRecords.rowsOf_sorted ((Scan.sheetVisits_sorted hp.grid i name).imp_of_mem ?_)
  intro u v hu hv huv
  have hu := (Scan.mem_sheetVisits_iff.mp hu).1
  have hv := (Scan.mem_sheetVisits_iff.mp hv).1
  rw [Position.lt_iff, hu, hv, Address.lt_iff] at huv
  rcases huv with hlt | ⟨-, hlt | ⟨heq, -⟩⟩
  · exact absurd hlt (lt_irrefl _)
  · exact hlt.le
  · exact heq.le

/-! ### What the schedule depends on -/

end Prepared

/-- Whether some member has a property depends on the members only. -/
theorem any_congr_of_mem {α : Type} {l : List α} {f g : α → Bool} (h : ∀ a ∈ l, f a = g a) :
    l.any f = l.any g := by
  rw [← Function.id_comp f, ← Function.id_comp g, ← List.any_map, ← List.any_map,
    List.map_congr_left h]

namespace Prepared

variable {p p' : Prepared}

theorem mem_roles_iff {role : Role} :
    role ∈ roles p.fields ↔ p.fields.any (p.role · = role) = true := by
  rw [List.any_eq_true]
  simp only [decide_eq_true_eq]
  exact List.mem_map

/-- The grouping depends on whether there are fields for rows and for columns only. -/
theorem grouping_congr
    (h : ∀ role, role = .row ∨ role = .column →
      (role ∈ roles p'.fields ↔ role ∈ roles p.fields)) :
    p'.grouping = p.grouping := by
  have hcontains : ∀ role, role = .row ∨ role = .column →
      (roles p'.fields).contains role = (roles p.fields).contains role := by
    intro role hrole
    rw [Bool.eq_iff_iff, List.contains_iff_mem, List.contains_iff_mem]
    exact h role hrole
  unfold grouping Grouping.ofRoles
  rw [hcontains .row (.inl rfl), hcontains .column (.inr rfl)]

theorem sourceColumns_congr {vs : List Visit}
    (hsource : ∀ v ∈ vs, p'.isSource .column v.position = p.isSource .column v.position) :
    p'.sourceColumns vs = p.sourceColumns vs := by
  unfold sourceColumns
  rw [List.filter_congr hsource]

theorem rowActs_congr (hgrouping : p'.grouping = p.grouping) (name : String)
    {row : Nat × List Visit}
    (hsource : ∀ role, ∀ v ∈ row.2, p'.isSource role v.position = p.isSource role v.position) :
    p'.rowActs name row = p.rowActs name row := by
  have hany : (row.2.any fun v => p'.isSource .row v.position) =
      row.2.any fun v => p.isSource .row v.position := any_congr_of_mem (hsource .row)
  have hcolumns : p'.rowColumns row.2 = p.rowColumns row.2 := by
    unfold rowColumns
    rw [hany, hgrouping, sourceColumns_congr (hsource .column)]
  unfold rowActs rowEmissions
  rw [hcolumns]

/-- The acts of a sheet depend on the grouping and on the sources among its visits only. -/
theorem sheetActs_congr (hgrouping : p'.grouping = p.grouping) (name : String) {vs : List Visit}
    (hsource : ∀ role, ∀ v ∈ vs, p'.isSource role v.position = p.isSource role v.position) :
    p'.sheetActs name vs = p.sheetActs name vs := by
  have hrows : (rowsOf vs).flatMap (p'.rowActs name) = (rowsOf vs).flatMap (p.rowActs name) := by
    refine List.flatMap_congr fun row hrow => rowActs_congr hgrouping name ?_
    intro role v hv
    refine hsource role v ?_
    rw [← flatMap_rowsOf vs]
    exact List.mem_flatMap.mpr ⟨row, hrow, hv⟩
  unfold sheetActs sheetEmissions sheetColumns
  rw [hrows, hgrouping, sourceColumns_congr (hsource .column)]

/-- The acts of an extraction depend on the grouping and on the sources among the visited cells
only. -/
theorem schedule_congr (hscan : p'.scan = p.scan) (hgrouping : p'.grouping = p.grouping)
    (hsource : ∀ role, ∀ v ∈ p.scan.visits,
      p'.isSource role v.position = p.isSource role v.position) :
    p'.schedule = p.schedule := by
  unfold schedule endActs
  rw [hscan, hgrouping]
  congr 1
  refine List.flatMap_congr fun sheet hsheet => sheetActs_congr hgrouping sheet.1 ?_
  intro role v hv
  refine hsource role v ?_
  rw [Scan.visits_eq_flatMap]
  exact List.mem_flatMap.mpr ⟨sheet, hsheet, hv⟩

end Prepared

end SheetRecords
