import Mathlib.Data.List.Nodup
import SheetRecords.Proofs.Record.Prepared

/-!
# A scan gives every cell once

What pulling gives is settled by what is still to come: a stream gives just `CellStream.visits`
before it has no next cell (`CellStream.gives_iff`), so that it comes to an end.  From the start
that is the scan sheet by sheet (`CellStream.visits_start`), and for a workbook each cell that holds
something on a sheet of the order (`Schema.scan_once`).
-/

namespace SheetRecords

open Cell

namespace CellStream

variable {g : Grid} {c rest : CellStream} {v : Visit} {vs : List Visit}

/-- From the start a stream has the cells of the whole scan to give. -/
theorem visits_start (s : Scan) : (start s.order).visits s.grid = s.visits := by
  have hsheets : (s.order.names.map fun name => cellsOf s.grid (s.order.rank name, name)) =
      s.order.names.mapIdx s.sheetVisits := by
    refine List.ext_getElem (by simp) fun i hi _ => ?_
    rw [List.length_map] at hi
    have hname : s.order.names[i]? = some s.order.names[i] := List.getElem?_eq_getElem hi
    rw [List.getElem_map, List.getElem_mapIdx, SheetOrder.rank_of_getElem? hname]
    rfl
  unfold visits start Scan.visits
  rw [List.nil_append, List.flatMap_map, List.flatMap_def, hsheets]

/-- Pulling cells off the stream until there are no more gives these, one after the other. -/
inductive Gives (g : Grid) : CellStream → List Visit → Prop
  | done {c : CellStream} (h : c.next? g = none) : Gives g c []
  | next {c rest : CellStream} {v : Visit} {vs : List Visit} (h : c.next? g = some (v, rest))
      (hrest : Gives g rest vs) : Gives g c (v :: vs)

theorem Gives.eq_visits (h : c.Gives g vs) : vs = c.visits g := by
  induction h with
  | done h => rw [visits_of_next?_eq_none h]
  | next h _ ih => rw [visits_of_next?_eq_some h, ih]

/-- Each pull takes one away from the cells that are still to come, so that there is a last one. -/
theorem gives_visits (g : Grid) (c : CellStream) : c.Gives g (c.visits g) := by
  induction hvs : c.visits g generalizing c with
  | nil =>
    cases hnext : c.next? g with
    | none => exact .done hnext
    | some pulled =>
      have hvisits := visits_of_next?_eq_some hnext
      rw [hvs] at hvisits
      cases hvisits
  | cons v vs ih =>
    cases hnext : c.next? g with
    | none =>
      have hvisits := visits_of_next?_eq_none hnext
      rw [hvs] at hvisits
      cases hvisits
    | some pulled =>
      obtain ⟨u, rest⟩ := pulled
      have hvisits := visits_of_next?_eq_some hnext
      rw [hvs, List.cons.injEq] at hvisits
      obtain ⟨rfl, hrest⟩ := hvisits
      exact .next hnext (ih rest hrest.symm)

/-- **What pulling gives.**  A stream comes to an end, and has then given what was still to come. -/
theorem gives_iff : c.Gives g vs ↔ vs = c.visits g := by
  constructor
  · exact Gives.eq_visits
  · rintro rfl
    exact gives_visits g c

end CellStream

/-! ### Workbooks -/

/-- If the names of the sheets differ, each sheet is found by its own. -/
theorem Workbook.sheet?_eq_some_iff {w : Workbook} (hnames : w.names.Nodup) {name : String}
    {sheet : Sheet} : w.sheet? name = some sheet ↔ sheet ∈ w.sheets ∧ sheet.name = name := by
  constructor
  · intro h
    exact ⟨List.mem_of_find?_eq_some h, by simpa using List.find?_some h⟩
  · rintro ⟨hmem, rfl⟩
    cases hfound : w.sheet? sheet.name with
    | none =>
      have hnone := List.find?_eq_none.mp hfound sheet hmem
      simp at hnone
    | some found =>
      have hfound' : found ∈ w.sheets := List.mem_of_find?_eq_some hfound
      have hname : found.name = sheet.name := by simpa using List.find?_some hfound
      have hinj := List.inj_on_of_nodup_map hnames
      rw [hinj hfound' hmem hname]

/-- The cells that are listed under the name of a sheet are those that its own cells hold. -/
theorem Workbook.mem_cells_iff {w : Workbook} (hnames : w.names.Nodup) {name : String}
    {a : Address} {v : Value} :
    (a, v) ∈ w.cells name ↔
      ∃ sheet ∈ w.sheets, sheet.name = name ∧ sheet.cells.get? a = some v := by
  have hvalue : (a, v) ∈ w.cells name ↔ w.value? name a = some v :=
    (w.isLawful_grid.value?_eq_some_iff name a v).symm
  rw [hvalue, Workbook.value?, Option.bind_eq_some_iff]
  constructor
  · rintro ⟨sheet, hsheet, hcell⟩
    obtain ⟨hmem, hname⟩ := (Workbook.sheet?_eq_some_iff hnames).mp hsheet
    exact ⟨sheet, hmem, hname, hcell⟩
  · rintro ⟨sheet, hmem, hname, hcell⟩
    exact ⟨sheet, (Workbook.sheet?_eq_some_iff hnames).mpr ⟨hmem, hname⟩, hcell⟩

/-- What is visited of a workbook: the cells of the sheets of the order, by their places in it. -/
theorem Workbook.mem_visits_iff {w : Workbook} (hnames : w.names.Nodup) {o : SheetOrder}
    {v : Visit} :
    v ∈ (Scan.mk w o).visits ↔
      ∃ i, ∃ sheet ∈ w.sheets, o.names[i]? = some sheet.name ∧ v.position.rank = .sheet i ∧
        sheet.cells.get? v.position.address = some v.value := by
  rw [Scan.mem_visits_iff]
  constructor
  · rintro ⟨i, name, hname, hv⟩
    obtain ⟨hrank, hlisted⟩ := Scan.mem_sheetVisits_iff.mp hv
    obtain ⟨sheet, hmem, rfl, hcell⟩ := (Workbook.mem_cells_iff hnames).mp hlisted
    exact ⟨i, sheet, hmem, hname, hrank, hcell⟩
  · rintro ⟨i, sheet, hmem, hname, hrank, hcell⟩
    have hlisted : (v.position.address, v.value) ∈ w.cells sheet.name :=
      (Workbook.mem_cells_iff hnames).mpr ⟨sheet, hmem, rfl, hcell⟩
    exact ⟨i, sheet.name, hname, Scan.mem_sheetVisits_iff.mpr ⟨hrank, hlisted⟩⟩

/-- **A scan visits every cell once.**  In the order of its sheets, an extraction from a workbook
whose sheets have different names pulls finitely many cells.  They come in strictly increasing order
and are all within reach; they are those that hold something on a sheet of the order, with what they
hold; and a sheet without any is passed over. -/
theorem Schema.scan_once {schema : Schema} {w : Workbook} (hnames : w.names.Nodup)
    {o : SheetOrder} (ho : schema.sheetOrder w = .ok o) :
    (∀ e, schema.extract w = .ok e → e.scan = ⟨w, o⟩ ∧ e.stream = .start o) ∧
      ∃ vs, (∀ vs', (CellStream.start o).Gives w vs' ↔ vs' = vs) ∧
        (vs.Pairwise fun u v => u.position < v.position) ∧
        (∀ v ∈ vs, v.position.rank ≠ .unreachable) ∧
        (∀ v, v ∈ vs ↔
          ∃ i, ∃ sheet ∈ w.sheets, o.names[i]? = some sheet.name ∧ v.position.rank = .sheet i ∧
            sheet.cells.get? v.position.address = some v.value) ∧
        ∀ i, ∀ sheet ∈ w.sheets, o.names[i]? = some sheet.name → sheet.cells.isEmpty = true →
          ∀ v ∈ vs, v.position.rank ≠ .sheet i := by
  have hmem : ∀ v, v ∈ (Scan.mk w o).visits ↔ _ := fun v => Workbook.mem_visits_iff hnames
  constructor
  · intro e he
    obtain ⟨p, hprepare, rfl⟩ := Schema.extract_eq_ok_iff.mp he
    obtain ⟨-, hgrid, horder, -⟩ := Schema.of_prepare_eq_ok hprepare
    obtain rfl : o = p.scan.order := Except.ok.inj (ho.symm.trans horder)
    refine ⟨?_, rfl⟩
    show p.scan = ⟨w, p.scan.order⟩
    rw [← hgrid]
  refine ⟨(Scan.mk w o).visits, ?_, Scan.visits_sorted w.isLawful_grid, ?_, hmem, ?_⟩
  · intro vs'
    rw [CellStream.gives_iff, ← CellStream.visits_start]
  · intro v hv hrank
    have hreachable := Scan.isReachable_of_mem_visits hv
    rw [hrank] at hreachable
    cases hreachable
  · intro i sheet _ hname hempty v hv hrank
    obtain ⟨j, sheet', hmem', hname', hrank', hcell⟩ := (hmem v).mp hv
    obtain rfl : i = j := Rank.sheet.inj (hrank.symm.trans hrank')
    have hsame : sheet'.name = sheet.name := Option.some.inj (hname'.symm.trans hname)
    obtain rfl : sheet' = sheet :=
      List.inj_on_of_nodup_map hnames hmem' ‹_› hsame
    rw [Store.get?_of_isEmpty hempty] at hcell
    cases hcell

/-- Three sheets, the second of them blank. -/
def gapWorkbook : Workbook :=
  ⟨[⟨"First", (Store.empty.set ⟨1, 0⟩ (.boolean true)).set ⟨0, 1⟩ (.boolean false)⟩,
    .blank "Second", ⟨"Third", Store.empty.set ⟨0, 0⟩ (.boolean true)⟩]⟩

/-- All sheets backwards, the last one named again. -/
def gapSchema : Schema :=
  ⟨[], { Options.default with sheetOrder := some ["Third", "Second", "First", "Third"] }⟩

/-- The last sheet is visited first, and only once; the blank one between is passed over. -/
theorem Schema.scan_once_gapWorkbook :
    gapWorkbook.names.Nodup ∧
      gapSchema.sheetOrder gapWorkbook = .ok (.ofNames ["Third", "Second", "First"]) ∧
      ∃ vs, (CellStream.start (.ofNames ["Third", "Second", "First"])).Gives gapWorkbook vs ∧
        (vs.Pairwise fun u v => u.position < v.position) ∧
        vs.map (·.position) = [⟨.sheet 0, ⟨0, 0⟩⟩, ⟨.sheet 2, ⟨0, 1⟩⟩, ⟨.sheet 2, ⟨1, 0⟩⟩] := by
  have hnames : gapWorkbook.names.Nodup := by decide
  have horder : gapSchema.sheetOrder gapWorkbook = .ok (.ofNames ["Third", "Second", "First"]) :=
    rfl
  obtain ⟨-, vs, hgives, hsorted, -⟩ := Schema.scan_once hnames horder
  have hvs := (hgives vs).mpr rfl
  refine ⟨hnames, horder, vs, hvs, hsorted, ?_⟩
  rw [hvs.eq_visits]
  decide +kernel

end SheetRecords
