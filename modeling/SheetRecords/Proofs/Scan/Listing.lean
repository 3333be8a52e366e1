import Mathlib.Data.List.Permutation
import SheetRecords.Proofs.Scan.Plan

/-!
# What a list lists

The entries that a list configures, as they are written down (`Field.configured`), and what planning
makes of them: their positions in scan order, each once and with the value listed first
(`Field.plan_canonical`).  For cells without known values nothing else is left of how they were
listed, so that lists of the same cells have the same plan (`Addressing.plan_cellList_congr`).
-/

namespace SheetRecords

open Cell

/-! ### Lists of the same cells -/

/-- Of cells without known values each is kept once. -/
theorem mem_canonicalEntries_cells_iff {positions : List Position} {e : Entry} :
    e ∈ canonicalEntries (positions.map (⟨·, none⟩)) ↔ e.position ∈ positions ∧ e.value = none := by
  rw [mem_canonicalEntries_iff]
  constructor
  · intro h
    obtain ⟨p, hp, rfl⟩ := List.mem_map.mp (List.mem_of_find?_eq_some h)
    exact ⟨hp, rfl⟩
  · rintro ⟨hp, hvalue⟩
    have hsome : ((positions.map (Entry.mk · none)).find? (·.position = e.position)).isSome := by
      rw [List.find?_isSome]
      exact ⟨⟨e.position, none⟩, List.mem_map_of_mem hp, by simp⟩
    obtain ⟨x, hx⟩ := Option.isSome_iff_exists.mp hsome
    -- Entries without values differ by their positions only.
    have hposition : x.position = e.position := by simpa using List.find?_some hx
    obtain ⟨q, -, rfl⟩ := List.mem_map.mp (List.mem_of_find?_eq_some hx)
    rw [hx]
    cases e
    simp_all

/-- How often and in which order cells are listed is of no consequence. -/
theorem canonicalEntries_cells_congr {positions positions' : List Position}
    (h : ∀ p, p ∈ positions' ↔ p ∈ positions) :
    canonicalEntries (positions'.map (⟨·, none⟩)) =
      canonicalEntries (positions.map (⟨·, none⟩)) := by
  refine (canonicalEntries_sorted _).ext (canonicalEntries_sorted _) fun e => ?_
  rw [mem_canonicalEntries_cells_iff, mem_canonicalEntries_cells_iff, h]

/-- A list of cells has a plan if all its cells can be located. -/
theorem Addressing.plan_cellList_eq_ok_iff {o : SheetOrder} {places : List Place} {plan : Plan} :
    (Addressing.cellList places).plan o = .ok plan ↔
      ∃ positions, places.mapM o.locate = .ok positions ∧
        plan = .list (canonicalEntries (positions.map (⟨·, none⟩))).toArray := by
  have hentries : places.mapM (fun p => do return Entry.mk (← o.locate p) none) =
      List.map (Entry.mk · none) <$> places.mapM o.locate := by
    induction places with
    | nil => rfl
    | cons p places ih =>
      rw [List.mapM_cons, List.mapM_cons, ih]
      cases o.locate p with
      | error fault => rfl
      | ok position =>
        cases places.mapM o.locate <;> rfl
  rw [Addressing.plan, hentries]
  cases places.mapM o.locate with
  | error fault => simp [Functor.map, Except.map, bind, Except.bind]
  | ok positions =>
    simp [Functor.map, Except.map, bind, Except.bind, pure, Except.pure, eq_comm]

/-- **Lists of the same cells have the same plan.** -/
theorem Addressing.plan_cellList_congr {o : SheetOrder} {places places' : List Place}
    (h : ∀ p, p ∈ places' ↔ p ∈ places) {plan : Plan} :
    (Addressing.cellList places').plan o = .ok plan ↔
      (Addressing.cellList places).plan o = .ok plan := by
  -- One direction for any two lists of the same cells is both.
  have hdirection : ∀ {l l' : List Place}, (∀ p, p ∈ l' ↔ p ∈ l) →
      (Addressing.cellList l).plan o = .ok plan → (Addressing.cellList l').plan o = .ok plan := by
    intro l l' hmem hplan
    obtain ⟨positions, hpositions, rfl⟩ := plan_cellList_eq_ok_iff.mp hplan
    obtain ⟨positions', hpositions'⟩ : ∃ positions', l'.mapM o.locate = .ok positions' := by
      refine exists_mapM_eq_ok fun p hp => ?_
      obtain ⟨q, -, hq⟩ := exists_of_mem_forall₂ (mapM_eq_ok_iff.mp hpositions) ((hmem p).mp hp)
      exact ⟨q, hq⟩
    have hsame : ∀ q, q ∈ positions' ↔ q ∈ positions := by
      intro q
      simp only [mem_of_mapM_eq_ok hpositions', mem_of_mapM_eq_ok hpositions, hmem]
    exact plan_cellList_eq_ok_iff.mpr ⟨positions', hpositions', by
      rw [canonicalEntries_cells_congr hsame]⟩
  exact ⟨hdirection fun p => (h p).symm, hdirection h⟩

/-! ### What is written down -/

namespace Field

variable {f : Field} {o : SheetOrder}

/-- The rank of the sheet that a reference of a field is to: the sheet that it names, or else that
of the field, or else the first sheet.  A name outside the order is out of reach. -/
def rankOf (o : SheetOrder) (f : Field) (sheet : Option String) : Rank :=
  match sheet, f.sheet with
  | some name, _ => named name
  | none, some (.name name) => named name
  | none, some (.index i) => .sheet i
  | none, none => if o.names = [] then .unreachable else .sheet 0
where
  /-- The place of a name in the order. -/
  named (name : String) : Rank :=
    if name ∈ o.names then .sheet (o.names.idxOf name) else .unreachable

/-- The entries of a list as they are configured: the cells without values and the known values. -/
def configured (o : SheetOrder) (f : Field) : List Entry :=
  (f.listedCells.map fun r => ⟨⟨f.rankOf o r.sheet, r.target⟩, none⟩) ++
    f.values.map fun k => ⟨⟨f.rankOf o k.cell.sheet, k.cell.target⟩, some k.value⟩

/-- If a reference relies on a field that selects its sheet by a place, there is a sheet at it. -/
def SheetsResolve (o : SheetOrder) (f : Field) : Prop :=
  ∀ r ∈ f.listedCells ++ f.values.map (·.cell), r.sheet = none →
    ∀ i, f.sheet = some (.index i) → i < o.size

theorem rank_eq_named (o : SheetOrder) (name : String) : o.rank name = rankOf.named o name := by
  unfold SheetOrder.rank rankOf.named
  by_cases hname : name ∈ o.names
  · have hindex : o.names.findIdx? (· = name) = some (o.names.idxOf name) := by
      have hlt := List.idxOf_lt_length_iff.mpr hname
      refine List.findIdx?_eq_some_iff_getElem.mpr ⟨hlt, by simp, ?_⟩
      intro j hj
      have hne : (o.names[j] == name) = false := by simpa using List.not_of_lt_findIdx hj
      simpa using hne
    rw [if_pos hname, hindex]
  · have hindex : o.names.findIdx? (· = name) = none := by
      refine List.findIdx?_eq_none_iff.mpr fun x hx => ?_
      rw [decide_eq_false_iff_not]
      exact fun heq => hname (heq ▸ hx)
    rw [if_neg hname, hindex]

/-- Where a reference of the field is located. -/
theorem locate_place {r : CellReference}
    (h : r.sheet = none → ∀ i, f.sheet = some (.index i) → i < o.size) :
    o.locate (f.place r) = .ok ⟨f.rankOf o r.sheet, r.target⟩ := by
  obtain ⟨sheet, target⟩ := r
  unfold SheetOrder.locate place rankOf
  cases sheet with
  | some name =>
    show Except.ok _ = _
    rw [rank_eq_named]
  | none =>
    cases hsheet : f.sheet with
    | none => simp only [List.isEmpty_iff]
    | some selector =>
      cases selector with
      | name name =>
        show Except.ok _ = _
        rw [rank_eq_named]
      | index i =>
        have hi := h rfl i hsheet
        simp only [SheetOrder.resolve, if_pos hi]
        rfl

/-! ### What is planned -/

/-- The plan of a list is made of its configured entries. -/
theorem plan_configured (hsheets : f.SheetsResolve o) {a : Addressing}
    (ha : f.addressing = .ok a) (hlist : a.isList = true) :
    a.plan o = .ok (.list (canonicalEntries (f.configured o)).toArray) := by
  obtain ⟨-, halone, hlisted⟩ := (addressing_eq_list_iff hlist).mp ha
  cases a with
  | cellList places =>
    obtain ⟨rfl, hne⟩ := of_listed_eq_cellList hlisted
    have hvalues : f.values = [] := List.map_eq_nil_iff.mp (halone.resolve_left hne)
    have hentries : f.places.mapM (fun p => do return Entry.mk (← o.locate p) none) =
        .ok (f.configured o) := by
      rw [mapM_eq_ok_iff, configured, hvalues, List.map_nil, List.append_nil, places_eq_map,
        List.forall₂_map_left_iff, List.forall₂_map_right_iff, List.forall₂_same]
      intro r hr
      rw [locate_place (hsheets r (List.mem_append_left _ hr))]
      rfl
    rw [Addressing.plan, hentries]
    rfl
  | valueList values =>
    obtain ⟨rfl, hne⟩ := of_listed_eq_valueList hlisted
    have hcells : f.listedCells = [] := by
      have hplaces := halone.resolve_right hne
      rwa [places_eq_map, List.map_eq_nil_iff] at hplaces
    have hentries : (f.entries.mapM fun x => do return Entry.mk (← o.locate x.1) (some x.2)) =
        .ok (f.configured o) := by
      rw [mapM_eq_ok_iff, configured, hcells, List.map_nil, List.nil_append, entries,
        List.forall₂_map_left_iff, List.forall₂_map_right_iff, List.forall₂_same]
      intro k hk
      have hlocate := locate_place
        (hsheets k.cell (List.mem_append_right _ (List.mem_map_of_mem hk)))
      simp only [hlocate]
      rfl
    have hplan : (Addressing.valueList f.entries).plan o = (do
        let entries ← f.entries.mapM fun x => do return Entry.mk (← o.locate x.1) (some x.2)
        return .list (canonicalEntries entries).toArray) := rfl
    rw [hplan, hentries]
    rfl
  | _ => cases hlist

/-! ### Listing the same cells in another way -/

/-- The field with other lists of cells. -/
def relisted (f : Field) (cells : List CellReference) (ranges : List RangeReference) : Field :=
  { f with
    cells := cells
    ranges := ranges }

/-- **The same cells, listed in another way.**  As long as there are several to list, the plan of a
field only depends on which cells it lists. -/
theorem plan_relisted {cells : List CellReference} {ranges : List RangeReference}
    (hcells : ∀ p, p ∈ (f.relisted cells ranges).places ↔ p ∈ f.places)
    (hseveral : 2 ≤ f.places.length) (hseveral' : 2 ≤ (f.relisted cells ranges).places.length)
    (hcount : f.rangedCount ≤ listLimit)
    (hcount' : (f.relisted cells ranges).rangedCount ≤ listLimit)
    {g : PlannedField} : (f.relisted cells ranges).plan o = .ok g ↔ f.plan o = .ok g := by
  have hfree : (f.relisted cells ranges).IsFree ↔ f.IsFree :=
    ⟨fun h => ⟨h.row, h.column, h.firstRow, hcount⟩,
      fun h => ⟨h.row, h.column, h.firstRow, hcount'⟩⟩
  have hentries : (f.relisted cells ranges).entries = f.entries := rfl
  rw [plan_eq_ok_iff, plan_eq_ok_iff]
  simp only [addressing_of_places hseveral, addressing_of_places hseveral', hfree, hentries]
  constructor
  · rintro ⟨_, plan, ⟨hf, hvalues, rfl⟩, hplan, rfl⟩
    exact ⟨_, plan, ⟨hf, hvalues, rfl⟩, (Addressing.plan_cellList_congr hcells).mp hplan, rfl⟩
  · rintro ⟨_, plan, ⟨hf, hvalues, rfl⟩, hplan, rfl⟩
    exact ⟨_, plan, ⟨hf, hvalues, rfl⟩, (Addressing.plan_cellList_congr hcells).mpr hplan, rfl⟩

section Spelled

variable {cells : List CellReference} {ranges spelled : List RangeReference}

/-- Cells in another order, and some ranges spelled out: the places stay, up to their order. -/
theorem places_relisted_perm (hcells : cells.Perm (f.cells ++ spelled.flatMap RangeReference.cells))
    (hranges : f.ranges.Perm (ranges ++ spelled)) :
    (f.relisted cells ranges).places.Perm f.places := by
  have hranged : (f.ranges.flatMap RangeReference.cells).Perm
      (spelled.flatMap RangeReference.cells ++ ranges.flatMap RangeReference.cells) := by
    refine (hranges.flatMap_right _).trans ?_
    rw [List.flatMap_append]
    exact List.perm_append_comm
  have hlisted : (cells ++ ranges.flatMap RangeReference.cells).Perm
      (f.cells ++ f.ranges.flatMap RangeReference.cells) := by
    refine (hcells.append_right _).trans ?_
    rw [List.append_assoc]
    exact hranged.symm.append_left _
  exact hlisted.map _

/-- Ranges that are spelled out no longer count. -/
theorem rangedCount_relisted_le (hranges : f.ranges.Perm (ranges ++ spelled)) :
    (f.relisted cells ranges).rangedCount ≤ f.rangedCount := by
  have hsum := (hranges.map fun r => r.target.size).sum_eq
  rw [List.map_append, List.sum_append] at hsum
  rw [rangedCount_eq_sum, rangedCount_eq_sum, hsum]
  exact Nat.le_add_right _ _

theorem plan_spelled {a : Addressing} (ha : f.addressing = .ok a) (hlist : a.isList = true)
    (hcells : cells.Perm (f.cells ++ spelled.flatMap RangeReference.cells))
    (hranges : f.ranges.Perm (ranges ++ spelled)) {g : PlannedField} (hg : f.plan o = .ok g) :
    (f.relisted cells ranges).plan o = .ok g := by
  obtain ⟨hfree, halone, hlisted⟩ := (addressing_eq_list_iff hlist).mp ha
  have hplaces := places_relisted_perm hcells hranges
  have hcount : (f.relisted cells ranges).rangedCount ≤ listLimit :=
    (rangedCount_relisted_le hranges).trans hfree.count
  cases a with
  | cellList places =>
    have hseveral := two_le_of_listed_eq_cellList hlisted
    refine (plan_relisted (fun _ => hplaces.mem_iff) hseveral ?_ hfree.count hcount).mpr hg
    rwa [hplaces.length_eq]
  | valueList values =>
    -- A list of values has no cells to list in another way.
    have hnone : f.places = [] := by
      have hne := (of_listed_eq_valueList hlisted).2
      exact halone.resolve_right hne
    have hnone' : (f.relisted cells ranges).places = f.places := by
      rw [hnone] at hplaces ⊢
      exact hplaces.eq_nil
    have ha' : (f.relisted cells ranges).addressing = .ok (.valueList values) := by
      refine (addressing_eq_list_iff hlist).mpr
        ⟨⟨hfree.row, hfree.column, hfree.firstRow, hcount⟩, ?_⟩
      rw [hnone']
      exact ⟨halone, hlisted⟩
    obtain ⟨b, plan, hb, hplan, rfl⟩ := plan_eq_ok_iff.mp hg
    obtain rfl : b = .valueList values := Except.ok.inj (hb.symm.trans ha)
    exact plan_eq_ok_iff.mpr ⟨_, plan, ha', hplan, rfl⟩
  | _ => cases hlist

end Spelled

/-- **Planning a list makes it canonical.**  A field that is a list of cells or of known values and
whose references resolve is planned as a list.

* Its entries lie in strictly increasing positions, and these are the positions configured.
* The entry at a position is the one configured first.
* The plan is the same if the cells are listed in another order, if the ranges are, and if some
  ranges are replaced by their cells, one by one and anywhere among the others. -/
theorem plan_canonical (hsheets : f.SheetsResolve o) {a : Addressing} (ha : f.addressing = .ok a)
    (hlist : a.isList = true) :
    ∃ g entries, f.plan o = .ok g ∧ g.plan = .list entries ∧
      EntriesSorted entries.toList ∧
      (∀ p, (∃ e ∈ entries, e.position = p) ↔ ∃ e ∈ f.configured o, e.position = p) ∧
      (∀ e ∈ entries, (f.configured o).find? (·.position = e.position) = some e) ∧
      ∀ cells ranges spelled, cells.Perm (f.cells ++ spelled.flatMap RangeReference.cells) →
        f.ranges.Perm (ranges ++ spelled) → (f.relisted cells ranges).plan o = .ok g := by
  have hplan := plan_configured hsheets ha hlist
  have hg := plan_eq_ok_iff.mpr ⟨a, _, ha, hplan, rfl⟩
  refine ⟨_, _, hg, rfl, canonicalEntries_sorted _, ?_, ?_, ?_⟩
  · intro p
    constructor
    · rintro ⟨e, he, rfl⟩
      have hfirst := mem_canonicalEntries_iff.mp (List.mem_toArray.mp he)
      exact ⟨e, List.mem_of_find?_eq_some hfirst, rfl⟩
    · rintro ⟨e, he, rfl⟩
      obtain ⟨e', he', hposition⟩ := exists_mem_canonicalEntries he
      exact ⟨e', List.mem_toArray.mpr he', hposition⟩
  · intro e he
    exact mem_canonicalEntries_iff.mp (List.mem_toArray.mp he)
  · intro cells ranges spelled hcells hranges
    exact plan_spelled ha hlist hcells hranges hg

/-- A field with the cell A2 and the range A1:B1. -/
def cornerField : Field :=
  { named "corner" with
    cells := [⟨none, ⟨1, 0⟩⟩]
    ranges := [⟨none, .spanning ⟨0, 0⟩ ⟨0, 1⟩⟩] }

/-- The cells of A1:B1 come first, whether they are listed as a range, or one by one around A2. -/
theorem plan_canonical_corner :
    let g : PlannedField := ⟨"corner", false, none, .list
      #[⟨⟨.sheet 0, ⟨0, 0⟩⟩, none⟩, ⟨⟨.sheet 0, ⟨0, 1⟩⟩, none⟩, ⟨⟨.sheet 0, ⟨1, 0⟩⟩, none⟩]⟩
    cornerField.plan (.ofNames ["Table"]) = .ok g ∧
      (cornerField.relisted [⟨none, ⟨0, 1⟩⟩, ⟨none, ⟨1, 0⟩⟩, ⟨none, ⟨0, 0⟩⟩] []).plan
        (.ofNames ["Table"]) = .ok g := by
  intro g
  have hsheets : cornerField.SheetsResolve (.ofNames ["Table"]) := by
    intro r _ _ i hi
    cases hi
  have ha : cornerField.addressing =
      .ok (.cellList [⟨none, ⟨1, 0⟩⟩, ⟨none, ⟨0, 0⟩⟩, ⟨none, ⟨0, 1⟩⟩]) := by
    cbv
  obtain ⟨g', entries, hg', -, -, -, -, hrelisted⟩ := plan_canonical hsheets ha rfl
  have hg : cornerField.plan (.ofNames ["Table"]) = .ok g := by cbv
  obtain rfl : g' = g := Except.ok.inj (hg'.symm.trans hg)
  refine ⟨hg, hrelisted _ [] cornerField.ranges ?_ (.refl _)⟩
  decide

end Field

end SheetRecords
