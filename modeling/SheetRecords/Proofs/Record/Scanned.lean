import SheetRecords.Proofs.Record.Agree
import SheetRecords.Proofs.Record.Prepared

/-!
# Lists without the sheets that are not scanned

`Field.scanned` leaves out what a field lists on sheets outside the order of the scan.  The plan of a
list loses just the entries that are out of reach (`Field.plan_scanned`), none of which lies before
any visited cell, so that the shorter list answers as the longer one does (`like_scanned`).  Its axis
is the same if the entries that remain lie in several rows (`axis_scanned`).
-/

namespace SheetRecords

open Cell

namespace SheetOrder

/-- Whether a sheet that is selected is scanned; by default it is the first one. -/
def scans (o : SheetOrder) : Option SheetSelector → Bool
  | some (.name s) => (o.rank s).isReachable
  | some (.index i) => i < o.size
  | none => !o.names.isEmpty

/-- A place is within reach if its sheet is scanned. -/
theorem isReachable_of_locate {o : SheetOrder} {p : Place} {q : Position}
    (h : o.locate p = .ok q) : q.rank.isReachable = o.scans p.sheet := by
  unfold locate at h
  unfold scans
  cases hsheet : p.sheet with
  | none =>
    rw [hsheet] at h
    cases h
    cases o.names with
    | nil => rfl
    | cons name names => rfl
  | some selector =>
    rw [hsheet] at h
    cases selector with
    | name s =>
      cases h
      rfl
    | index i =>
      simp only [resolve] at h
      split_ifs at h with hi
      · cases h
        simp [hi, Rank.isReachable, Rank.index?]
      · cases h

end SheetOrder

namespace Field

/-- The field without what it lists on sheets that are not scanned. -/
def scanned (o : SheetOrder) (f : Field) : Field :=
  { f with
    cells := f.cells.filter fun r => o.scans (f.place r).sheet
    ranges := f.ranges.filter fun r => o.scans (f.place ⟨r.sheet, r.target.first⟩).sheet
    values := f.values.filter fun k => o.scans (f.place k.cell).sheet }

variable {o : SheetOrder} {f : Field}

theorem places_scanned : (f.scanned o).places = f.places.filter fun p => o.scans p.sheet := by
  -- All cells of a range lie on the sheet of the range.
  have hranges : ∀ ranges : List RangeReference,
      (ranges.filter fun r => o.scans (f.place ⟨r.sheet, r.target.first⟩).sheet).flatMap
          RangeReference.cells =
        (ranges.flatMap RangeReference.cells).filter fun r => o.scans (f.place r).sheet := by
    intro ranges
    induction ranges with
    | nil => rfl
    | cons r ranges ih =>
      have hcells : ∀ c ∈ RangeReference.cells r, o.scans (f.place c).sheet =
          o.scans (f.place ⟨r.sheet, r.target.first⟩).sheet := by
        intro c hc
        obtain ⟨a, -, rfl⟩ := List.mem_map.mp hc
        rfl
      rw [List.filter_cons, List.flatMap_cons, List.filter_append, ← ih]
      cases hscans : o.scans (f.place ⟨r.sheet, r.target.first⟩).sheet with
      | true =>
        have hkept : ((RangeReference.cells r).filter fun c => o.scans (f.place c).sheet) =
            RangeReference.cells r :=
          List.filter_eq_self.mpr fun c hc => (hcells c hc).trans hscans
        rw [hkept, if_pos rfl, List.flatMap_cons]
      | false =>
        have hleft : ((RangeReference.cells r).filter fun c => o.scans (f.place c).sheet) = [] := by
          refine List.filter_eq_nil_iff.mpr fun c hc => ?_
          rw [hcells c hc, hscans]
          exact Bool.false_ne_true
        rw [hleft, if_neg Bool.false_ne_true, List.nil_append]
  unfold places
  rw [List.filter_map, List.filter_append]
  change ((f.cells.filter _) ++ (f.ranges.filter _).flatMap RangeReference.cells).map f.place = _
  rw [hranges]
  rfl

theorem entries_scanned :
    (f.scanned o).entries = f.entries.filter fun x => o.scans x.1.sheet := by
  unfold entries
  rw [List.filter_map]
  rfl

theorem rangedCount_scanned_le : (f.scanned o).rangedCount ≤ f.rangedCount := by
  rw [rangedCount_eq_sum, rangedCount_eq_sum]
  have hsublist : (f.scanned o).ranges.Sublist f.ranges := List.filter_sublist
  exact (hsublist.map _).sum_le_sum fun _ _ => Nat.zero_le _

theorem IsFree.scanned (h : f.IsFree) (o : SheetOrder) : (f.scanned o).IsFree where
  row := h.row
  column := h.column
  firstRow := h.firstRow
  count := rangedCount_scanned_le.trans h.count

end Field

/-! ### The plan of a list -/

/-- The entries on sheets that are scanned. -/
def scannedEntries (entries : List Entry) : List Entry :=
  entries.filter fun e => e.position.rank.isReachable

/-- Locating only the places on scanned sheets gives only the entries there. -/
theorem mapM_locate_filter {α : Type} {o : SheetOrder} (place : α → Place)
    (value : α → Option Value) {l : List α} {entries : List Entry}
    (h : (l.mapM fun x => do return Entry.mk (← o.locate (place x)) (value x)) = .ok entries) :
    ((l.filter fun x => o.scans (place x).sheet).mapM fun x => do
      return Entry.mk (← o.locate (place x)) (value x)) = .ok (scannedEntries entries) := by
  rw [mapM_eq_ok_iff] at h ⊢
  refine List.rel_filter ?_ h
  intro x e hx
  obtain ⟨q, hlocate, he⟩ := exists_of_bind_eq_ok hx
  obtain rfl := Except.ok.inj he
  show o.scans (place x).sheet = true ↔ q.rank.isReachable = true
  rw [SheetOrder.isReachable_of_locate hlocate]

/-- Of the canonical entries those within reach stay. -/
theorem canonicalEntries_scannedEntries (entries : List Entry) :
    canonicalEntries (scannedEntries entries) = scannedEntries (canonicalEntries entries) :=
  canonicalEntries_filter entries fun p => p.rank.isReachable

/-- The same for the plan of the entries. -/
theorem plan_locate_filter {α : Type} {o : SheetOrder} (place : α → Place)
    (value : α → Option Value) {l : List α} {entries : Array Entry}
    (h : (do
      let located ← l.mapM fun x => do return Entry.mk (← o.locate (place x)) (value x)
      return Plan.list (canonicalEntries located).toArray) = Except.ok (.list entries)) :
    (do
      let located ← (l.filter fun x => o.scans (place x).sheet).mapM fun x => do
        return Entry.mk (← o.locate (place x)) (value x)
      return Plan.list (canonicalEntries located).toArray) =
        Except.ok (.list (scannedEntries entries.toList).toArray) := by
  obtain ⟨located, hlocated, hentries⟩ := exists_of_bind_eq_ok h
  obtain rfl := Plan.list.inj (Except.ok.inj hentries)
  rw [mapM_locate_filter place value hlocated]
  show Except.ok (Plan.list (canonicalEntries (scannedEntries located)).toArray) = _
  rw [canonicalEntries_scannedEntries]

/-- **The plan of a list without the sheets that are not scanned** has the entries within reach, if
it still lists several cells. -/
theorem Field.plan_scanned {o : SheetOrder} {f : Field} {g : PlannedField} {entries : Array Entry}
    (h : f.plan o = .ok g) (hl : g.plan = .list entries)
    (htwo : 2 ≤ (f.scanned o).places.length + (f.scanned o).entries.length) :
    (f.scanned o).plan o =
      .ok { g with plan := .list (scannedEntries entries.toList).toArray } := by
  obtain ⟨a, plan, ha, hplan, rfl⟩ := Field.plan_eq_ok_iff.mp h
  simp only at hl
  subst hl
  have hlist := (Addressing.isList_iff_plan hplan).mpr ⟨entries, rfl⟩
  obtain ⟨hfree, halone, hlisted⟩ := (Field.addressing_eq_list_iff hlist).mp ha
  rw [places_scanned, entries_scanned] at htwo
  refine Field.plan_eq_ok_iff.mpr ?_
  cases a with
  | cellList places =>
    obtain ⟨rfl, hne⟩ := Field.of_listed_eq_cellList hlisted
    have hentries : f.entries = [] := halone.resolve_left hne
    rw [hentries, List.filter_nil, List.length_nil, Nat.add_zero] at htwo
    refine ⟨.cellList (f.scanned o).places, _, ?_, ?_, rfl⟩
    · refine (Field.addressing_eq_list_iff rfl).mpr ⟨hfree.scanned o, .inr ?_, ?_⟩
      · rw [entries_scanned, hentries, List.filter_nil]
      · rw [entries_scanned, hentries, List.filter_nil, places_scanned]
        exact Field.listed_of_places htwo
    · rw [places_scanned]
      exact plan_locate_filter id (fun _ => none) hplan
  | valueList values =>
    obtain ⟨rfl, hne⟩ := Field.of_listed_eq_valueList hlisted
    have hplaces : f.places = [] := halone.resolve_right hne
    rw [hplaces, List.filter_nil, List.length_nil, Nat.zero_add] at htwo
    refine ⟨.valueList (f.scanned o).entries, _, ?_, ?_, rfl⟩
    · refine (Field.addressing_eq_list_iff rfl).mpr ⟨hfree.scanned o, .inl ?_, ?_⟩
      · rw [places_scanned, hplaces, List.filter_nil]
      · rw [places_scanned, hplaces, List.filter_nil, entries_scanned]
        exact Field.listed_of_entries htwo
    · rw [entries_scanned]
      exact plan_locate_filter Prod.fst (fun x => some x.2) hplan
  | _ => cases hlist

/-! ### What the shorter list answers -/

/-- All entries up to a place within reach are within reach. -/
theorem filter_le_scannedEntries (entries : List Entry) {p : Position}
    (hp : p.rank.isReachable = true) :
    ((scannedEntries entries).filter fun e => e.position ≤ p) =
      entries.filter fun e => e.position ≤ p := by
  rw [scannedEntries, List.filter_filter]
  refine List.filter_congr fun e _ => ?_
  by_cases hle : e.position ≤ p
  · simp [hle, Position.isReachable_of_le hle hp]
  · simp [hle]

/-- Fields with the same entries within reach answer alike. -/
theorem PlannedField.like_scanned {f : PlannedField} {entries : Array Entry}
    (hl : f.plan = .list entries) :
    f.Like { f with plan := .list (scannedEntries entries.toList).toArray } where
  isMetric := rfl
  list entries' hl' := by
    obtain rfl : entries = entries' := Plan.list.inj (hl.symm.trans hl')
    refine ⟨_, rfl, fun p hp => ?_⟩
    have hfilter := filter_le_scannedEntries entries.toList hp
    rw [lastUpTo, lastUpTo, reached, reached, List.countP_eq_length_filter,
      List.countP_eq_length_filter, hfilter]
    exact ⟨rfl, rfl⟩
  other hne := absurd hl (hne entries)

/-- They address the same cells within reach. -/
theorem Plan.addresses_scannedEntries (entries : Array Entry) {p : Position}
    (hp : p.rank.isReachable = true) :
    (Plan.list (scannedEntries entries.toList).toArray).addresses p =
      (Plan.list entries).addresses p := by
  rw [Bool.eq_iff_iff]
  simp only [Plan.addresses, Array.any_eq_true', scannedEntries, List.mem_toArray, List.mem_filter,
    Array.mem_toList_iff, decide_eq_true_eq]
  refine exists_congr fun e => ?_
  constructor
  · rintro ⟨⟨he, -⟩, heq⟩
    exact ⟨he, heq⟩
  · rintro ⟨he, rfl⟩
    exact ⟨⟨he, hp⟩, rfl⟩

/-! ### Its axis -/

/-- Entries span rows if two of them lie in different rows. -/
theorem spansRows_iff {entries : List Entry} :
    spansRows entries = true ↔
      ∃ a ∈ entries, ∃ b ∈ entries, a.position.rowKey ≠ b.position.rowKey := by
  induction entries with
  | nil => simp [spansRows]
  | cons a rest ih =>
    cases rest with
    | nil => simp [spansRows]
    | cons b rest =>
      rw [spansRows, Bool.or_eq_true, decide_eq_true_eq, ih]
      constructor
      · rintro (hne | ⟨x, hx, y, hy, hne⟩)
        · exact ⟨a, by simp, b, by simp, hne⟩
        · exact ⟨x, List.mem_cons_of_mem _ hx, y, List.mem_cons_of_mem _ hy, hne⟩
      · rintro ⟨x, hx, y, hy, hne⟩
        by_cases hab : a.position.rowKey = b.position.rowKey
        · -- What lies beside the first entry lies beside the second as well.
          right
          have hlater : ∀ z ∈ a :: b :: rest, ∃ z' ∈ b :: rest,
              z'.position.rowKey = z.position.rowKey := by
            intro z hz
            rcases List.mem_cons.mp hz with rfl | hz
            · exact ⟨b, List.mem_cons_self .., hab.symm⟩
            · exact ⟨z, hz, rfl⟩
          obtain ⟨x', hx', hxkey⟩ := hlater x hx
          obtain ⟨y', hy', hykey⟩ := hlater y hy
          exact ⟨x', hx', y', hy', by rwa [hxkey, hykey]⟩
        · exact .inl hab

/-- A list that still goes along rows did so before. -/
theorem Plan.axis_of_scannedEntries {entries : Array Entry}
    (h : (Plan.list (scannedEntries entries.toList).toArray).axis = .rows) :
    (Plan.list entries).axis = .rows := by
  have hspans : spansRows (scannedEntries entries.toList) = true := by
    simp only [Plan.axis] at h
    split_ifs at h with hspans
    exact hspans
  obtain ⟨a, ha, b, hb, hne⟩ := spansRows_iff.mp hspans
  have hspans' : spansRows entries.toList = true :=
    spansRows_iff.mpr ⟨a, List.mem_of_mem_filter ha, b, List.mem_of_mem_filter hb, hne⟩
  simp only [Plan.axis]
  rw [if_pos hspans']

end SheetRecords
