import SheetRecords.Proofs.Schema.Addressing

/-!
# The rules of addressing

The rules by which the parts of a field settle how it is addressed, said without the steps that
decide it: which parts contradict each other (`Field.HasFault`), and which way of addressing comes
first when several would do (`Field.byRules`).  A field is refused just if it has a fault, and else
it is addressed by the rules (`Field.addressing_classified`).
-/

namespace SheetRecords

open Cell

namespace Field

/-! ### The rules -/

/-- All that a field lists: its cells, and its known values with the cells that they count as coming
from. -/
def listing (f : Field) : List (Place × Option Value) :=
  (f.listedCells.map fun r => (f.place r, none)) ++
    f.values.map fun k => (f.place k.cell, some k.value)

/-- The cell that a field fixes by a row and a column. -/
def fixed? (f : Field) : Option Place :=
  match f.row, f.column with
  | some row, some column => some ⟨f.sheet, ⟨row, column⟩⟩
  | _, _ => none

/-- The way of addressing of a field without contradictions: the first one that applies. -/
def byRules (f : Field) : Addressing :=
  match f.fixed?, f.listing with
  | some fixed, listing => .constant fixed (listing.head?.bind (·.2))
  | none, [(place, value)] => .constant place value
  | none, _ =>
    if f.listedCells ≠ [] then .cellList (f.listedCells.map f.place)
    else if f.values ≠ [] then .valueList (f.values.map fun k => (f.place k.cell, k.value))
    else
      match f.column, f.row with
      | some column, _ => .columnScan f.sheet column (f.firstRow.getD 0)
      | none, some row => .rowScan f.sheet row
      | none, none => .void

/-- The contradictions among the parts of a field. -/
inductive HasFault (f : Field) : Fault → Prop where
  /-- Its ranges have more cells than a list may have. -/
  | tooManyCells {n : Nat} (hsum : (f.ranges.map fun r => r.target.size).sum = n)
      (hlimit : listLimit < n) : HasFault f (.tooManyCells n)
  /-- It lists both cells, one by one or through ranges, and known values. -/
  | cellsAndValues (hcells : f.cells ≠ [] ∨ f.ranges ≠ []) (hvalues : f.values ≠ []) :
      HasFault f (.cellsAndValues f.listedCells.length f.values.length)
  /-- It fixes a cell, and its list is not of that cell alone. -/
  | otherThanFixed {fixed : Place} (hfixed : f.fixed? = some fixed) (hlisted : f.listing ≠ [])
      (hother : f.listing.map (·.1) ≠ [fixed]) :
      HasFault f (.otherThanFixed fixed.address f.listing.length)
  /-- It fixes either a row or a column, and has a list. -/
  | fixedAndListed (hhalf : f.row.isSome ≠ f.column.isSome) (hlisted : f.listing ≠ []) :
      HasFault f .fixedAndListed
  /-- It has a first row and scans no column. -/
  | firstRowUnused (hfirst : f.firstRow.isSome = true)
      (hscan : ∀ sheet column firstRow, f.byRules ≠ .columnScan sheet column firstRow) :
      HasFault f (.firstRowUnused f.byRules.kind)

variable {f : Field}

/-! ### What is listed -/

/-- A range has cells, so that a field lists cells as soon as it has a range. -/
theorem listedCells_ne_nil_iff : f.listedCells ≠ [] ↔ f.cells ≠ [] ∨ f.ranges ≠ [] := by
  have hrange : ∀ r : Range, r.rowByRow ≠ [] := by
    intro r hnil
    have hlast := List.flatMap_eq_nil_iff.mp hnil r.first.row
      (List.mem_range'_1.mpr ⟨le_rfl, Nat.lt_add_of_pos_right (Nat.succ_pos _)⟩)
    have hwidth := r.width_pos
    simp only [List.map_eq_nil_iff, List.range'_eq_nil_iff] at hlast
    omega
  rw [listedCells, ne_eq, List.append_eq_nil_iff, not_and_or]
  refine or_congr_right (not_congr ?_)
  constructor
  · intro h
    refine List.eq_nil_iff_forall_not_mem.mpr fun r hr => ?_
    have hcells := List.flatMap_eq_nil_iff.mp h r hr
    exact hrange r.target (List.map_eq_nil_iff.mp hcells)
  · intro h
    rw [h]
    rfl

/-- The listing is that of the places and of the entries. -/
theorem listing_eq (f : Field) :
    f.listing = f.places.map (·, none) ++ f.entries.map fun x => (x.1, some x.2) := by
  rw [listing, places_eq_map, entries, List.map_map, List.map_map]
  rfl

theorem listing_eq_nil_iff : f.listing = [] ↔ f.places = [] ∧ f.entries = [] := by
  rw [listing_eq, List.append_eq_nil_iff, List.map_eq_nil_iff, List.map_eq_nil_iff]

theorem cellsAndValues_iff :
    (!f.places.isEmpty && !f.entries.isEmpty) = true ↔
      (f.cells ≠ [] ∨ f.ranges ≠ []) ∧ f.values ≠ [] := by
  rw [← listedCells_ne_nil_iff, places_eq_map, entries]
  simp

/-! ### Fixed and listed cells -/

/-- A cell that is fixed goes with an empty list, and with a list of that cell alone. -/
theorem fixedCell_eq (fixed : Place) (places : List Place) (entries : List (Place × Value)) :
    fixedCell fixed places entries =
      let listing := places.map (·, none) ++ entries.map fun x => (x.1, some x.2)
      if listing = [] ∨ listing.map (·.1) = [fixed] then
        .ok (.constant fixed (listing.head?.bind (·.2)))
      else .error (.otherThanFixed fixed.address listing.length) := by
  match places, entries with
  | [], [] => rfl
  | [p], [] => simp [fixedCell, fixedCell.disagrees]
  | [], [(p, v)] => simp [fixedCell, fixedCell.disagrees]
  -- Of two entries or more, one is another than the fixed cell.
  | _ :: _ :: _, _ =>
    simp [fixedCell, fixedCell.disagrees]
    omega
  | [_], _ :: _ =>
    simp [fixedCell, fixedCell.disagrees]
    omega
  | [], _ :: _ :: _ => simp [fixedCell, fixedCell.disagrees]

/-- A field that fixes a cell. -/
theorem combine_of_fixed {fixed : Place} (hfixed : f.fixed? = some fixed) :
    f.combine f.places f.entries =
      if f.listing = [] ∨ f.listing.map (·.1) = [fixed] then .ok f.byRules
      else .error (.otherThanFixed fixed.address f.listing.length) := by
  have hrules : f.byRules = .constant fixed (f.listing.head?.bind (·.2)) := by
    rw [byRules, hfixed]
  have hcombine : f.combine f.places f.entries = fixedCell fixed f.places f.entries := by
    unfold combine
    unfold fixed? at hfixed
    split at hfixed
    · next row column hrow hcolumn =>
      obtain rfl := Option.some.inj hfixed
      rw [hrow, hcolumn]
    · cases hfixed
  rw [hcombine, fixedCell_eq, hrules, listing_eq]

/-- Without a fixed cell and without a list, the rules come down to the scans. -/
theorem byRules_of_unlisted (hfixed : f.fixed? = none) (hnil : f.listing = []) :
    f.byRules =
      match f.column, f.row with
      | some column, _ => .columnScan f.sheet column (f.firstRow.getD 0)
      | none, some row => .rowScan f.sheet row
      | none, none => .void := by
  have hcells : f.listedCells = [] := by
    have hplaces := (listing_eq_nil_iff.mp hnil).1
    rwa [places_eq_map, List.map_eq_nil_iff] at hplaces
  have hvalues : f.values = [] := List.map_eq_nil_iff.mp (listing_eq_nil_iff.mp hnil).2
  rw [byRules, hfixed, hnil]
  simp only [hcells, hvalues, ne_eq, not_true_eq_false, if_false]

/-- A field that fixes a row or a column scans it, and must not have a list. -/
theorem combine_of_half (hhalf : f.row.isSome ≠ f.column.isSome) :
    f.combine f.places f.entries =
      if f.listing = [] then .ok f.byRules else .error .fixedAndListed := by
  have hlisting : (f.places.isEmpty && f.entries.isEmpty) = true ↔ f.listing = [] := by
    rw [listing_eq_nil_iff, Bool.and_eq_true, List.isEmpty_iff, List.isEmpty_iff]
  unfold combine
  cases hrow : f.row with
  | some row =>
    cases hcolumn : f.column with
    | some column => simp [hrow, hcolumn] at hhalf
    | none =>
      have hfixed : f.fixed? = none := by rw [fixed?, hrow, hcolumn]
      by_cases hnil : f.listing = []
      · simp only [hlisting.mpr hnil, if_true, if_pos hnil]
        rw [byRules_of_unlisted hfixed hnil, hcolumn, hrow]
      · simp only [hlisting, if_neg hnil]
  | none =>
    cases hcolumn : f.column with
    | none => simp [hrow, hcolumn] at hhalf
    | some column =>
      have hfixed : f.fixed? = none := by rw [fixed?, hrow, hcolumn]
      by_cases hnil : f.listing = []
      · simp only [hlisting.mpr hnil, if_true, if_pos hnil]
        rw [byRules_of_unlisted hfixed hnil, hcolumn]
      · simp only [hlisting, if_neg hnil]

/-- A field that fixes nothing goes by what it lists. -/
theorem combine_of_free (hrow : f.row = none) (hcolumn : f.column = none)
    (halone : f.places = [] ∨ f.entries = []) :
    f.combine f.places f.entries = .ok f.byRules := by
  have hfixed : f.fixed? = none := by rw [fixed?, hrow]
  have hcells : f.listedCells.map f.place = f.places := (places_eq_map f).symm
  have hvalues : (f.values.map fun k => (f.place k.cell, k.value)) = f.entries := rfl
  have hcellsNe : f.listedCells ≠ [] ↔ f.places ≠ [] := by
    rw [← hcells, ne_eq, ne_eq, List.map_eq_nil_iff]
  have hvaluesNe : f.values ≠ [] ↔ f.entries ≠ [] := by
    rw [← hvalues, ne_eq, ne_eq, List.map_eq_nil_iff]
  unfold combine
  rw [hrow, hcolumn, byRules, hfixed, hcells, hvalues, listing_eq]
  simp only [hcellsNe, hvaluesNe, hrow, hcolumn]
  generalize f.places = places at halone
  generalize f.entries = entries at halone
  rcases halone with rfl | rfl
  · match entries with
    | [] => rfl
    | [_] => rfl
    | _ :: _ :: _ => rfl
  · match places with
    | [] => rfl
    | [_] => rfl
    | _ :: _ :: _ => rfl

/-! ### The rules decide -/

/-- Parts that do not combine are a fault, and parts that do combine by the rules. -/
theorem combine_spec (halone : f.places = [] ∨ f.entries = []) :
    (∃ fault, f.HasFault fault ∧ f.combine f.places f.entries = .error fault) ∨
      f.combine f.places f.entries = .ok f.byRules ∧
        (∀ fixed, f.fixed? = some fixed → f.listing ≠ [] → f.listing.map (·.1) = [fixed]) ∧
        (f.row.isSome ≠ f.column.isSome → f.listing = []) := by
  by_cases hhalf : f.row.isSome ≠ f.column.isSome
  · have hfixed : f.fixed? = none := by
      unfold fixed?
      split
      · next hrow hcolumn => simp [hrow, hcolumn] at hhalf
      · rfl
    rw [combine_of_half hhalf, hfixed]
    by_cases hnil : f.listing = []
    · rw [if_pos hnil]
      refine .inr ⟨rfl, ?_, fun _ => hnil⟩
      intro fixed h
      cases h
    · rw [if_neg hnil]
      exact .inl ⟨_, .fixedAndListed hhalf hnil, rfl⟩
  · cases hfixed : f.fixed? with
    | some fixed =>
      rw [combine_of_fixed hfixed]
      by_cases hagrees : f.listing = [] ∨ f.listing.map (·.1) = [fixed]
      · rw [if_pos hagrees]
        refine .inr ⟨rfl, ?_, fun h => absurd h hhalf⟩
        intro fixed' h hlisted
        obtain rfl := Option.some.inj h
        exact hagrees.resolve_left hlisted
      · rw [if_neg hagrees]
        rw [not_or] at hagrees
        exact .inl ⟨_, .otherThanFixed hfixed hagrees.1 hagrees.2, rfl⟩
    | none =>
      -- Neither a row nor a column is fixed.
      have hfree : f.row = none ∧ f.column = none := by
        unfold fixed? at hfixed
        cases hrow : f.row <;> cases hcolumn : f.column <;> simp [hrow, hcolumn] at hfixed hhalf ⊢
      rw [combine_of_free hfree.1 hfree.2 halone]
      refine .inr ⟨rfl, ?_, fun h => absurd h hhalf⟩
      intro fixed h
      cases h

/-- A field is refused for a fault that it has. -/
theorem hasFault_of_addressing {fault : Fault} (h : f.addressing = .error fault) :
    f.HasFault fault := by
  rw [addressing_eq] at h
  by_cases hcount : listLimit < f.rangedCount
  · rw [if_pos hcount] at h
    obtain rfl := Except.error.inj h
    exact .tooManyCells (rangedCount_eq_sum f).symm hcount
  rw [if_neg hcount] at h
  by_cases hboth : (!f.places.isEmpty && !f.entries.isEmpty) = true
  · rw [if_pos hboth] at h
    obtain rfl := Except.error.inj h
    obtain ⟨hcells, hvalues⟩ := cellsAndValues_iff.mp hboth
    rw [places_eq_map, entries, List.length_map, List.length_map]
    exact .cellsAndValues hcells hvalues
  rw [if_neg hboth] at h
  have halone : f.places = [] ∨ f.entries = [] := by
    by_contra hneither
    rw [not_or] at hneither
    exact hboth (by simpa using hneither)
  rcases combine_spec halone with ⟨fault', hfault, hcombine⟩ | ⟨hcombine, -, -⟩
  · rw [hcombine] at h
    obtain rfl := Except.error.inj h
    exact hfault
  · rw [hcombine] at h
    split at h
    · next hok => cases hok
    · cases h
    · next a hnoScan hok =>
      obtain rfl := Except.ok.inj hok
      split_ifs at h with hfirst
      obtain rfl := Except.error.inj h
      exact .firstRowUnused hfirst hnoScan

/-- A field that is accepted has no fault, and is addressed by the rules. -/
theorem of_addressing_eq_ok_byRules {a : Addressing} (h : f.addressing = .ok a) :
    a = f.byRules ∧ ∀ fault, ¬ f.HasFault fault := by
  obtain ⟨hcount, halone, hcombine, hfirst⟩ := of_addressing_eq_ok h
  rcases combine_spec halone with ⟨fault, -, herror⟩ | ⟨hok, hfixed, hhalf⟩
  · rw [herror] at hcombine
    cases hcombine
  obtain rfl : f.byRules = a := Except.ok.inj (hok.symm.trans hcombine)
  refine ⟨rfl, fun fault hfault => ?_⟩
  cases hfault with
  | tooManyCells hsum hlimit =>
    rw [rangedCount_eq_sum, hsum] at hcount
    omega
  | cellsAndValues hcells hvalues =>
    have hboth := cellsAndValues_iff.mpr ⟨hcells, hvalues⟩
    rcases halone with hnil | hnil <;> simp [hnil] at hboth
  | otherThanFixed hsome hlisted hother => exact hother (hfixed _ hsome hlisted)
  | fixedAndListed hne hlisted => exact hlisted (hhalf hne)
  | firstRowUnused hsome hscan =>
    rcases hfirst with hnone | ⟨sheet, column, firstRow, hrules⟩
    · rw [hnone] at hsome
      cases hsome
    · exact hscan sheet column firstRow hrules

end Field

end SheetRecords
