import Mathlib.Algebra.Order.BigOperators.Group.List
import Mathlib.Algebra.Order.Ring.Nat
import SheetRecords.Proofs.Cell.Range
import SheetRecords.Schema.Addressing

/-!
# Which fields are lists

The way of addressing of a field, step by step (`Field.addressing_eq`), and the fields that are
addressed by a list: those that fix nothing and list several cells or several known values
(`Field.addressing_eq_list_iff`).
-/

namespace SheetRecords

open Cell

/-- Whether a field that is addressed so follows a list. -/
def Addressing.isList : Addressing → Bool
  | .cellList _ => true
  | .valueList _ => true
  | _ => false

namespace Field

variable {f : Field}

/-- The cells that a field lists: those given one by one, and then those of each range, row by
row. -/
def listedCells (f : Field) : List CellReference :=
  f.cells ++ f.ranges.flatMap fun r => r.target.rowByRow.map (⟨r.sheet, ·⟩)

/-- The places of a field are its listed cells. -/
theorem places_eq_map (f : Field) : f.places = f.listedCells.map f.place := by
  have hcells : RangeReference.cells = fun r => r.target.rowByRow.map (⟨r.sheet, ·⟩) := by
    funext r
    rw [RangeReference.cells, Range.cells_eq_rowByRow]
  rw [places, listedCells, hcells]

theorem rangedCount_eq_sum (f : Field) :
    f.rangedCount = (f.ranges.map fun r => r.target.size).sum := by
  have hfold : ∀ (ranges : List RangeReference) (n : Nat),
      ranges.foldl (fun n r => n + r.target.size) n =
        n + (ranges.map fun r => r.target.size).sum := by
    intro ranges
    induction ranges with
    | nil => simp
    | cons r ranges ih =>
      intro n
      rw [List.foldl_cons, ih, List.map_cons, List.sum_cons, Nat.add_assoc]
  rw [rangedCount, hfold, Nat.zero_add]

/-- The way of addressing step by step. -/
theorem addressing_eq (f : Field) :
    f.addressing =
      if listLimit < f.rangedCount then .error (.tooManyCells f.rangedCount)
      else if !f.places.isEmpty && !f.entries.isEmpty then
        .error (.cellsAndValues f.places.length f.entries.length)
      else match f.combine f.places f.entries with
        | .error fault => .error fault
        | .ok (.columnScan sheet column firstRow) => .ok (.columnScan sheet column firstRow)
        | .ok a => if f.firstRow.isSome then .error (.firstRowUnused a.kind) else .ok a := by
  unfold addressing
  by_cases hcount : listLimit < f.rangedCount
  · simp only [hcount, if_true]
    rfl
  · simp only [hcount, if_false]
    show f.settle f.places = _
    unfold settle
    by_cases hboth : (!f.places.isEmpty && !f.entries.isEmpty) = true
    · simp only [hboth, if_true]
      rfl
    · simp only [hboth]
      cases f.combine f.places f.entries with
      | error fault => rfl
      | ok a => cases a <;> rfl

/-- What is known of a field that is accepted. -/
theorem of_addressing_eq_ok {a : Addressing} (h : f.addressing = .ok a) :
    f.rangedCount ≤ listLimit ∧ (f.places = [] ∨ f.entries = []) ∧
      f.combine f.places f.entries = .ok a ∧
      (f.firstRow = none ∨ ∃ sheet column firstRow, a = .columnScan sheet column firstRow) := by
  rw [addressing_eq] at h
  by_cases hcount : listLimit < f.rangedCount
  · rw [if_pos hcount] at h
    cases h
  · rw [if_neg hcount] at h
    by_cases hboth : (!f.places.isEmpty && !f.entries.isEmpty) = true
    · rw [if_pos hboth] at h
      cases h
    · rw [if_neg hboth] at h
      have halone : f.places = [] ∨ f.entries = [] := by
        cases hplaces : f.places with
        | nil => exact .inl rfl
        | cons place places =>
          right
          simpa [hplaces] using hboth
      refine ⟨not_lt.mp hcount, halone, ?_⟩
      cases hcombine : f.combine f.places f.entries with
      | error fault =>
        rw [hcombine] at h
        cases h
      | ok b =>
        rw [hcombine] at h
        cases b with
        | columnScan sheet column firstRow =>
          cases h
          exact ⟨rfl, .inr ⟨sheet, column, firstRow, rfl⟩⟩
        | _ =>
          simp only at h
          split_ifs at h with hfirst
          cases h
          exact ⟨rfl, .inl (by simpa using hfirst)⟩

/-- A field is accepted if its parts combine into some way of addressing. -/
theorem issue?_eq_none_iff : f.issue? = none ↔ ∃ a, f.addressing = .ok a := by
  unfold issue?
  cases f.addressing <;> simp

/-- A field that fixes neither a row nor a column, whose ranges are not too large. -/
structure IsFree (f : Field) : Prop where
  row : f.row = none
  column : f.column = none
  firstRow : f.firstRow = none
  count : f.rangedCount ≤ listLimit

/-- A field that fixes a cell is a constant. -/
theorem isList_of_fixedCell {fixed : Place} {places : List Place}
    {entries : List (Place × Value)} {a : Addressing}
    (h : fixedCell fixed places entries = .ok a) : a.isList = false := by
  unfold fixedCell fixedCell.disagrees at h
  split at h
  · cases h
    rfl
  · split_ifs at h
    cases h
    rfl
  · split_ifs at h
    cases h
    rfl
  · cases h

/-- Only a field that fixes neither a row nor a column has a list. -/
theorem of_combine_eq_ok {places : List Place} {entries : List (Place × Value)} {a : Addressing}
    (ha : a.isList = true) (h : f.combine places entries = .ok a) :
    f.row = none ∧ f.column = none ∧ listed places entries = a := by
  unfold combine at h
  cases hrow : f.row with
  | some row =>
    cases hcolumn : f.column with
    | some column =>
      simp only [hrow, hcolumn] at h
      rw [isList_of_fixedCell h] at ha
      cases ha
    | none =>
      simp only [hrow, hcolumn] at h
      split_ifs at h
      cases h
      cases ha
  | none =>
    cases hcolumn : f.column with
    | some column =>
      simp only [hrow, hcolumn] at h
      split_ifs at h
      cases h
      cases ha
    | none =>
      simp only [hrow, hcolumn] at h
      exact ⟨rfl, rfl, Except.ok.inj h⟩

/-- **Lists.**  A field is addressed by a list just if it fixes nothing and lists several cells or
several known values. -/
theorem addressing_eq_list_iff {a : Addressing} (ha : a.isList = true) :
    f.addressing = .ok a ↔
      f.IsFree ∧ (f.places = [] ∨ f.entries = []) ∧ listed f.places f.entries = a := by
  constructor
  · intro h
    obtain ⟨hcount, halone, hcombine, hfirst⟩ := of_addressing_eq_ok h
    obtain ⟨hrow, hcolumn, hlisted⟩ := of_combine_eq_ok ha hcombine
    refine ⟨⟨hrow, hcolumn, ?_, hcount⟩, halone, hlisted⟩
    rcases hfirst with hfirst | ⟨sheet, column, firstRow, rfl⟩
    · exact hfirst
    · cases ha
  · rintro ⟨⟨hrow, hcolumn, hfirst, hcount⟩, halone, rfl⟩
    have hboth : (!f.places.isEmpty && !f.entries.isEmpty) = false := by
      rcases halone with h | h <;> simp [h]
    have hcombine : f.combine f.places f.entries = .ok (listed f.places f.entries) := by
      unfold combine
      rw [hrow, hcolumn]
    rw [addressing_eq, if_neg (not_lt.mpr hcount), hboth, if_neg Bool.false_ne_true, hcombine,
      hfirst]
    generalize listed f.places f.entries = a at ha
    cases a with
    | columnScan sheet column firstRow => cases ha
    | _ => rfl

theorem listed_of_places {places : List Place} (h : 2 ≤ places.length) :
    listed places [] = .cellList places := by
  match places, h with
  | _ :: _ :: _, _ => rfl

theorem listed_of_entries {entries : List (Place × Value)} (h : 2 ≤ entries.length) :
    listed [] entries = .valueList entries := by
  match entries, h with
  | _ :: _ :: _, _ => rfl

theorem of_listed_eq_cellList {places listedPlaces : List Place} {entries : List (Place × Value)}
    (h : listed listedPlaces entries = .cellList places) :
    listedPlaces = places ∧ listedPlaces ≠ [] := by
  unfold listed at h
  split at h <;> cases h
  exact ⟨rfl, List.cons_ne_nil _ _⟩

theorem two_le_of_listed_eq_cellList {places listedPlaces : List Place}
    {entries : List (Place × Value)} (h : listed listedPlaces entries = .cellList places) :
    2 ≤ listedPlaces.length := by
  match listedPlaces, h with
  | _ :: _ :: _, _ => exact Nat.le_add_left 2 _
  | [_], h => cases h
  | [], h => exact absurd rfl (of_listed_eq_cellList h).2

theorem of_listed_eq_valueList {places : List Place} {entries listedEntries : List (Place × Value)}
    (h : listed places listedEntries = .valueList entries) :
    listedEntries = entries ∧ listedEntries ≠ [] := by
  unfold listed at h
  split at h <;> cases h
  exact ⟨rfl, List.cons_ne_nil _ _⟩

/-- A field that fixes a cell may list that cell and no other. -/
theorem of_fixedCell_eq_ok {fixed : Place} {places : List Place} (hne : places ≠ [])
    {a : Addressing} (h : fixedCell fixed places [] = .ok a) :
    ∃ p, places = [p] ∧ a = .constant p none := by
  match places, hne, h with
  | [p], _, h =>
    simp only [fixedCell, fixedCell.disagrees] at h
    split_ifs at h with hfixed
    cases h
    exact ⟨p, rfl, by rw [hfixed]⟩
  | _ :: _ :: _, _, h => cases h

/-- A field that lists cells and is accepted lists no known values.  It is addressed by its list,
unless it fixes the one cell that it lists. -/
theorem of_addressing_of_places (hne : f.places ≠ []) {a : Addressing}
    (ha : f.addressing = .ok a) :
    f.entries = [] ∧
      (f.IsFree ∧ a = listed f.places [] ∨ ∃ p, f.places = [p] ∧ a = .constant p none) := by
  obtain ⟨hcount, halone, hcombine, hfirst⟩ := of_addressing_eq_ok ha
  have hvalues : f.entries = [] := halone.resolve_left hne
  have hempty : (f.places.isEmpty && f.entries.isEmpty) = false := by
    rw [List.isEmpty_eq_false_iff.mpr hne, Bool.false_and]
  refine ⟨hvalues, ?_⟩
  unfold combine at hcombine
  -- A row or a column that is fixed alone rules the list out.
  cases hrow : f.row with
  | some row =>
    cases hcolumn : f.column with
    | some column =>
      simp only [hrow, hcolumn, hvalues] at hcombine
      exact .inr (of_fixedCell_eq_ok hne hcombine)
    | none =>
      simp only [hrow, hcolumn, hempty, if_neg Bool.false_ne_true] at hcombine
      cases hcombine
  | none =>
    cases hcolumn : f.column with
    | some column =>
      simp only [hrow, hcolumn, hempty, if_neg Bool.false_ne_true] at hcombine
      cases hcombine
    | none =>
      simp only [hrow, hcolumn, hvalues] at hcombine
      have hlisted : a = listed f.places [] := (Except.ok.inj hcombine).symm
      refine .inl ⟨⟨hrow, hcolumn, ?_, hcount⟩, hlisted⟩
      rcases hfirst with hfirst | ⟨sheet, column, firstRow, rfl⟩
      · exact hfirst
      · unfold listed at hlisted
        split at hlisted <;> cases hlisted

/-- **Lists of cells.**  A field that lists several cells is addressed by them, provided that it
fixes nothing and lists no known values. -/
theorem addressing_of_places (h : 2 ≤ f.places.length) {a : Addressing} :
    f.addressing = .ok a ↔ f.IsFree ∧ f.entries = [] ∧ a = .cellList f.places := by
  constructor
  · intro ha
    have hne : f.places ≠ [] := by
      rw [← List.length_pos_iff]
      omega
    obtain ⟨hentries, ⟨hfree, rfl⟩ | ⟨p, hp, -⟩⟩ := of_addressing_of_places hne ha
    · exact ⟨hfree, hentries, listed_of_places h⟩
    · rw [hp] at h
      exact absurd h (Nat.not_le.mpr Nat.one_lt_two)
  · rintro ⟨hfree, hentries, rfl⟩
    refine (addressing_eq_list_iff rfl).mpr ⟨hfree, .inr hentries, ?_⟩
    rw [hentries, listed_of_places h]

end Field

end SheetRecords
