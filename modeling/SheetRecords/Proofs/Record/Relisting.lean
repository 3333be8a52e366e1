import SheetRecords.Proofs.Record.Prepared
import SheetRecords.Proofs.Scan.Listing

/-!
# Cells that are listed again

To list a cell of a field once more is of no consequence, neither for whether the field is accepted
nor for the records (`Schema.extract_relisted`), as long as the field is no constant.  A constant
that lists its cell is one by the length of its list: with the cell listed twice it is a list of one
entry, or is rejected if its row and column are fixed (`Schema.records_ne_of_relisted`).
-/

namespace SheetRecords

open Cell

namespace Field

variable {f : Field} {cells : List CellReference} {ranges : List RangeReference}

/-- The way of addressing depends on the lists by the places that they name, and by the number of
cells in ranges only through the limit on it. -/
theorem addressing_relisted (hplaces : (f.relisted cells ranges).places = f.places)
    (hcount : f.rangedCount ≤ listLimit)
    (hcount' : (f.relisted cells ranges).rangedCount ≤ listLimit) :
    (f.relisted cells ranges).addressing = f.addressing := by
  have hentries : (f.relisted cells ranges).entries = f.entries := rfl
  have hcombine : ∀ places entries,
      (f.relisted cells ranges).combine places entries = f.combine places entries :=
    fun _ _ => rfl
  rw [addressing_eq, addressing_eq, if_neg (not_lt.mpr hcount), if_neg (not_lt.mpr hcount'),
    hplaces, hentries, hcombine]
  rfl

/-- The lists name the cells of a field again, each at least as often as before and no others, and
the ranges are still not too large. -/
structure ListsAgain (f : Field) (cells : List CellReference) (ranges : List RangeReference) :
    Prop where
  cells_sublist : f.cells.Sublist cells
  ranges_sublist : f.ranges.Sublist ranges
  listed : ∀ p ∈ (f.relisted cells ranges).places, p ∈ f.places
  count : (f.relisted cells ranges).rangedCount ≤ listLimit

namespace ListsAgain

variable (h : f.ListsAgain cells ranges)
include h

theorem sublist_places : f.places.Sublist (f.relisted cells ranges).places :=
  (h.cells_sublist.append (h.ranges_sublist.flatMap _)).map _

theorem mem_places_iff (p : Place) : p ∈ (f.relisted cells ranges).places ↔ p ∈ f.places :=
  ⟨h.listed p, fun hp => h.sublist_places.subset hp⟩

theorem count_le : f.rangedCount ≤ listLimit := by
  have hcount := h.count
  rw [rangedCount_eq_sum] at hcount ⊢
  exact ((h.ranges_sublist.map _).sum_le_sum fun _ _ => Nat.zero_le _).trans hcount

/-- Unless several cells are listed, all is as before. -/
theorem places_eq (hfew : (f.relisted cells ranges).places.length ≤ 1) :
    (f.relisted cells ranges).places = f.places := by
  refine (h.sublist_places.eq_of_length_le ?_).symm
  cases hplaces : (f.relisted cells ranges).places with
  | nil => exact Nat.zero_le _
  | cons p rest =>
    have hp : p ∈ f.places := h.listed p (hplaces ▸ List.mem_cons_self ..)
    have hpos := List.length_pos_of_mem hp
    rw [hplaces] at hfew
    omega

end ListsAgain

/-- A field that lists one cell is a constant, if it is accepted. -/
theorem isConstant_of_addressing (hone : f.places.length = 1) {a : Addressing}
    (ha : f.addressing = .ok a) : f.isConstant = true := by
  obtain ⟨p, hp⟩ := List.length_eq_one_iff.mp hone
  have hne : f.places ≠ [] := hp ▸ List.cons_ne_nil _ _
  obtain ⟨-, ⟨-, hlisted⟩ | ⟨q, -, hconstant⟩⟩ := of_addressing_of_places hne ha
  · rw [isConstant, ha, hlisted, hp]
    rfl
  · rw [isConstant, ha, hconstant]

namespace ListsAgain

variable (h : f.ListsAgain cells ranges)
include h

/-- If the cell of a field may be listed again, it may be listed once. -/
theorem exists_addressing (hone : f.places.length = 1)
    (hseveral : 2 ≤ (f.relisted cells ranges).places.length) {a : Addressing}
    (ha : (f.relisted cells ranges).addressing = .ok a) : ∃ b, f.addressing = .ok b := by
  obtain ⟨hfree, hvalues, -⟩ := (addressing_of_places hseveral).mp ha
  obtain ⟨p, hp⟩ := List.length_eq_one_iff.mp hone
  have hvalues : f.entries = [] := hvalues
  have hrow : f.row = none := hfree.row
  have hcolumn : f.column = none := hfree.column
  have hfirst : f.firstRow = none := hfree.firstRow
  refine ⟨.constant p none, ?_⟩
  rw [addressing_eq, if_neg (not_lt.mpr h.count_le), hp, hvalues, combine, hrow, hcolumn, hfirst]
  rfl

/-- The three cases of a field that is no constant: nothing is added, or several cells are listed
before and after, or the field is rejected either way. -/
theorem addressing_cases (hconstant : f.isConstant = false) :
    (f.relisted cells ranges).addressing = f.addressing ∨
      2 ≤ f.places.length ∧ 2 ≤ (f.relisted cells ranges).places.length ∨
      (∀ a, (f.relisted cells ranges).addressing ≠ .ok a) ∧ ∀ a, f.addressing ≠ .ok a := by
  have hle := h.sublist_places.length_le
  by_cases hfew : (f.relisted cells ranges).places.length ≤ 1
  · exact .inl (addressing_relisted (h.places_eq hfew) h.count_le h.count)
  · have hsome : 0 < (f.relisted cells ranges).places.length := by omega
    obtain ⟨p, hp⟩ := List.exists_mem_of_length_pos hsome
    have hpos := List.length_pos_of_mem (h.listed p hp)
    by_cases hseveral : 2 ≤ f.places.length
    · exact .inr (.inl ⟨hseveral, by omega⟩)
    · have hone : f.places.length = 1 := by omega
      have hrejected : ∀ a, f.addressing ≠ .ok a := by
        intro a ha
        rw [isConstant_of_addressing hone ha] at hconstant
        cases hconstant
      refine .inr (.inr ⟨?_, hrejected⟩)
      intro a ha
      obtain ⟨b, hb⟩ := h.exists_addressing hone (by omega) ha
      exact hrejected b hb

/-- **Listing again keeps the plan** of a field that is no constant. -/
theorem plan_eq_ok_iff (hconstant : f.isConstant = false) {o : SheetOrder} {g : PlannedField} :
    (f.relisted cells ranges).plan o = .ok g ↔ f.plan o = .ok g := by
  rcases h.addressing_cases hconstant with
    haddressing | ⟨hseveral, hseveral'⟩ | ⟨hrejected', hrejected⟩
  · rw [Field.plan_eq_ok_iff, Field.plan_eq_ok_iff, haddressing]
    rfl
  · exact plan_relisted h.mem_places_iff hseveral hseveral' h.count_le h.count
  · rw [Field.plan_eq_ok_iff, Field.plan_eq_ok_iff]
    constructor
    · rintro ⟨a, -, ha, -⟩
      exact absurd ha (hrejected' a)
    · rintro ⟨a, -, ha, -⟩
      exact absurd ha (hrejected a)

/-- **Listing again keeps whether a field is accepted**, unless it is a constant. -/
theorem issue?_eq_none_iff (hconstant : f.isConstant = false) :
    (f.relisted cells ranges).issue? = none ↔ f.issue? = none := by
  rw [Field.issue?_eq_none_iff, Field.issue?_eq_none_iff]
  rcases h.addressing_cases hconstant with
    haddressing | ⟨hseveral, hseveral'⟩ | ⟨hrejected', hrejected⟩
  · rw [haddressing]
  · have hvalues : (f.relisted cells ranges).entries = f.entries := rfl
    constructor
    · rintro ⟨a, ha⟩
      obtain ⟨hfree, hnone, -⟩ := (addressing_of_places hseveral').mp ha
      have hfree : f.IsFree := ⟨hfree.row, hfree.column, hfree.firstRow, h.count_le⟩
      exact ⟨_, (addressing_of_places hseveral).mpr ⟨hfree, hvalues ▸ hnone, rfl⟩⟩
    · rintro ⟨a, ha⟩
      obtain ⟨hfree, hnone, -⟩ := (addressing_of_places hseveral).mp ha
      have hfree : (f.relisted cells ranges).IsFree :=
        ⟨hfree.row, hfree.column, hfree.firstRow, h.count⟩
      exact ⟨_, (addressing_of_places hseveral').mpr ⟨hfree, hvalues.trans hnone, rfl⟩⟩
  · constructor
    · rintro ⟨a, ha⟩
      exact absurd ha (hrejected' a)
    · rintro ⟨a, ha⟩
      exact absurd ha (hrejected a)

end ListsAgain

end Field

/-! ### Records -/

/-- A schema with another field in the place of one extracts the same, if the other has the same
name and the same plans. -/
theorem Schema.extract_eq_ok_iff_of_plan {schema : Schema} {before after : List Field}
    {f f' : Field} (hfields : schema.fields = before ++ f :: after) (hname : f'.name = f.name)
    (hplan : ∀ o g, f'.plan o = .ok g ↔ f.plan o = .ok g) {g : Grid} {e : Extraction} :
    (Schema.mk (before ++ f' :: after) schema.options).extract g = .ok e ↔
      schema.extract g = .ok e := by
  have hnames : (before ++ f' :: after).map (·.name) = schema.fields.map (·.name) := by
    rw [hfields, List.map_append, List.map_append, List.map_cons, List.map_cons, hname]
  have hprepare : ∀ p : Prepared,
      (Schema.mk (before ++ f' :: after) schema.options).prepare g = .ok p ↔
        schema.prepare g = .ok p := by
    intro p
    have hplans := forall₂_append_cons_congr
      (r := fun (field : Field) planned => field.plan p.scan.order = .ok planned)
      (hplan p.scan.order) before after p.fields
    rw [← hfields] at hplans
    rw [prepare_eq_ok_iff, prepare_eq_ok_iff, ← hplans, ← hnames]
    rfl
  rw [extract_eq_ok_iff, extract_eq_ok_iff]
  simp only [hprepare]

/-- **Cells that are listed again.**  A field of a schema lists cells, some of them anew: in its
list of cells or through its ranges, and anywhere among the others.  If it is no constant, it is
accepted just as before, and the same is extracted from any grid. -/
theorem Schema.extract_relisted {schema : Schema} {before after : List Field} {f : Field}
    (hfields : schema.fields = before ++ f :: after) {cells : List CellReference}
    {ranges : List RangeReference} (hcells : f.cells.Sublist cells)
    (hranges : f.ranges.Sublist ranges)
    (hlisted : ∀ p ∈ (f.relisted cells ranges).places, p ∈ f.places)
    (hcount : (f.relisted cells ranges).rangedCount ≤ listLimit)
    (hconstant : f.isConstant = false) :
    ((f.relisted cells ranges).issue? = none ↔ f.issue? = none) ∧
      ∀ (g : Grid) (e : Extraction),
        (Schema.mk (before ++ f.relisted cells ranges :: after) schema.options).extract g = .ok e ↔
          schema.extract g = .ok e := by
  have h : f.ListsAgain cells ranges := ⟨hcells, hranges, hlisted, hcount⟩
  have hname : (f.relisted cells ranges).name = f.name := rfl
  refine ⟨h.issue?_eq_none_iff hconstant, fun g e => ?_⟩
  exact Schema.extract_eq_ok_iff_of_plan hfields hname fun o g => h.plan_eq_ok_iff hconstant

/-- A sheet with a single cell. -/
def flagGrid : Grid :=
  Workbook.grid ⟨[⟨"Table", Store.empty.set ⟨0, 0⟩ (.boolean true)⟩]⟩

/-- A field that lists the cells A1 and B1. -/
def pairField : Field :=
  { Field.named "pair" with cells := [⟨none, ⟨0, 0⟩⟩, ⟨none, ⟨0, 1⟩⟩] }

/-- The two cells may be listed once more, one of them by itself and both as a range. -/
theorem Schema.extract_relisted_pair :
    let cells : List CellReference := [⟨none, ⟨0, 1⟩⟩, ⟨none, ⟨0, 0⟩⟩, ⟨none, ⟨0, 1⟩⟩]
    let ranges : List RangeReference := [⟨none, .spanning ⟨0, 0⟩ ⟨0, 1⟩⟩]
    (pairField.relisted cells ranges).issue? = none ∧
      ∃ e, (Schema.mk [pairField] .default).extract flagGrid = .ok e ∧
        (Schema.mk [pairField.relisted cells ranges] .default).extract flagGrid = .ok e ∧
        e.records = [⟨["pair"], [some (.boolean true)], ⟨some "Table", none, some 0⟩⟩] := by
  intro cells ranges
  have hfields : (Schema.mk [pairField] .default).fields = [] ++ pairField :: [] := rfl
  obtain ⟨hissue, hextract⟩ := Schema.extract_relisted hfields
    (show pairField.cells.Sublist cells by decide) (List.nil_sublist ranges) (by decide) (by decide)
    (by cbv)
  have hpair : (Schema.mk [pairField] .default).extract flagGrid = .ok (.start
      ⟨⟨flagGrid, .ofNames ["Table"]⟩, [⟨"pair", false, none,
        .list #[⟨⟨.sheet 0, ⟨0, 0⟩⟩, none⟩, ⟨⟨.sheet 0, ⟨0, 1⟩⟩, none⟩]⟩]⟩ none) := by
    cbv
  refine ⟨hissue.mpr (by cbv), _, hpair, (hextract _ _).mpr hpair, ?_⟩
  cbv

/-- A field that lists the cell A1. -/
def flagField : Field :=
  { Field.named "flag" with cells := [⟨none, ⟨0, 0⟩⟩] }

/-- A field that fixes the cell A1 and lists it. -/
def fixedFlagField : Field :=
  { flagField with
    row := some 0
    column := some 0 }

/-- The cell A1 twice. -/
def flagTwice : List CellReference :=
  [⟨none, ⟨0, 0⟩⟩, ⟨none, ⟨0, 0⟩⟩]

/-- **A constant is lost** when its cell is listed twice: its value goes with a column, and the
field that fixes the cell besides is rejected. -/
theorem Schema.records_ne_of_relisted :
    flagField.isConstant = true ∧ (flagField.relisted flagTwice []).isConstant = false ∧
      (∃ e e', (Schema.mk [flagField] .default).extract flagGrid = .ok e ∧
        (Schema.mk [flagField.relisted flagTwice []] .default).extract flagGrid = .ok e' ∧
        e.records = [⟨["flag"], [some (.boolean true)], ⟨none, none, none⟩⟩] ∧
        e'.records = [⟨["flag"], [some (.boolean true)], ⟨some "Table", none, some 0⟩⟩] ∧
        e'.records ≠ e.records) ∧
      fixedFlagField.issue? = none ∧ (fixedFlagField.relisted flagTwice []).issue? ≠ none := by
  have honce : (Extraction.start
      ⟨⟨flagGrid, .ofNames ["Table"]⟩,
        [⟨"flag", false, none, .constant (.cell ⟨.sheet 0, ⟨0, 0⟩⟩)⟩]⟩
      none).records = [⟨["flag"], [some (.boolean true)], ⟨none, none, none⟩⟩] := by
    cbv
  have htwice : (Extraction.start
      ⟨⟨flagGrid, .ofNames ["Table"]⟩,
        [⟨"flag", false, none, .list #[⟨⟨.sheet 0, ⟨0, 0⟩⟩, none⟩]⟩]⟩
      none).records = [⟨["flag"], [some (.boolean true)], ⟨some "Table", none, some 0⟩⟩] := by
    cbv
  refine ⟨by cbv, by cbv, ⟨_, _, ?_, ?_, honce, htwice, ?_⟩, by cbv, ?_⟩
  · cbv
  · cbv
  · rw [honce, htwice]
    simp
  · have hfixed : (fixedFlagField.relisted flagTwice []).issue? =
        some ⟨"flag", .otherThanFixed ⟨0, 0⟩ 2⟩ := by
      cbv
    rw [hfixed]
    exact Option.some_ne_none _

end SheetRecords
