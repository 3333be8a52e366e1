import SheetRecords.Proofs.Record.Prepared
import SheetRecords.Proofs.Schema.Classification

/-!
# Why an extraction is refused

What stands in the way of an extraction, in the order in which it is looked for: fields that are
refused by themselves and names that are used several times, sheets that the grid lacks, and fields
that select a sheet by a place where there is none.  All that is found in the first stage that finds
anything is reported, in order and once each; if no stage finds anything, the extraction starts
(`Schema.extract_refused`).
-/

namespace SheetRecords

open Cell

/-! ### Names that are used several times -/

/-- After the names `met`, the name occurs for the second time at the place `i` of the others. -/
def IsSecondAt (met names : List String) (name : String) (i : Nat) : Prop :=
  names[i]? = some name ∧ (met ++ names.take i).count name = 1

/-- The names that are used several times, each once, in the order of their second occurrence. -/
structure AreRepeated (names repeated : List String) : Prop where
  mem_iff : ∀ name, name ∈ repeated ↔ 2 ≤ names.count name
  nodup : repeated.Nodup
  sorted : repeated.Pairwise fun m n =>
    ∀ i j, IsSecondAt [] names m i → IsSecondAt [] names n j → i < j

/-- Behind one more name, places are counted from one place further on. -/
theorem isSecondAt_succ_iff {met rest : List String} {first name : String} {i : Nat} :
    IsSecondAt met (first :: rest) name (i + 1) ↔ IsSecondAt (first :: met) rest name i := by
  have hperm : (met ++ (first :: rest).take (i + 1)).Perm (first :: met ++ rest.take i) := by
    rw [List.take_succ_cons]
    exact List.perm_middle
  rw [IsSecondAt, IsSecondAt, hperm.count_eq, List.getElem?_cons_succ]

theorem pairwise_repeatedNames (met names : List String) :
    (repeatedNames met names).Pairwise fun m n =>
      ∀ i j, IsSecondAt met names m i → IsSecondAt met names n j → i < j := by
  induction names generalizing met with
  | nil => exact List.Pairwise.nil
  | cons first rest ih =>
    -- Of the names given later, none has been met before its second occurrence.
    have hlater : ∀ name ∈ repeatedNames (first :: met) rest, ∀ i,
        IsSecondAt met (first :: rest) name i →
          ∃ i', i = i' + 1 ∧ IsSecondAt (first :: met) rest name i' := by
      intro name hname i hi
      cases i with
      | succ i => exact ⟨i, rfl, isSecondAt_succ_iff.mp hi⟩
      | zero =>
        obtain ⟨hfirst, hcount⟩ := hi
        obtain rfl : first = name := by simpa using hfirst
        have hmet := (mem_repeatedNames_iff.mp hname).1
        rw [List.count_cons_self] at hmet
        rw [List.take_zero, List.append_nil] at hcount
        omega
    have hrest : (repeatedNames (first :: met) rest).Pairwise fun m n =>
        ∀ i j, IsSecondAt met (first :: rest) m i → IsSecondAt met (first :: rest) n j → i < j := by
      refine (ih (first :: met)).imp_of_mem ?_
      intro m n hm hn hmn i j hi hj
      obtain ⟨i', rfl, hi'⟩ := hlater m hm i hi
      obtain ⟨j', rfl, hj'⟩ := hlater n hn j hj
      have hlt := hmn i' j' hi' hj'
      omega
    simp only [repeatedNames]
    split_ifs with hsecond
    · refine List.pairwise_cons.mpr ⟨?_, hrest⟩
      intro n hn i j hi hj
      obtain ⟨j', rfl, -⟩ := hlater n hn j hj
      cases i with
      | zero => omega
      | succ i =>
        -- The first name has occurred twice when it occurs once more.
        have hcount := hi.2
        rw [List.take_succ_cons, List.count_append, List.count_cons_self] at hcount
        omega
    · exact hrest

theorem nodup_repeatedNames (met names : List String) : (repeatedNames met names).Nodup := by
  induction names generalizing met with
  | nil => exact List.nodup_nil
  | cons first rest ih =>
    simp only [repeatedNames]
    split_ifs with hsecond
    · refine List.nodup_cons.mpr ⟨fun hfirst => ?_, ih _⟩
      have hmet := (mem_repeatedNames_iff.mp hfirst).1
      rw [List.count_cons_self] at hmet
      omega
    · exact ih _

theorem areRepeated_repeatedNames (names : List String) :
    AreRepeated names (repeatedNames [] names) where
  mem_iff name := by
    rw [mem_repeatedNames_iff, List.count_nil]
    omega
  nodup := nodup_repeatedNames [] names
  sorted := pairwise_repeatedNames [] names

/-! ### Sheets that the grid lacks -/

/-- The first of some names that is the name of no sheet. -/
def IsFirstUnknown (g : Grid) (names : List String) (name : String) : Prop :=
  ∃ before after, names = before ++ name :: after ∧ name ∉ g.names ∧
    ∀ known ∈ before, known ∈ g.names

/-- The names of the sheets to scan, as they are given. -/
def Schema.scannedNames (schema : Schema) (g : Grid) : List String :=
  schema.options.sheetOrder.getD g.names

namespace SheetOrder

/-- An order has as many sheets as there are different names. -/
theorem size_ofNames (names : List String) : (ofNames names).size = names.toFinset.card := by
  have hnames : names.toFinset = (dropRepeats names).toFinset := by
    ext name
    rw [List.mem_toFinset, List.mem_toFinset, mem_dropRepeats]
  rw [hnames, List.toFinset_card_of_nodup (nodup_dropRepeats names)]
  rfl

end SheetOrder

/-- The order of a scan is that of its names, unless the grid lacks a sheet. -/
theorem Schema.sheetOrder_spec (schema : Schema) (g : Grid) :
    ((∀ name ∈ schema.scannedNames g, name ∈ g.names) →
        schema.sheetOrder g = .ok (.ofNames (schema.scannedNames g))) ∧
      ∀ name, IsFirstUnknown g (schema.scannedNames g) name →
        schema.sheetOrder g = .error (.unknownSheet name) := by
  unfold sheetOrder scannedNames
  cases schema.options.sheetOrder with
  | none =>
    refine ⟨fun _ => rfl, ?_⟩
    -- The grid does not lack its own sheets.
    rintro name ⟨before, after, hnames, hname, -⟩
    have hmem : name ∈ g.names := by
      have hsplit : g.names = before ++ name :: after := hnames
      rw [hsplit]
      simp
    exact absurd hmem hname
  | some names =>
    simp only [Option.getD_some, SheetOrder.select]
    constructor
    · intro hknown
      have hfind : names.find? (fun name => !g.names.contains name) = none := by
        rw [List.find?_eq_none]
        intro name hname
        simpa using hknown name hname
      rw [hfind]
      rfl
    · rintro name ⟨before, after, rfl, hname, hbefore⟩
      have hfind : (before ++ name :: after).find? (fun name => !g.names.contains name) =
          some name := by
        rw [List.find?_eq_some_iff_append]
        refine ⟨by simpa using hname, before, after, rfl, ?_⟩
        intro known hknown
        simpa using hbefore known hknown
      rw [hfind]
      rfl

/-! ### Sheets that are selected by a place -/

/-- The sheets that a way of addressing refers to, in order. -/
def Addressing.sheets : Addressing → List (Option SheetSelector)
  | .constant place _ => [place.sheet]
  | .columnScan sheet _ _ => [sheet]
  | .rowScan sheet _ => [sheet]
  | .cellList places => places.map (·.sheet)
  | .valueList entries => entries.map (·.1.sheet)
  | .void => []

/-- What is wrong with a sheet that is selected, among so many: it may be beyond them. -/
def sheetFault? (scanned : Nat) : Option SheetSelector → Option Fault
  | some (.index i) => if i < scanned then none else some (.sheetIndex i scanned)
  | _ => none

theorem failure?_locate (o : SheetOrder) (place : Place) :
    failure? (o.locate place) = sheetFault? o.size place.sheet := by
  unfold SheetOrder.locate
  cases place.sheet with
  | none => rfl
  | some selector =>
    cases selector with
    | name s => rfl
    | index i =>
      simp only [SheetOrder.resolve, sheetFault?]
      split_ifs <;> rfl

theorem failure?_resolve? (o : SheetOrder) (sheet : Option SheetSelector) :
    failure? (o.resolve? sheet) = sheetFault? o.size sheet := by
  cases sheet with
  | none => rfl
  | some selector =>
    cases selector with
    | name s => rfl
    | index i =>
      simp only [SheetOrder.resolve?, SheetOrder.resolve, sheetFault?]
      split_ifs <;> rfl

/-- Planning fails at the first sheet that is beyond the scanned ones, and at nothing else. -/
theorem Addressing.failure?_plan (o : SheetOrder) (a : Addressing) :
    failure? (a.plan o) = a.sheets.findSome? (sheetFault? o.size) := by
  cases a with
  | constant place value =>
    rw [plan, failure?_bind_pure, failure?_locate, sheets, List.findSome?_singleton]
  | columnScan sheet column firstRow =>
    rw [plan, failure?_bind_pure, failure?_resolve?, sheets, List.findSome?_singleton]
  | rowScan sheet row =>
    rw [plan, failure?_bind_pure, failure?_resolve?, sheets, List.findSome?_singleton]
  | cellList places =>
    rw [plan, failure?_bind_pure, failure?_mapM, sheets, List.findSome?_map]
    simp only [failure?_bind_pure, failure?_locate]
    rfl
  | valueList entries =>
    rw [plan, failure?_bind_pure, failure?_mapM, sheets, List.findSome?_map]
    simp only [failure?_bind_pure, failure?_locate]
    rfl
  | void => rfl

namespace Field

variable {f : Field} {o : SheetOrder}

/-- All references of a field to cells, in order. -/
def references (f : Field) : List CellReference :=
  f.listedCells ++ f.values.map (·.cell)

/-- Whether a field relies on the sheet that it selects itself: it fixes a row or a column, or one
of its references names no sheet. -/
def reliesOnSheet (f : Field) : Bool :=
  f.row.isSome || f.column.isSome || f.references.any (·.sheet.isNone)

/-- The issue of a field that relies on a sheet at a place beyond the scanned ones. -/
def sheetIssue? (scanned : Nat) (f : Field) : Option Issue :=
  if f.reliesOnSheet then (sheetFault? scanned f.sheet).map (⟨f.name, ·⟩) else none

/-- A reference that names its sheet has nothing wrong with it. -/
theorem sheetFault?_place {r : CellReference} (h : r.sheet.isSome = true) (scanned : Nat) :
    sheetFault? scanned (f.place r).sheet = none := by
  obtain ⟨name, hname⟩ := Option.isSome_iff_exists.mp h
  simp only [place, hname]
  rfl

theorem sheet_place {r : CellReference} (h : r.sheet = none) : (f.place r).sheet = f.sheet := by
  simp only [place, h]

theorem listing_map_sheet (f : Field) :
    f.listing.map (·.1.sheet) = f.references.map fun r => (f.place r).sheet := by
  rw [listing, references, List.map_append, List.map_append, List.map_map, List.map_map,
    List.map_map]
  rfl

theorem listing_eq_nil_iff_references : f.listing = [] ↔ f.references = [] := by
  rw [← List.map_eq_nil_iff (f := fun x => x.1.sheet), listing_map_sheet, List.map_eq_nil_iff]

theorem sheet_of_fixed? {fixed : Place} (h : f.fixed? = some fixed) : fixed.sheet = f.sheet := by
  unfold fixed? at h
  split at h
  · obtain rfl := Option.some.inj h
    rfl
  · cases h

/-- Without a fixed cell, only one of a row and a column is fixed. -/
theorem half_of_fixed? (hfixes : f.row.isSome = true ∨ f.column.isSome = true)
    (h : f.fixed? = none) : f.row.isSome ≠ f.column.isSome := by
  unfold fixed? at h
  cases hrow : f.row <;> cases hcolumn : f.column <;> simp_all

/-- A field that fixes a row or a column refers to its own sheet only. -/
theorem sheets_of_fixed (hnone : ∀ fault, ¬ f.HasFault fault)
    (hfixes : f.row.isSome = true ∨ f.column.isSome = true) : f.byRules.sheets = [f.sheet] := by
  cases hfixed : f.fixed? with
  | some fixed =>
    rw [byRules, hfixed]
    exact congrArg (fun sheet => [sheet]) (sheet_of_fixed? hfixed)
  | none =>
    -- What is fixed is either a row or a column, and so nothing is listed.
    have hnil : f.listing = [] := by
      by_contra hlisted
      exact hnone _ (.fixedAndListed (half_of_fixed? hfixes hfixed) hlisted)
    rw [byRules_of_unlisted hfixed hnil]
    cases hcolumn : f.column with
    | some column => rfl
    | none =>
      cases hrow : f.row with
      | some row => rfl
      | none => simp [hrow, hcolumn] at hfixes

/-- A field that fixes nothing refers to the sheets of its references. -/
theorem sheets_of_free (hnone : ∀ fault, ¬ f.HasFault fault) (hrow : f.row = none)
    (hcolumn : f.column = none) :
    f.byRules.sheets = f.references.map fun r => (f.place r).sheet := by
  have hfixed : f.fixed? = none := by rw [fixed?, hrow]
  have halone : f.listedCells = [] ∨ f.values = [] := by
    by_contra hboth
    rw [not_or] at hboth
    exact hnone _ (.cellsAndValues (listedCells_ne_nil_iff.mp hboth.1) hboth.2)
  rw [← listing_map_sheet, byRules, hfixed]
  split
  · next h => cases h
  · next place value _ hlisting => rw [hlisting]; rfl
  · split_ifs with hcells hvalues
    · rw [listing, halone.resolve_left hcells, Addressing.sheets]
      simp [List.map_map, Function.comp_def]
    · rw [listing, not_not.mp hcells, Addressing.sheets]
      simp [List.map_map, Function.comp_def]
    · rw [hcolumn, hrow, listing, not_not.mp hcells, not_not.mp hvalues]
      rfl

/-- Among the sheets of the references only the field's own can be at fault, if there is one that
does not name its sheet. -/
theorem findSome?_references (scanned : Nat) :
    (f.references.map fun r => (f.place r).sheet).findSome? (sheetFault? scanned) =
      if f.references.any (·.sheet.isNone) then sheetFault? scanned f.sheet else none := by
  rw [List.findSome?_map]
  induction f.references with
  | nil => rfl
  | cons r rest ih =>
    rw [List.findSome?_cons, List.any_cons]
    cases hsheet : r.sheet with
    | some name =>
      have hnamed : r.sheet.isSome = true := by rw [hsheet]; rfl
      rw [Function.comp_apply, sheetFault?_place hnamed, ih]
      rfl
    | none =>
      rw [Function.comp_apply, sheet_place hsheet]
      simp only [Option.isNone_none, Bool.true_or, if_true]
      cases hfault : sheetFault? scanned f.sheet with
      | some fault => rfl
      | none =>
        -- The field's own sheet is not at fault anywhere else either.
        show List.findSome? _ rest = none
        rw [ih, hfault, ite_self]

/-- The sheets of a field are at fault just if it relies on its own sheet and that is. -/
theorem findSome?_sheets (hnone : ∀ fault, ¬ f.HasFault fault) (scanned : Nat) :
    f.byRules.sheets.findSome? (sheetFault? scanned) =
      if f.reliesOnSheet then sheetFault? scanned f.sheet else none := by
  by_cases hfixes : f.row.isSome = true ∨ f.column.isSome = true
  · have hrelies : f.reliesOnSheet = true := by
      rw [reliesOnSheet, Bool.or_eq_true, Bool.or_eq_true]
      exact .inl hfixes
    rw [sheets_of_fixed hnone hfixes, List.findSome?_singleton, if_pos hrelies]
  · rw [not_or, Bool.not_eq_true, Bool.not_eq_true, Option.isSome_eq_false_iff,
      Option.isSome_eq_false_iff, Option.isNone_iff_eq_none, Option.isNone_iff_eq_none] at hfixes
    obtain ⟨hrow, hcolumn⟩ := hfixes
    rw [sheets_of_free hnone hrow hcolumn, findSome?_references, reliesOnSheet, hrow, hcolumn]
    rfl

/-- A field that is accepted by itself fails at its own sheet only. -/
theorem failure?_plan (h : f.issue? = none) : failure? (f.plan o) = f.sheetIssue? o.size := by
  obtain ⟨a, ha⟩ := issue?_eq_none_iff.mp h
  obtain ⟨rfl, hnone⟩ := of_addressing_eq_ok_byRules ha
  have hplan : failure? (f.plan o) = (failure? (f.byRules.plan o)).map (⟨f.name, ·⟩) := by
    simp only [plan, ha]
    cases f.byRules.plan o <;> rfl
  rw [hplan, Addressing.failure?_plan, findSome?_sheets hnone, sheetIssue?]
  split_ifs <;> rfl

/-- A field all of whose references name their sheets does not select a sheet by its place. -/
theorem findSome?_sheets_of_named (hnone : ∀ fault, ¬ f.HasFault fault) (hne : f.references ≠ [])
    (hnamed : ∀ r ∈ f.references, r.sheet.isSome = true) (scanned : Nat) :
    f.byRules.sheets.findSome? (sheetFault? scanned) = none := by
  rw [findSome?_sheets hnone]
  split_ifs with hrelies
  · have hunnamed : f.references.any (·.sheet.isNone) = false := by
      rw [List.any_eq_false]
      intro r hr
      simpa [Option.isSome_iff_ne_none] using hnamed r hr
    rw [reliesOnSheet, hunnamed, Bool.or_false, Bool.or_eq_true] at hrelies
    -- The field lists something besides what it fixes, which must be that cell once more.
    have hlisted : f.listing ≠ [] := fun hnil => hne (listing_eq_nil_iff_references.mp hnil)
    cases hfixed : f.fixed? with
    | none => exact absurd (.fixedAndListed (half_of_fixed? hrelies hfixed) hlisted) (hnone _)
    | some fixed =>
      have hagrees : f.listing.map (·.1) = [fixed] := by
        by_contra hother
        exact hnone _ (.otherThanFixed hfixed hlisted hother)
      have hsheets : f.references.map (fun r => (f.place r).sheet) = [f.sheet] := by
        rw [← listing_map_sheet, ← sheet_of_fixed? hfixed]
        simpa using congrArg (List.map Place.sheet) hagrees
      have hmem : f.sheet ∈ f.references.map fun r => (f.place r).sheet := by
        rw [hsheets]
        exact List.mem_singleton_self _
      obtain ⟨r, hr, hsheet⟩ := List.mem_map.mp hmem
      rw [← hsheet]
      exact sheetFault?_place (hnamed r hr) scanned
  · rfl

/-- A field without cells, or all of whose references name their sheets, never fails at a sheet that
is selected by its place. -/
theorem plan_ne_sheetIndex
    (h : f.isVoid = true ∨ f.references ≠ [] ∧ ∀ r ∈ f.references, r.sheet.isSome = true)
    (o : SheetOrder) (i n : Nat) : f.plan o ≠ .error ⟨f.name, .sheetIndex i n⟩ := by
  intro hplan
  rcases h with hvoid | ⟨hne, hnamed⟩
  · rw [plan_of_isVoid hvoid] at hplan
    cases hplan
  cases ha : f.addressing with
  | error fault =>
    -- What is wrong with the field alone has nothing to do with the scan.
    have hfault := hasFault_of_addressing ha
    simp only [plan, ha, Except.error.injEq, Issue.mk.injEq, true_and] at hplan
    subst hplan
    cases hfault
  | ok a =>
    obtain ⟨rfl, hnone⟩ := of_addressing_eq_ok_byRules ha
    have hsheets : failure? (f.byRules.plan o) = none := by
      rw [Addressing.failure?_plan]
      exact findSome?_sheets_of_named hnone hne hnamed o.size
    obtain ⟨p, hp⟩ := failure?_eq_none_iff.mp hsheets
    simp only [plan, ha, hp] at hplan
    cases hplan

end Field

/-! ### The stages -/

namespace Schema

variable {s : Schema} {g : Grid}

theorem extract_of_issues (h : s.report.issues ≠ []) :
    s.extract g = .error (.misconfigured s.report.issues) := by
  have hissues : (!s.report.issues.isEmpty) = true := by simpa using h
  rw [extract, prepare]
  simp only [hissues, if_true]
  rfl

theorem extract_of_sheetOrder_eq_error (hissues : s.report.issues = []) {e : ExtractionError}
    (horder : s.sheetOrder g = .error e) : s.extract g = .error e := by
  rw [extract, prepare, hissues, horder]
  rfl

/-- With an order of the sheets, the extraction starts just if all fields have a plan. -/
theorem extract_of_sheetOrder_eq_ok (hissues : s.report.issues = []) {o : SheetOrder}
    (horder : s.sheetOrder g = .ok o) :
    s.extract g =
      match planFields o s.fields with
      | .error issues => .error (.misconfigured issues)
      | .ok fields => .ok (.start ⟨⟨g, o⟩, fields⟩ s.options.recordLimit) := by
  rw [extract, prepare, hissues, horder]
  simp only [List.isEmpty_nil, Bool.not_true, Bool.false_eq_true, if_false]
  show (do
    let p ← (do
      let fields ← (planFields o s.fields).mapError ExtractionError.misconfigured
      return Prepared.mk ⟨g, o⟩ fields)
    return Extraction.start p s.options.recordLimit) = _
  cases planFields o s.fields <;> rfl

/-- The first stage finds nothing just if each field is accepted and has a name of its own. -/
theorem issues_eq_nil_iff :
    s.report.issues = [] ↔
      (∀ f ∈ s.fields, f.issue? = none) ∧ (s.fields.map (·.name)).Nodup := by
  rw [report, List.append_eq_nil_iff, List.filterMap_eq_nil_iff, List.map_eq_nil_iff,
    repeatedNames_eq_nil_iff]

/-- **Refusals.**  If some fields are refused by themselves or share their name, all of these are
reported: the fields in order, and then the repeated names in the order in which they repeat.
Otherwise, the first sheet that is to be scanned and that the grid lacks is reported.  Otherwise,
all fields are reported, in order, that rely on a sheet at a place beyond the scanned ones, which
count once each.  Otherwise the extraction starts.  No field without cells, and none whose references
all name their sheets, is reported for the place of a sheet. -/
theorem extract_refused (s : Schema) (g : Grid) :
    let names := s.fields.map (·.name)
    let scanned := (s.scannedNames g).toFinset.card
    let late := s.fields.filterMap (·.sheetIssue? scanned)
    let refused := (∃ f ∈ s.fields, ∃ fault, f.addressing = .error fault) ∨ ¬ names.Nodup
    (refused → ∃ repeated, AreRepeated names repeated ∧
      s.extract g = .error (.misconfigured
        (s.fields.filterMap Field.issue? ++ repeated.map (⟨·, .duplicateName⟩)))) ∧
    (¬ refused →
      (∀ name, IsFirstUnknown g (s.scannedNames g) name →
        s.extract g = .error (.unknownSheet name)) ∧
      ((∀ name ∈ s.scannedNames g, name ∈ g.names) →
        (late ≠ [] → s.extract g = .error (.misconfigured late)) ∧
        (late = [] → ∃ e, s.extract g = .ok e))) ∧
    ∀ f : Field, f.isVoid = true ∨ (f.references ≠ [] ∧ ∀ r ∈ f.references, r.sheet.isSome = true) →
      ∀ o i n, f.plan o ≠ .error ⟨f.name, .sheetIndex i n⟩ := by
  intro names scanned late refused
  have hrefused : refused ↔ s.report.issues ≠ [] := by
    rw [ne_eq, issues_eq_nil_iff, not_and_or]
    refine or_congr_left ?_
    push Not
    refine exists_congr fun f => and_congr_right fun _ => ?_
    unfold Field.issue?
    cases f.addressing <;> simp
  refine ⟨?_, ?_, fun f h o i n => Field.plan_ne_sheetIndex h o i n⟩
  · intro h
    exact ⟨_, areRepeated_repeatedNames names, extract_of_issues (hrefused.mp h)⟩
  · intro h
    have hissues : s.report.issues = [] := by
      by_contra hne
      exact h (hrefused.mpr hne)
    obtain ⟨hknown, hunknown⟩ := s.sheetOrder_spec g
    refine ⟨fun name hname => extract_of_sheetOrder_eq_error hissues (hunknown name hname), ?_⟩
    intro hall
    rw [extract_of_sheetOrder_eq_ok hissues (hknown hall)]
    -- The fields that have no plan are those that rely on a sheet beyond the scanned ones.
    have hlate : (s.fields.filterMap fun f => failure? (f.plan (.ofNames (s.scannedNames g)))) =
        late := by
      refine List.filterMap_congr fun f hf => ?_
      rw [Field.failure?_plan ((issues_eq_nil_iff.mp hissues).1 f hf), SheetOrder.size_ofNames]
    obtain ⟨hok, herror⟩ := planFields_of_failures (.ofNames (s.scannedNames g)) s.fields
    rw [hlate] at hok herror
    constructor
    · intro hne
      rw [herror hne]
    · intro hnil
      obtain ⟨fields, hfields⟩ := hok hnil
      rw [hfields]
      exact ⟨_, rfl⟩

end Schema

end SheetRecords
