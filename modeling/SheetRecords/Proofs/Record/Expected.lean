import SheetRecords.Proofs.Record.Run

/-!
# Values that are expected and values that are found

How many values a field should have on a sheet is told beforehand from the extent of the sheet
(`Plan.expectedCount`).  During an extraction each field contributes something or nothing at every
cell that is visited (`Extraction.trace`), and its exact values are counted sheet by sheet
(`Extraction.found`).  There are no more of them than expected, and just as many if all cells hold
something that the field addresses within the extent of the sheet (`Schema.found_le_expectedCount`).

The exact values are those at the cells that the plan addresses, since every cursor follows the run
(`Assembly.Resolves`).  The cells that are expected are listed (`Plan.expectedCells`), so that both
numbers are lengths of lists without repetitions, one within the other.
-/

namespace SheetRecords

open Cell

/-! ### What a run contributes -/

namespace Assembly

/-- What the fields contribute at the cell that is visited next. -/
def answers (s : Scan) (a : Assembly) (v : Visit) : List Resolution :=
  (a.enter v.position).tracks.map fun t => (t.field.resolve s v t.cursor).1

/-- The cells that are visited one after the other, and what the fields contribute at each. -/
def trace (s : Scan) (a : Assembly) : List Visit → List (Visit × List Resolution)
  | [] => []
  | v :: vs => (v, a.answers s v) :: (a.visit s v).trace s vs

theorem map_fst_trace (s : Scan) (a : Assembly) (vs : List Visit) :
    (a.trace s vs).map (·.1) = vs := by
  induction vs generalizing a with
  | nil => rfl
  | cons v vs ih => rw [trace, List.map_cons, ih]

/-- Records that are pending have no part in what is contributed. -/
theorem trace_prepend (s : Scan) (a : Assembly) (records : List Record) (vs : List Visit) :
    (a.prepend records).trace s vs = a.trace s vs := by
  induction vs generalizing a with
  | nil => rfl
  | cons v vs ih =>
    rw [trace, trace, visit_prepend, ih, answers, enter_prepend]
    rfl

end Assembly

namespace Extraction

/-- The cells that are still to be visited, and what the fields will contribute at each. -/
def trace (e : Extraction) : List (Visit × List Resolution) :=
  e.assembly.trace e.scan e.visits

/-- The number of cells on the sheet of a place in the order where the field of number `j` has an
exact value. -/
def found (e : Extraction) (i j : Nat) : Nat :=
  e.trace.countP fun x => x.1.position.rank = .sheet i && x.2[j]?.any Resolution.isExact

/-- Visiting cells up to the next record goes along the trace. -/
theorem trace_advance (s : Scan) (a : Assembly) (c : CellStream) :
    ∃ seen, a.trace s (c.visits s.grid) =
      seen ++ (advance s a c).2.elim [] fun rest =>
        (advance s a c).1.trace s (rest.visits s.grid) := by
  fun_induction advance s a c with
  | case1 a c _ hnext =>
    refine ⟨[], ?_⟩
    rw [CellStream.visits_of_next?_eq_none hnext]
    rfl
  | case2 a c _ v rest hnext ih =>
    obtain ⟨seen, hseen⟩ := ih
    refine ⟨(v, a.answers s v) :: seen, ?_⟩
    rw [CellStream.visits_of_next?_eq_some hnext, Assembly.trace, hseen]
    rfl
  | case3 a c _ => exact ⟨[], rfl⟩

theorem trace_prime (e : Extraction) : ∃ seen, e.trace = seen ++ e.prime.trace := by
  rw [prime]
  split_ifs
  · exact ⟨[], rfl⟩
  · obtain ⟨seen, hseen⟩ := trace_advance e.scan e.assembly e.stream
    refine ⟨seen, ?_⟩
    rw [trace, visits, hseen]
    split
    · next a rest hadvance => rw [hadvance]; rfl
    · next a hadvance => rw [hadvance]; rfl

/-- A call goes along the trace: what is contributed is the same however the records are asked
for. -/
theorem trace_next (e : Extraction) : ∃ seen, e.trace = seen ++ e.next.2.trace := by
  obtain ⟨seen, hseen⟩ := trace_prime e
  rw [next_def]
  split_ifs
  · exact ⟨[], rfl⟩
  · refine ⟨seen, hseen.trans ?_⟩
    split
    · rfl
    · next r pending hpending =>
      -- The record in front of the pending ones is taken away.
      have hfront : e.prime.assembly =
          { e.prime.assembly with pending := pending }.prepend [r] := by
        rw [Assembly.prepend, List.singleton_append, ← hpending]
      congr 1
      rw [trace, hfront, Assembly.trace_prepend]
      rfl

end Extraction

/-! ### Cursors follow a run -/

namespace Track

variable {t : Track} {last : Option Position}

/-- Emitting records keeps the cursor of a track where it follows the scan. -/
theorem Follows.emissions (s : Scan) (ht : t.Follows last) (ofRow : Bool)
    (columns : List (Option Nat)) (origin : Option Nat → Origin) :
    (t.after s (Assembly.emissions ofRow columns origin)).Follows last := by
  induction columns generalizing t with
  | nil => exact ht
  | cons column columns ih => exact ih (ht.emit ofRow column)

end Track

namespace Assembly

/-- An assembly whose tracks are those of some fields, with their cursors at a position of the
scan. -/
structure Resolves (fields : List PlannedField) (last : Option Position) (a : Assembly) : Prop where
  fields_eq : a.tracks.map (·.field) = fields
  follows : ∀ t ∈ a.tracks, t.Follows last

variable {s : Scan} {a : Assembly} {fields : List PlannedField} {last : Option Position}

theorem resolves_start (p : Prepared) :
    (start p.fields p.scan.order.names).Resolves p.fields none := by
  have htracks : (start p.fields p.scan.order.names).tracks = p.tracks := by
    rw [(follows_start p).tracks_eq]
    exact List.map_id _
  refine ⟨?_, ?_⟩
  · rw [htracks, Prepared.tracks, List.map_map]
    exact List.map_id _
  · rw [htracks]
    intro t ht
    obtain ⟨f, -, rfl⟩ := List.mem_map.mp ht
    exact Track.follows_start f (p.role f)

/-- What is done to all tracks alike keeps the fields. -/
theorem Resolves.map {last' : Option Position} (h : a.Resolves fields last) {g : Track → Track}
    (hfield : ∀ t, (g t).field = t.field)
    (hg : ∀ t ∈ a.tracks, t.Follows last → (g t).Follows last') {a' : Assembly}
    (htracks : a'.tracks = a.tracks.map g) : a'.Resolves fields last' := by
  refine ⟨?_, ?_⟩
  · rw [htracks, List.map_map, ← h.fields_eq]
    exact List.map_congr_left fun t _ => hfield t
  · rw [htracks]
    intro t ht
    obtain ⟨t', ht', rfl⟩ := List.mem_map.mp ht
    exact hg t' ht' (h.follows t' ht')

theorem Resolves.emit (s : Scan) (h : a.Resolves fields last) (ofRow : Bool)
    (columns : List (Option Nat)) (origin : Option Nat → Origin) :
    (a.emit ofRow columns origin).Resolves fields last := by
  refine h.map (g := (·.after s (emissions ofRow columns origin))) (fun t => Track.after_field ..)
    (fun t _ ht => ht.emissions s ofRow columns origin) ?_
  rw [emit_eq s]

theorem Resolves.closeRow (s : Scan) (h : a.Resolves fields last) (rank : Rank) (row : Nat) :
    (a.closeRow rank row).Resolves fields last := by
  apply (h.emit s true a.rowRecordColumns _).map (g := Track.closeRow) Track.closeRow_field
    (fun _ _ ht => ht.closeRow)
  rfl

theorem Resolves.closeSheet (s : Scan) (h : a.Resolves fields last) (rank : Rank) :
    (a.closeSheet rank).Resolves fields last := by
  apply (h.emit s false a.sheetRecordColumns _).map (g := Track.closeSheet) (fun _ => rfl)
    (fun _ _ ht => ht.closeSheet)
  rfl

theorem Resolves.of_current (h : a.Resolves fields last) (current : Option (Rank × Nat)) :
    { a with current := current }.Resolves fields last :=
  ⟨h.fields_eq, h.follows⟩

theorem Resolves.enter (s : Scan) (h : a.Resolves fields last) (q : Position) :
    (a.enter q).Resolves fields last := by
  unfold Assembly.enter
  apply Resolves.of_current
  cases a.current with
  | none => exact h
  | some rowKey =>
    obtain ⟨rank, row⟩ := rowKey
    simp only
    split_ifs
    · exact h
    · exact h.closeRow s rank row
    · exact h.closeSheet s rank
    · exact (h.closeRow s rank row).closeSheet s rank

/-- The plans of the tracks are those of the fields. -/
theorem Resolves.isSorted (h : a.Resolves fields last) (hplans : ∀ f ∈ fields, f.plan.IsSorted)
    {t : Track} (ht : t ∈ a.tracks) : t.field.plan.IsSorted := by
  apply hplans
  rw [← h.fields_eq]
  exact List.mem_map_of_mem ht

/-- **One visit.**  At a later cell the cursors follow on. -/
theorem Resolves.visit (h : a.Resolves fields last) (hplans : ∀ f ∈ fields, f.plan.IsSorted)
    {v : Visit} (hlast : ∀ q ∈ last, q < v.position) (hv : s.Agrees v) :
    (a.visit s v).Resolves fields (some v.position) := by
  have henter := h.enter s v.position
  refine henter.map (g := (·.act s (.observe v))) (fun t => Track.act_field ..) ?_ ?_
  · intro t ht hfollows
    exact hfollows.observe (henter.isSorted hplans ht) hlast hv
  · show ((a.enter v.position).tracks.map _).map _ = _
    rw [List.map_map]
    rfl

/-- A field other than a constant has an exact value at a later cell just if it addresses it. -/
theorem Resolves.isExact_answers (h : a.Resolves fields last)
    (hplans : ∀ f ∈ fields, f.plan.IsSorted) {v : Visit} (hlast : ∀ q ∈ last, q < v.position)
    (hv : s.Agrees v) {j : Nat} {f : PlannedField} (hf : fields[j]? = some f)
    (hconstant : f.plan.isConstant = false) :
    (a.answers s v)[j]?.any Resolution.isExact = f.plan.addresses v.position := by
  have henter := h.enter s v.position
  rw [← henter.fields_eq, List.getElem?_map] at hf
  obtain ⟨t, ht, rfl⟩ := Option.map_eq_some_iff.mp hf
  have hmem := List.mem_of_getElem? ht
  rw [answers, List.getElem?_map, ht]
  exact (henter.follows t hmem).isExact_resolve (henter.isSorted hplans hmem) hconstant hlast hv

/-- **Whole runs.**  If cells of the grid are visited in order, then all along the trace a field
other than a constant has exact values just at the cells that it addresses. -/
theorem Resolves.isExact_of_mem_trace (h : a.Resolves fields last)
    (hplans : ∀ f ∈ fields, f.plan.IsSorted) {vs : List Visit}
    (hsorted : vs.Pairwise fun u v => u.position < v.position)
    (hlast : ∀ q ∈ last, ∀ v ∈ vs, q < v.position) (hagrees : ∀ v ∈ vs, s.Agrees v) {j : Nat}
    {f : PlannedField} (hf : fields[j]? = some f) (hconstant : f.plan.isConstant = false)
    {x : Visit × List Resolution} (hx : x ∈ a.trace s vs) :
    x.2[j]?.any Resolution.isExact = f.plan.addresses x.1.position := by
  induction vs generalizing a last with
  | nil => cases hx
  | cons v vs ih =>
    have hfirst := List.mem_cons_self (a := v) (l := vs)
    have hv : ∀ q ∈ last, q < v.position := fun q hq => hlast q hq v hfirst
    rw [List.pairwise_cons] at hsorted
    rcases List.mem_cons.mp hx with rfl | hx
    · exact h.isExact_answers hplans hv (hagrees v hfirst) hf hconstant
    · refine ih (h.visit hplans hv (hagrees v hfirst)) hsorted.2 ?_ ?_ hx
      · rintro q ⟨⟩ u hu
        exact hsorted.1 u hu
      · intro u hu
        exact hagrees u (List.mem_cons_of_mem _ hu)

end Assembly

/-! ### Expected cells -/

/-- On one sheet, positions in order have different addresses. -/
theorem nodup_map_address {α : Type} {position : α → Position} {l : List α} {i : Nat}
    (hsorted : l.Pairwise fun x y => position x < position y)
    (hrank : ∀ x ∈ l, (position x).rank = .sheet i) : (l.map fun x => (position x).address).Nodup := by
  refine List.pairwise_map.mpr (hsorted.imp_of_mem ?_)
  intro x y hx hy hlt haddress
  refine absurd hlt (not_lt.mpr (le_of_eq ?_))
  have hranks := (hrank x hx).trans (hrank y hy).symm
  generalize position x = p at haddress hranks
  generalize position y = q at haddress hranks
  cases p
  cases q
  simp_all

/-- The numbers from a first one up to a last one, if there is one. -/
def upTo (first : Nat) (last? : Option Nat) : List Nat :=
  List.range' first (last?.elim 0 (· + 1) - first)

theorem mem_upTo_iff {first n : Nat} {last? : Option Nat} :
    n ∈ upTo first last? ↔ first ≤ n ∧ ∃ last ∈ last?, n ≤ last := by
  rw [upTo, List.mem_range'_1]
  cases last? with
  | none =>
    simp only [Option.elim_none, Option.not_mem_none, false_and, exists_false, and_false, iff_false]
    omega
  | some last =>
    simp only [Option.elim_some, Option.mem_some, exists_eq_left']
    omega

theorem nodup_upTo (first : Nat) (last? : Option Nat) : (upTo first last?).Nodup :=
  List.nodup_range'

theorem length_upTo_some (first last : Nat) : (upTo first (some last)).length = last + 1 - first :=
  List.length_range'

namespace Plan

/-- The cells that a field is expected to have values at on a sheet, which has a place in the order:
of a column those from its first row on to the last row of the sheet, of a row those after its first
column up to its last one, and otherwise all that are listed. -/
def Expects (s : Scan) (i : Nat) (name : String) : Plan → Address → Prop
  | .columnScan sheet column firstRow, a =>
    (∀ rank ∈ sheet, rank = .sheet i) ∧ a.column = column ∧ firstRow ≤ a.row ∧
      ∃ b, a.row ≤ b.row ∧ (s.grid.value? name b).isSome = true
  | .rowScan sheet row, a =>
    (∀ rank ∈ sheet, rank = .sheet i) ∧ a.row = row ∧ 1 ≤ a.column ∧
      ∃ b, b.row = row ∧ a.column ≤ b.column ∧ (s.grid.value? name b).isSome = true
  | .list entries, a => ∃ e ∈ entries, e.position = ⟨.sheet i, a⟩
  | .constant _, _ => False
  | .void, _ => False

/-- The cells that a field is expected to have values at, in a list. -/
def expectedCells (s : Scan) (i : Nat) (name : String) : Plan → List Address
  | .columnScan sheet column firstRow =>
    if sheet.all (· = .sheet i) then (upTo firstRow (s.grid.lastRow? name)).map (⟨·, column⟩)
    else []
  | .rowScan sheet row =>
    if sheet.all (· = .sheet i) then (upTo 1 (s.grid.lastColumn? name row)).map (⟨row, ·⟩) else []
  | .list entries => (entries.toList.filter (·.position.rank = .sheet i)).map (·.position.address)
  | .constant _ => []
  | .void => []

variable {s : Scan} {i : Nat} {name : String} {plan : Plan} {a : Address}

/-- As many cells are expected as the count says. -/
theorem length_expectedCells (hname : s.order.names[i]? = some name)
    (hconstant : plan.isConstant = false) :
    (plan.expectedCells s i name).length = plan.expectedCount s name := by
  have hrank := SheetOrder.rank_of_getElem? hname
  have hreachable : (Rank.sheet i).isReachable = true := rfl
  unfold expectedCount
  simp only [hrank, hreachable, Bool.not_true, Bool.false_eq_true, if_false]
  cases plan with
  | constant source => cases hconstant
  | columnScan sheet column firstRow =>
    simp only [expectedCells, Bool.and_eq_true, decide_eq_true_eq, Option.all_eq_true]
    by_cases hon : ∀ rank, sheet = some rank → rank = .sheet i
    · rw [if_pos hon, List.length_map]
      cases s.grid.lastRow? name with
      | none => simp [upTo]
      | some last =>
        rw [length_upTo_some]
        simp only [and_iff_right hon]
        split_ifs <;> omega
    · rw [if_neg hon]
      cases s.grid.lastRow? name <;> simp [hon]
  | rowScan sheet row =>
    simp only [expectedCells, decide_eq_true_eq, Option.all_eq_true]
    split_ifs
    · rw [List.length_map]
      cases s.grid.lastColumn? name row with
      | none => simp [upTo]
      | some last => simp [length_upTo_some]
    · rfl
  | list entries => exact List.length_map ..
  | void => rfl

theorem nodup_expectedCells (hplan : plan.IsSorted) : (plan.expectedCells s i name).Nodup := by
  cases plan with
  | constant source => exact List.nodup_nil
  | columnScan sheet column firstRow =>
    rw [expectedCells]
    split_ifs
    · exact (nodup_upTo ..).map fun m n h => congrArg Address.row h
    · exact List.nodup_nil
  | rowScan sheet row =>
    rw [expectedCells]
    split_ifs
    · exact (nodup_upTo ..).map fun m n h => congrArg Address.column h
    · exact List.nodup_nil
  | list entries =>
    refine nodup_map_address (i := i) (List.Pairwise.filter _ (hplan.entries rfl)) ?_
    intro e he
    simpa using (List.mem_filter.mp he).2
  | void => exact List.nodup_nil

/-- A plan without a sheet of its own goes with every sheet. -/
theorem all_onSheet_iff {sheet : Option Rank} :
    sheet.all (· = .sheet i) = true ↔ ∀ rank ∈ sheet, rank = .sheet i := by
  simp [Option.all_eq_true]

/-- The cells that are listed are those that are expected. -/
theorem mem_expectedCells_iff (hs : s.grid.KnowsExtent) :
    a ∈ plan.expectedCells s i name ↔ plan.Expects s i name a := by
  cases plan with
  | constant source => simp [expectedCells, Expects]
  | columnScan sheet column firstRow =>
    rw [Expects, ← hs.lastRow name a.row, ← all_onSheet_iff, expectedCells]
    split_ifs with hon
    · simp only [List.mem_map, mem_upTo_iff, hon, true_and]
      constructor
      · rintro ⟨r, hr, rfl⟩
        exact ⟨rfl, hr⟩
      · rintro ⟨rfl, hr⟩
        exact ⟨a.row, hr, rfl⟩
    · simp [hon]
  | rowScan sheet row =>
    rw [Expects, ← hs.lastColumn name row a.column, ← all_onSheet_iff, expectedCells]
    split_ifs with hon
    · simp only [List.mem_map, mem_upTo_iff, hon, true_and]
      constructor
      · rintro ⟨c, hc, rfl⟩
        exact ⟨rfl, hc⟩
      · rintro ⟨rfl, hc⟩
        exact ⟨a.column, hc, rfl⟩
    · simp [hon]
  | list entries =>
    rw [expectedCells, List.mem_map, Expects]
    constructor
    · rintro ⟨e, he, rfl⟩
      obtain ⟨hmem, hrank⟩ := List.mem_filter.mp he
      refine ⟨e, Array.mem_def.mpr hmem, ?_⟩
      have hrank : e.position.rank = .sheet i := by simpa using hrank
      rw [← hrank]
    · rintro ⟨e, he, hposition⟩
      refine ⟨e, List.mem_filter.mpr ⟨Array.mem_def.mp he, ?_⟩, ?_⟩
      · rw [hposition]
        simp
      · rw [hposition]
  | void => simp [expectedCells, Expects]

/-- A cell that is expected is addressed. -/
theorem Expects.addresses (h : plan.Expects s i name a) : plan.addresses ⟨.sheet i, a⟩ = true := by
  cases plan with
  | constant source => cases h
  | columnScan sheet column firstRow =>
    obtain ⟨hsheet, hcolumn, hrow, -⟩ := h
    have hon := all_onSheet_iff.mpr hsheet
    simp [addresses, hon, hcolumn, hrow]
  | rowScan sheet row =>
    obtain ⟨hsheet, hrow, hcolumn, -⟩ := h
    have hon := all_onSheet_iff.mpr hsheet
    simp [addresses, hon, hcolumn, hrow]
  | list entries =>
    obtain ⟨e, he, hposition⟩ := h
    rw [addresses, Array.any_eq_true']
    exact ⟨e, he, by simpa using hposition⟩
  | void => cases h

/-- A cell that is addressed is expected if it holds something, and so lies within the extent. -/
theorem expects_of_isSome (h : plan.addresses ⟨.sheet i, a⟩ = true)
    (ha : (s.grid.value? name a).isSome = true) : plan.Expects s i name a := by
  cases plan with
  | constant source => cases h
  | columnScan sheet column firstRow =>
    simp only [addresses, Bool.and_eq_true, decide_eq_true_eq, all_onSheet_iff] at h
    obtain ⟨⟨hsheet, hcolumn⟩, hrow⟩ := h
    exact ⟨hsheet, hcolumn, hrow, a, le_rfl, ha⟩
  | rowScan sheet row =>
    simp only [addresses, Bool.and_eq_true, decide_eq_true_eq, all_onSheet_iff] at h
    obtain ⟨⟨hsheet, hrow⟩, hcolumn⟩ := h
    exact ⟨hsheet, hrow, hcolumn, a, hrow, le_rfl, ha⟩
  | list entries =>
    rw [addresses, Array.any_eq_true'] at h
    obtain ⟨e, he, hposition⟩ := h
    exact ⟨e, he, by simpa using hposition⟩
  | void => cases h

end Plan

/-! ### Found cells -/

namespace Scan

variable {s : Scan} {i : Nat} {name : String} {plan : Plan} {a : Address}

/-- The cells that are visited on a sheet and addressed by a plan. -/
def foundCells (s : Scan) (i : Nat) (plan : Plan) : List Address :=
  (s.visits.filter fun v => v.position.rank = .sheet i && plan.addresses v.position).map
    (·.position.address)

theorem nodup_foundCells (hs : s.grid.IsLawful) : (s.foundCells i plan).Nodup := by
  refine nodup_map_address (i := i) (List.Pairwise.filter _ (visits_sorted hs)) ?_
  intro v hv
  have hv := (List.mem_filter.mp hv).2
  rw [Bool.and_eq_true, decide_eq_true_eq] at hv
  exact hv.1

theorem mem_foundCells_iff (hs : s.grid.IsLawful) (hname : s.order.names[i]? = some name) :
    a ∈ s.foundCells i plan ↔
      plan.addresses ⟨.sheet i, a⟩ = true ∧ (s.grid.value? name a).isSome = true := by
  rw [foundCells, List.mem_map, Option.isSome_iff_exists]
  simp only [hs.value?_eq_some_iff, List.mem_filter, Bool.and_eq_true, decide_eq_true_eq]
  constructor
  · rintro ⟨v, ⟨hv, hrank, haddressed⟩, rfl⟩
    obtain ⟨j, name', hname', hv⟩ := mem_visits_iff.mp hv
    obtain ⟨hrank', hcell⟩ := mem_sheetVisits_iff.mp hv
    obtain rfl : i = j := Rank.sheet.inj (hrank.symm.trans hrank')
    obtain rfl : name = name' := Option.some.inj (hname.symm.trans hname')
    rw [← hrank]
    exact ⟨haddressed, v.value, hcell⟩
  · rintro ⟨haddressed, x, hcell⟩
    refine ⟨⟨⟨.sheet i, a⟩, x⟩, ⟨?_, rfl, haddressed⟩, rfl⟩
    exact mem_visits_iff.mpr ⟨i, name, hname, mem_sheetVisits_iff.mpr ⟨rfl, hcell⟩⟩

/-- What is found on a sheet is expected, and it is all that is expected if each expected cell holds
something. -/
theorem length_foundCells_le (hs : s.grid.IsLawful) (hextent : s.grid.KnowsExtent)
    (hname : s.order.names[i]? = some name) (hplan : plan.IsSorted) :
    (s.foundCells i plan).length ≤ (plan.expectedCells s i name).length ∧
      ((s.foundCells i plan).length = (plan.expectedCells s i name).length ↔
        ∀ a, plan.Expects s i name a → (s.grid.value? name a).isSome = true) := by
  have hsubset : s.foundCells i plan ⊆ plan.expectedCells s i name := by
    intro a ha
    obtain ⟨haddressed, hsome⟩ := (mem_foundCells_iff hs hname).mp ha
    exact (Plan.mem_expectedCells_iff hextent).mpr (Plan.expects_of_isSome haddressed hsome)
  have hsubperm := List.subperm_of_subset (nodup_foundCells hs) hsubset
  refine ⟨hsubperm.length_le, ?_, ?_⟩
  · intro hlength a ha
    have hperm := hsubperm.perm_of_length_le hlength.ge
    have hmem := hperm.mem_iff.mpr ((Plan.mem_expectedCells_iff hextent).mpr ha)
    exact ((mem_foundCells_iff hs hname).mp hmem).2
  · intro hall
    refine Nat.le_antisymm hsubperm.length_le ?_
    refine (List.subperm_of_subset (Plan.nodup_expectedCells hplan) ?_).length_le
    intro a ha
    have hexpects := (Plan.mem_expectedCells_iff hextent).mp ha
    exact (mem_foundCells_iff hs hname).mpr ⟨hexpects.addresses, hall a hexpects⟩

end Scan

/-- An extraction finds what the plan addresses among the cells of the scan. -/
theorem Extraction.found_start {p : Prepared} (hp : p.IsLawful) (limit : Option Nat) {i j : Nat}
    {f : PlannedField} (hf : p.fields[j]? = some f) (hconstant : f.plan.isConstant = false) :
    (start p limit).found i j = (p.scan.foundCells i f.plan).length := by
  have hvisits : (start p limit).visits = p.scan.visits := CellStream.visits_start p.scan
  have hexact : ∀ x ∈ (start p limit).trace,
      x.2[j]?.any Resolution.isExact = f.plan.addresses x.1.position := by
    intro x hx
    rw [trace, hvisits] at hx
    refine (Assembly.resolves_start p).isExact_of_mem_trace hp.plans (Scan.visits_sorted hp.grid) ?_
      ?_ hf hconstant hx
    · rintro q ⟨⟩
    · intro v hv
      exact Scan.agrees_of_mem_visits hp.grid hv
  have hfst : (start p limit).trace.map (·.1) = p.scan.visits := by
    rw [trace, Assembly.map_fst_trace, hvisits]
  rw [found, Scan.foundCells, List.length_map, ← List.countP_eq_length_filter, ← hfst,
    List.countP_map]
  refine List.countP_congr fun x hx => ?_
  rw [Function.comp_apply, hexact x hx]

/-- **Expected values.**  In an extraction from a workbook, a field other than a constant has no more
exact values on a scanned sheet than are expected.  It has just as many if each cell that the field
addresses within the extent of the sheet holds something.  A field without cells expects and finds
nothing. -/
theorem Schema.found_le_expectedCount {schema : Schema} {w : Workbook} {e : Extraction}
    (h : schema.extract w = .ok e) :
    ∃ p, schema.prepare w = .ok p ∧ ∀ (j : Nat) (f : PlannedField) (i : Nat) (name : String),
      p.fields[j]? = some f → f.plan.isConstant = false → p.scan.order.names[i]? = some name →
        e.found i j ≤ f.plan.expectedCount p.scan name ∧
          (e.found i j = f.plan.expectedCount p.scan name ↔
            ∀ a, f.plan.Expects p.scan i name a → (w.value? name a).isSome = true) ∧
          (f.plan = .void → f.plan.expectedCount p.scan name = 0 ∧ e.found i j = 0) := by
  obtain ⟨p, hprepare, rfl⟩ := Schema.extract_eq_ok_iff.mp h
  have hp := Schema.isLawful_of_prepare w.isLawful_grid hprepare
  have hgrid : p.scan.grid = w.grid := (Schema.of_prepare_eq_ok hprepare).2.1
  have hextent : p.scan.grid.KnowsExtent := hgrid ▸ w.knowsExtent_grid
  refine ⟨p, hprepare, fun j f i name hf hconstant hname => ?_⟩
  have hplan := hp.plans f (List.mem_of_getElem? hf)
  obtain ⟨hle, hiff⟩ := Scan.length_foundCells_le hp.grid hextent hname hplan
  rw [Plan.length_expectedCells hname hconstant, ← Extraction.found_start hp
    schema.options.recordLimit hf hconstant] at hle hiff
  rw [hgrid] at hiff
  refine ⟨hle, hiff, fun hvoid => ?_⟩
  have hzero : f.plan.expectedCount p.scan name = 0 := by
    rw [← Plan.length_expectedCells hname hconstant, hvoid]
    rfl
  exact ⟨hzero, Nat.le_zero.mp (hzero ▸ hle)⟩

/-- A column with a heading and a blank cell. -/
def sparseTable : Workbook :=
  ⟨[⟨"Table", ((Store.empty.set ⟨0, 0⟩ (.text "item")).set ⟨1, 0⟩ (.boolean true)).set ⟨3, 0⟩
    (.boolean false)⟩]⟩

/-- A field down the column below the heading, and the last two cells of it as a list of metrics. -/
def sparseSchema : Schema :=
  ⟨[{ Field.named "item" with column := some 0, firstRow := some 1 },
    { Field.named "total" with
      cells := [⟨none, ⟨3, 0⟩⟩, ⟨none, ⟨1, 0⟩⟩, ⟨none, ⟨3, 0⟩⟩], type := .number }], .default⟩

/-- The listed cells as entries, each once. -/
def sparseEntries : Array Entry :=
  #[⟨⟨.sheet 0, ⟨1, 0⟩⟩, none⟩, ⟨⟨.sheet 0, ⟨3, 0⟩⟩, none⟩]

/-- The schema made ready for the table. -/
def sparsePrepared : Prepared :=
  ⟨⟨sparseTable, .ofNames ["Table"]⟩,
    [⟨"item", false, none, .columnScan none 0 1⟩, ⟨"total", true, none, .list sparseEntries⟩]⟩

/-- The blank cell is missed of three that are expected, and both of the listed cells are found. -/
theorem Schema.found_le_expectedCount_sparseTable :
    sparseSchema.extract sparseTable = .ok (.start sparsePrepared none) ∧
      (Extraction.start sparsePrepared none).found 0 0 < 3 ∧
      (Extraction.start sparsePrepared none).found 0 1 = 2 := by
  have hextract : sparseSchema.extract sparseTable = .ok (.start sparsePrepared none) := by
    cbv
  obtain ⟨p, hprepare, hcount⟩ := Schema.found_le_expectedCount hextract
  have hprepare' : sparseSchema.prepare sparseTable = .ok sparsePrepared := by
    cbv
  obtain rfl : sparsePrepared = p := Except.ok.inj (hprepare'.symm.trans hprepare)
  have hitem : (Plan.columnScan none 0 1).expectedCount sparsePrepared.scan "Table" = 3 := by
    cbv
  have htotal : (Plan.list sparseEntries).expectedCount sparsePrepared.scan "Table" = 2 := by
    decide +kernel
  obtain ⟨hle, hiff, -⟩ := hcount 0 _ 0 "Table" rfl rfl rfl
  obtain ⟨-, hiff', -⟩ := hcount 1 _ 0 "Table" rfl rfl rfl
  rw [hitem] at hle hiff
  rw [htotal] at hiff'
  refine ⟨hextract, lt_of_le_of_ne hle fun hall => ?_, hiff'.mpr ?_⟩
  · -- The third cell of the column is expected, since there is one below it.
    have hblank := hiff.mp hall ⟨2, 0⟩
      ⟨by simp, rfl, by decide, ⟨3, 0⟩, by decide, by decide +kernel⟩
    exact absurd hblank (by decide +kernel)
  · have hentries : ∀ e ∈ sparseEntries, (sparseTable.value? "Table" e.position.address).isSome :=
      by decide +kernel
    rintro a ⟨e, he, hposition⟩
    have hsome := hentries e he
    rwa [hposition] at hsome

end SheetRecords
