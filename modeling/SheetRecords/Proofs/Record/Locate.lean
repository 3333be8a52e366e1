import SheetRecords.Proofs.Record.Schedule

/-!
# Where in the schedule a record is put together

A record of a row is put together after the sheets before its own, the rows above its own, the
visits of its row and the records of the row before it (`Prepared.actsBefore`).  It is given what
the slots of the tracks hold then (`Prepared.exists_row_of_mem_given`).
-/

namespace SheetRecords

open Cell

namespace Track

variable {s : Scan} {t : Track}

/-- A record of several groups of acts belongs to one of them. -/
theorem mem_given_flatMap {α : Type} (acts : List Act) {l : List α} {f : α → List Act}
    {o : Origin} {x : Option Value} (horder : Act.InOrder s (acts ++ l.flatMap f))
    (h : (o, x) ∈ (t.after s acts).given s (l.flatMap f)) :
    ∃ l₁ a l₂, l = l₁ ++ a :: l₂ ∧ Act.InOrder s (acts ++ l₁.flatMap f ++ f a) ∧
      (o, x) ∈ (t.after s (acts ++ l₁.flatMap f)).given s (f a) := by
  induction l generalizing acts with
  | nil => cases h
  | cons a l ih =>
    rw [List.flatMap_cons, ← List.append_assoc] at horder
    rw [List.flatMap_cons, given_append, List.mem_append] at h
    rcases h with h | h
    · refine ⟨[], a, l, rfl, ?_, ?_⟩
      · simpa using horder.of_append
      · simpa using h
    · rw [← after_append] at h
      obtain ⟨l₁, b, l₂, rfl, horder', hb⟩ := ih (acts ++ f a) horder h
      refine ⟨a :: l₁, b, l₂, rfl, ?_, ?_⟩
      · rwa [List.flatMap_cons, ← List.append_assoc]
      · rwa [List.flatMap_cons, ← List.append_assoc]

/-- A record is given what its slot holds after the records before it. -/
theorem mem_given_emissions {acts : List Act} {ofRow : Bool} {columns : List (Option Nat)}
    {origin : Option Nat → Origin} {o : Origin} {x : Option Value}
    (h : (o, x) ∈ (t.after s acts).given s (columns.map fun c => .emit ofRow c (origin c))) :
    ∃ before c after, columns = before ++ c :: after ∧ o = origin c ∧
      x = (t.after s (acts ++ before.map fun c => .emit ofRow c (origin c))).value? ofRow c := by
  induction columns generalizing acts with
  | nil => cases h
  | cons c columns ih =>
    rw [List.map_cons, given, List.mem_cons] at h
    rcases h with h | h
    · rw [Prod.mk.injEq] at h
      exact ⟨[], c, columns, rfl, h.1, by simpa using h.2⟩
    · change _ ∈ ((t.after s acts).after s [.emit ofRow c (origin c)]).given s _ at h
      rw [← after_append] at h
      obtain ⟨before, c', after', rfl, ho, hx⟩ := ih h
      exact ⟨c :: before, c', after', rfl, ho, by simpa using hx⟩

theorem given_map_observe (t : Track) (s : Scan) (vs : List Visit) :
    t.given s (vs.map .observe) = [] := by
  induction vs generalizing t with
  | nil => rfl
  | cons v vs ih => exact ih _

end Track

namespace Prepared

variable {p : Prepared}

/-- The acts before the record of a row for a column: those of the sheets before, of the rows above
on the sheet, and in the row the visits and the records for the columns before. -/
def actsBefore (p : Prepared) (sheets : List (String × Nat)) (name : String)
    (above : List (Nat × List Visit)) (row : Nat × List Visit) (columns : List (Option Nat)) :
    List Act :=
  (sheets.flatMap fun sheet => p.sheetActs sheet.1 (p.scan.sheetVisits sheet.2 sheet.1)) ++
    above.flatMap (p.rowActs name) ++ row.2.map .observe ++
    columns.map fun column => .emit true column ⟨some name, some row.1, column⟩

theorem row_eq_none_of_mem_given_sheetEmissions {t : Track} {name : String} {vs : List Visit}
    {o : Origin} {x : Option Value} (h : (o, x) ∈ t.given p.scan (p.sheetEmissions name vs)) :
    o.row = none := by
  change (o, x) ∈ (t.after p.scan []).given p.scan (p.sheetEmissions name vs) at h
  obtain ⟨before, c, after, -, rfl, -⟩ := Track.mem_given_emissions h
  rfl

/-- A sheet at which the order is split is found at its place in it. -/
theorem getElem?_of_zipIdx_eq {names : List String} {sheets sheets' : List (String × Nat)}
    {name : String} {i : Nat} (h : names.zipIdx = sheets ++ (name, i) :: sheets') :
    names[i]? = some name := by
  have hmem : (name, i) ∈ names.zipIdx := by
    rw [h]
    exact List.mem_append_right _ (List.mem_cons_self ..)
  exact List.mem_zipIdx_iff_getElem?.mp hmem

/-- **A record of a row** comes after all that lies before it, with the values of that time. -/
theorem exists_row_of_mem_given (hp : p.IsLawful) {t : Track} {i : Nat} {name : String}
    (hname : p.scan.order.names[i]? = some name) {r : Nat} {c : Option Nat} {x : Option Value}
    (h : (⟨some name, some r, c⟩, x) ∈ t.given p.scan p.schedule) :
    ∃ sheets above row below before after,
      rowsOf (p.scan.sheetVisits i name) = above ++ (r, row) :: below ∧
      p.rowColumns row = before ++ c :: after ∧
      Act.InOrder p.scan (p.actsBefore sheets name above (r, row) before) ∧
      x = (t.after p.scan (p.actsBefore sheets name above (r, row) before)).value? true c := by
  have horder := hp.inOrder_schedule
  rw [schedule] at h horder
  rw [Track.given_append, List.mem_append] at h
  rcases h with h | h
  · -- Find the sheet of the record,
    obtain ⟨sheets, ⟨name', j⟩, sheets', hsheets, horder, h⟩ :=
      Track.mem_given_flatMap [] horder.of_append h
    have hname' := getElem?_of_zipIdx_eq hsheets
    rw [List.nil_append] at horder h
    rw [sheetActs] at h horder
    split_ifs at h horder with hvs
    · cases h
    · rw [Track.given_append, Track.given_append, List.mem_append, List.mem_append] at h
      rcases h with (h | h) | h
      · -- its row,
        rw [← List.append_assoc, ← List.append_assoc] at horder
        obtain ⟨above, ⟨r', row⟩, below, hrows, horder, h⟩ :=
          Track.mem_given_flatMap _ horder.of_append.of_append h
        rw [rowActs] at h horder
        rw [Track.given_append, Track.given_append, Track.given_map_observe, List.nil_append,
          List.mem_append] at h
        rcases h with h | h
        · -- and the records of the row before it.
          rw [← Track.after_append, rowEmissions] at h
          obtain ⟨before, c', after, hcolumns, ho, hx⟩ := Track.mem_given_emissions h
          simp only [Origin.mk.injEq, Option.some.injEq] at ho
          obtain ⟨rfl, rfl, rfl⟩ := ho
          obtain rfl : j = i := p.scan.order.index_unique hname' hname
          rw [rowEmissions, hcolumns, List.map_append, ← List.append_assoc, ← List.append_assoc,
            ← List.append_assoc] at horder
          exact ⟨sheets, above, row, below, before, after, hrows, hcolumns,
            horder.of_append.of_append, hx⟩
        · cases h
      · cases row_eq_none_of_mem_given_sheetEmissions h
      · cases h
  · -- The record of a document has no row.
    rw [endActs] at h
    split_ifs at h
    · rcases List.mem_cons.mp h with heq | h
      · rw [Prod.mk.injEq] at heq
        cases heq.1
      · cases h
    · cases h

/-- The acts before the record of a sheet for a column: those of the sheets before, of the rows of
the sheet, and the records for the columns before. -/
def actsBeforeColumn (p : Prepared) (sheets : List (String × Nat)) (name : String)
    (vs : List Visit) (columns : List (Option Nat)) : List Act :=
  (sheets.flatMap fun sheet => p.sheetActs sheet.1 (p.scan.sheetVisits sheet.2 sheet.1)) ++
    (rowsOf vs).flatMap (p.rowActs name) ++
    columns.map fun column => .emit false column ⟨some name, none, column⟩

theorem row_ne_none_of_mem_given_rows {t : Track} {name : String} {rows : List (Nat × List Visit)}
    {o : Origin} {x : Option Value}
    (h : (o, x) ∈ t.given p.scan (rows.flatMap (p.rowActs name))) : o.row ≠ none := by
  have ho : o ∈ (rows.flatMap (p.rowActs name)).filterMap Act.origin? := by
    rw [← Track.map_fst_given p.scan t]
    exact List.mem_map.mpr ⟨_, h, rfl⟩
  obtain ⟨act, hact, ho⟩ := List.mem_filterMap.mp ho
  obtain ⟨row, -, hact⟩ := List.mem_flatMap.mp hact
  simp only [rowActs, rowEmissions, List.mem_append, List.mem_map, List.mem_singleton] at hact
  rcases hact with (⟨v, -, rfl⟩ | ⟨c, -, rfl⟩) | rfl
  · cases ho
  · obtain rfl := Option.some.inj ho
    exact Option.some_ne_none _
  · cases ho

/-- **A record of a sheet** comes after all its rows, with the values of that time. -/
theorem exists_sheet_of_mem_given (hp : p.IsLawful) {t : Track} {i : Nat} {name : String}
    (hname : p.scan.order.names[i]? = some name) {c : Option Nat} {x : Option Value}
    (h : (⟨some name, none, c⟩, x) ∈ t.given p.scan p.schedule) :
    ∃ sheets before after, p.sheetColumns (p.scan.sheetVisits i name) = before ++ c :: after ∧
      Act.InOrder p.scan (p.actsBeforeColumn sheets name (p.scan.sheetVisits i name) before) ∧
      x = (t.after p.scan (p.actsBeforeColumn sheets name (p.scan.sheetVisits i name)
        before)).value? false c := by
  have horder := hp.inOrder_schedule
  rw [schedule] at h horder
  rw [Track.given_append, List.mem_append] at h
  rcases h with h | h
  · obtain ⟨sheets, ⟨name', j⟩, sheets', hsheets, horder, h⟩ :=
      Track.mem_given_flatMap [] horder.of_append h
    have hname' := getElem?_of_zipIdx_eq hsheets
    rw [List.nil_append] at horder h
    rw [sheetActs] at h horder
    split_ifs at h horder with hvs
    · cases h
    · rw [Track.given_append, Track.given_append, List.mem_append, List.mem_append] at h
      rcases h with (h | h) | h
      · exact absurd rfl (row_ne_none_of_mem_given_rows h)
      · rw [← Track.after_append, sheetEmissions] at h
        obtain ⟨before, c', after, hcolumns, ho, hx⟩ := Track.mem_given_emissions h
        simp only [Origin.mk.injEq, Option.some.injEq, true_and] at ho
        obtain ⟨rfl, rfl⟩ := ho
        obtain rfl : j = i := p.scan.order.index_unique hname' hname
        rw [sheetEmissions, hcolumns, List.map_append, ← List.append_assoc, ← List.append_assoc,
          ← List.append_assoc] at horder
        exact ⟨sheets, before, after, hcolumns, horder.of_append.of_append, hx⟩
      · cases h
  · -- The record of a document has no sheet.
    rw [endActs] at h
    split_ifs at h
    · rcases List.mem_cons.mp h with heq | h
      · rw [Prod.mk.injEq] at heq
        cases heq.1
      · cases h
    · cases h

end Prepared

end SheetRecords
