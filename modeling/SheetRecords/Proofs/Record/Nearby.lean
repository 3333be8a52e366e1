import SheetRecords.Proofs.Record.Carried

/-!
# Values that come to a column

A field that goes with columns and follows a list gives its values to the columns of the visited
cells.  A cell without an entry of its own is given the value of the entry last reached, and that
entry lies to the left of the cell, or in a row above and then anywhere on the sheet: a column may
get its value from an entry to its right (`Schema.get?_from_right`).

`Schema.get?_nearby` states when it does not.  What a slot holds was offered to it by some visit of
the column (`Track.exists_offer`).  If the field is no metric, only the first offer counts, so that
nothing comes from an entry below a cell of the column that had an answer.  The value of a metric is
used by the column of its own cell, and no longer there for any other (`Track.used_after`).
-/

namespace SheetRecords

open Cell

/-! ### What an answer says -/

section Answers

variable {s : Scan} {last : Option Entry} {spent : Bool} {v : Visit}

/-- A value that is contributed is that of the entry last reached, which is at the cell, or else on
its sheet and not used. -/
theorem Scan.exists_of_answer (hv : s.value? v.position = some v.value) {x : Value}
    (h : (s.answer last spent v).value? = some x) :
    ∃ e, last = some e ∧ e.position.rank = v.position.rank ∧ e.value? s = some x ∧
      (e.position = v.position ∨ spent = false ∧ s.answer last spent v = .nearby x) := by
  cases last with
  | none => cases h
  | some e =>
    by_cases hat : e.position = v.position
    · rw [Scan.answer_of_eq hat] at h
      have hvalue : e.value? s = some (e.value.getD v.value) :=
        Entry.value?_of_cell (hat ▸ hv)
      exact ⟨e, rfl, congrArg _ hat, hvalue.trans h, .inl hat⟩
    · simp only [Scan.answer, if_neg hat] at h ⊢
      split_ifs at h ⊢ with hno
      · cases h
      · simp only [ne_eq, Bool.or_eq_true, decide_eq_true_eq, not_or, not_not,
          Bool.not_eq_true] at hno
        cases hvalue : e.value? s with
        | none =>
          rw [hvalue] at h
          cases h
        | some y =>
          rw [hvalue] at h
          obtain rfl : y = x := Option.some.inj h
          exact ⟨e, rfl, hno.1, hvalue, .inr ⟨hno.2, rfl⟩⟩

/-- An entry with a value on the sheet of the cell is an answer, unless it is used. -/
theorem Scan.isSome_answer {e : Entry} (hrank : e.position.rank = v.position.rank)
    (hvalue : (e.value? s).isSome = true) : (s.answer (some e) false v).value?.isSome = true := by
  obtain ⟨x, hx⟩ := Option.isSome_iff_exists.mp hvalue
  by_cases hat : e.position = v.position
  · rw [Scan.answer_of_eq hat]
    rfl
  · simp only [Scan.answer, if_neg hat, hrank, hx]
    simp [Resolution.value?]

/-- A visited cell that has an answer: the entry last reached is on its sheet and has a value. -/
def Scan.IsAnswered (s : Scan) (entries : Array Entry) (v : Visit) : Prop :=
  ∃ e, lastUpTo entries.toList v.position = some e ∧ e.position.rank = v.position.rank ∧
    (e.value? s).isSome = true

theorem Scan.IsAnswered.isSome {entries : Array Entry} (h : s.IsAnswered entries v) :
    (s.answer (lastUpTo entries.toList v.position) false v).value?.isSome = true := by
  obtain ⟨e, he, hrank, hvalue⟩ := h
  rw [he]
  exact Scan.isSome_answer hrank hvalue

/-- The values tell the entries apart: no two entries have the same one. -/
def Scan.TellsApart (s : Scan) (entries : Array Entry) : Prop :=
  ∀ a ∈ entries, ∀ b ∈ entries, ∀ x, a.value? s = some x → b.value? s = some x → a = b

/-- An entry whose cell holds a value, with no other one like that above it. -/
structure Scan.IsUppermost (s : Scan) (entries : Array Entry) (e : Entry) : Prop where
  isSome : (s.value? e.position).isSome = true
  row_le : ∀ e' ∈ entries, e'.position.rank = e.position.rank →
    e'.position.address.column = e.position.address.column →
    (s.value? e'.position).isSome = true → e.position.address.row ≤ e'.position.address.row

end Answers

/-! ### Values that are used stay so -/

namespace Track

variable {s : Scan} {f : PlannedField} {entries : Array Entry}

/-- Once the current value of a list is used it stays so until the next entry is reached. -/
theorem used_after (hl : f.plan = .list entries) (hsorted : EntriesSorted entries.toList)
    (role : Role) {before acts : List Act} (horder : Act.InOrder s (before ++ acts)) {e : Entry}
    {q : Position} (hq : q ∈ Act.standsAt before) (he : e.position ≤ q)
    (hused : ((start f role).after s before).cursor.used = true)
    (hlast : ∀ v ∈ Act.visits acts, lastUpTo entries.toList v.position = some e) :
    ((start f role).after s (before ++ acts)).cursor.used = true ∧
      ∃ q ∈ Act.standsAt (before ++ acts), e.position ≤ q := by
  -- At each visit the entry last reached is the same: the cursor does not move, and only a move
  -- would let go of the mark.
  induction acts using List.reverseRecOn with
  | nil =>
    rw [List.append_nil]
    exact ⟨hused, q, hq, he⟩
  | append_singleton acts act ih =>
    rw [← List.append_assoc] at horder ⊢
    have hlast' : ∀ v ∈ Act.visits acts, lastUpTo entries.toList v.position = some e := by
      intro v hv
      refine hlast v ?_
      rw [Act.visits_append]
      exact List.mem_append_left _ hv
    obtain ⟨hused, q, hq, he⟩ := ih horder.of_append hlast'
    have hact : (start f role).after s (before ++ acts ++ [act]) =
        ((start f role).after s (before ++ acts)).act s act := after_append ..
    rw [hact]
    cases act with
    | observe v =>
      have hv : lastUpTo entries.toList v.position = some e :=
        hlast v (by simp [Act.visits, Act.visit?])
      refine ⟨?_, v.position, Act.standsAt_append_observe .., (mem_of_lastUpTo hv).2⟩
      have hstep := resolve_after hl hsorted role horder
      have hqv := horder.lt_of_standsAt rfl q hq
      rw [hq, Cursor.advance_of_lastUpTo hsorted hv he hqv.le] at hstep
      rw [Track.act, cursor_takeIn, after_field]
      show (if _ then (f.resolve s v _).2.markUsed else (f.resolve s v _).2).used = true
      rw [hstep]
      split_ifs
      · rfl
      · exact hused
    | emit ofRow column origin =>
      rw [Act.standsAt_append_of_visit?_eq_none _ rfl, Track.act, cursor_emit]
      refine ⟨?_, q, hq, he⟩
      split_ifs
      · rfl
      · exact hused
    | closeRow =>
      rw [Act.standsAt_append_of_visit?_eq_none _ rfl, Track.act, closeRow_cursor]
      exact ⟨hused, q, hq, he⟩
    | closeSheet =>
      rw [Act.standsAt_append_of_visit?_eq_none _ rfl]
      exact ⟨hused, q, hq, he⟩
    | readConstants =>
      have hconstant : ((start f role).after s (before ++ acts)).field.plan.isConstant = false := by
        rw [after_field]
        show f.plan.isConstant = false
        rw [hl]
        rfl
      rw [Act.standsAt_append_of_visit?_eq_none _ rfl, act_readConstants hconstant]
      exact ⟨hused, q, hq, he⟩

end Track

namespace Slot

/-- A nearby value is taken by an empty slot only. -/
theorem eq_empty_of_offer?_nearby {slot slot' : Slot} {x : Value}
    (h : slot.offer? (.nearby x) = some slot') : slot = .empty := by
  cases slot <;> cases h
  rfl

/-- An exact value is taken unless there is one before it. -/
theorem isSome_offer?_exact {slot : Slot} (h : ∀ y, slot ≠ .exact y) (x : Value) :
    (slot.offer? (.exact x)).isSome = true := by
  cases slot with
  | exact y => exact absurd rfl (h y)
  | _ => rfl

/-- A slot that holds an exact value after an offer was offered it. -/
theorem eq_exact_of_offer? {slot : Slot} {r : Resolution} {x : Value}
    (h : slot.offer? r = some (.exact x)) : r = .exact x := by
  cases slot <;> cases r <;> cases h <;> rfl

end Slot

/-! ### The acts on one sheet -/

/-- Some acts on the `i`-th sheet, the first ones after those of other sheets.  They visit the first
cells of the sheet, and leave it open. -/
structure Prepared.OnSheet (p : Prepared) (i : Nat) (name : String) (sheets : List (String × Nat))
    (acts : List Act) : Prop where
  name_eq : p.scan.order.names[i]? = some name
  inOrder : Act.InOrder p.scan (p.actsOfSheets sheets ++ acts)
  visits : Act.visits acts <+: p.scan.sheetVisits i name
  isOpen : .closeSheet ∉ acts

namespace Prepared.OnSheet

variable {p : Prepared} {i : Nat} {name : String} {sheets : List (String × Nat)} {acts : List Act}
  {f : PlannedField} {entries : Array Entry}

theorem of_append {acts' : List Act} (h : p.OnSheet i name sheets (acts ++ acts')) :
    p.OnSheet i name sheets acts where
  name_eq := h.name_eq
  inOrder := by
    have horder := h.inOrder
    rw [← List.append_assoc] at horder
    exact horder.of_append
  visits := by
    have hvisits := h.visits
    rw [Act.visits_append] at hvisits
    exact (List.prefix_append _ _).trans hvisits
  isOpen hmem := h.isOpen (List.mem_append_left _ hmem)

variable {before after : List Act} {v : Visit}

theorem mem_sheetVisits (h : p.OnSheet i name sheets (before ++ .observe v :: after)) :
    v ∈ p.scan.sheetVisits i name := by
  refine h.visits.subset ?_
  rw [Act.visits_append]
  exact List.mem_append_right _ (List.mem_cons_self ..)

theorem rank_eq (h : p.OnSheet i name sheets (before ++ .observe v :: after)) :
    v.position.rank = .sheet i :=
  (Scan.mem_sheetVisits_iff.mp h.mem_sheetVisits).1

theorem value?_eq (hp : p.IsLawful)
    (h : p.OnSheet i name sheets (before ++ .observe v :: after)) :
    p.scan.value? v.position = some v.value :=
  Scan.value?_of_mem_visits hp.grid
    (Scan.mem_visits_iff.mpr ⟨i, name, h.name_eq, h.mem_sheetVisits⟩)

theorem inOrder_observe (h : p.OnSheet i name sheets (before ++ .observe v :: after)) :
    Act.InOrder p.scan (p.actsOfSheets sheets ++ before ++ [.observe v]) := by
  have horder := h.inOrder
  rw [List.append_cons, ← List.append_assoc, ← List.append_assoc] at horder
  exact horder.of_append

/-- The visits of a sheet come in order. -/
theorem lt_of_mem (hp : p.IsLawful)
    (h : p.OnSheet i name sheets (before ++ .observe v :: after)) {u : Visit}
    (hu : u ∈ Act.visits before) : u.position < v.position := by
  have hsorted := (Scan.sheetVisits_sorted hp.grid i name).sublist h.visits.sublist
  rw [Act.visits_append] at hsorted
  exact (List.pairwise_append.mp hsorted).2.2 u hu v (List.mem_cons_self ..)

/-- The cells of the sheet that lie before a visited one have been visited before it. -/
theorem exists_split (hp : p.IsLawful)
    (h : p.OnSheet i name sheets (before ++ .observe v :: after)) {u : Visit}
    (hu : u ∈ p.scan.sheetVisits i name) (hlt : u.position < v.position) :
    ∃ b b', before = b ++ .observe u :: b' ∧
      ∀ w ∈ Act.visits b', u.position < w.position ∧ w.position < v.position := by
  have hsorted := Scan.sheetVisits_sorted hp.grid i name
  obtain ⟨rest, hrest⟩ := h.visits
  have hvisits : Act.visits (before ++ .observe v :: after) =
      Act.visits before ++ v :: Act.visits after := by
    rw [Act.visits_append]
    rfl
  rw [← hrest, hvisits, List.append_assoc, List.cons_append] at hsorted hu
  have hmem : u ∈ Act.visits before := by
    rcases List.mem_append.mp hu with hu | hu
    · exact hu
    · -- The other cells are not visited before it.
      have hafter := (List.pairwise_append.mp hsorted).2.1
      rcases List.mem_cons.mp hu with rfl | hu
      · exact absurd hlt (lt_irrefl _)
      · exact absurd hlt (lt_asymm ((List.pairwise_cons.mp hafter).1 u hu))
  obtain ⟨act, hact, hvisit⟩ := List.mem_filterMap.mp hmem
  obtain ⟨b, b', rfl⟩ := List.append_of_mem hact
  have hobserve : act = .observe u := by
    cases act with
    | observe w => exact congrArg Act.observe (Option.some.inj hvisit)
    | _ => cases hvisit
  subst hobserve
  have hinner := (List.pairwise_append.mp hsorted).1
  rw [Act.visits_append] at hinner
  refine ⟨b, b', rfl, fun w hw => ⟨?_, ?_⟩⟩
  · exact (List.pairwise_cons.mp (List.pairwise_append.mp hinner).2.1).1 w hw
  · refine h.lt_of_mem hp ?_
    rw [Act.visits_append]
    exact List.mem_append_right _ (List.mem_cons_of_mem _ hw)

end Prepared.OnSheet

namespace Prepared

variable {p : Prepared} {f : PlannedField} {entries : Array Entry} {i : Nat} {name : String}
  {sheets : List (String × Nat)} {acts : List Act} {c : Nat}

/-- The track of a field that goes with columns, after the sheets before and some acts. -/
abbrev columnTrack (p : Prepared) (f : PlannedField) (sheets : List (String × Nat))
    (acts : List Act) : Track :=
  (Track.start f .column).after p.scan (p.actsOfSheets sheets ++ acts)

/-- The cursor of the track when it comes to a visit: at the entry last reached. -/
abbrev columnCursor (p : Prepared) (f : PlannedField) (entries : Array Entry)
    (sheets : List (String × Nat)) (before : List Act) (v : Visit) : Cursor :=
  (p.columnTrack f sheets before).cursor.advance entries.toList
    (Act.standsAt (p.actsOfSheets sheets ++ before)) v.position

theorem columnTrack_append_observe (before : List Act) (v : Visit) :
    p.columnTrack f sheets (before ++ [.observe v]) =
      (p.columnTrack f sheets before).takeIn v.position.address.column
        (f.resolve p.scan v (p.columnTrack f sheets before).cursor) := by
  have hfield : (p.columnTrack f sheets before).field = f := Track.after_field ..
  rw [columnTrack, ← List.append_assoc, Track.after_append]
  show ((p.columnTrack f sheets before).act p.scan (.observe v)) = _
  rw [Track.act, hfield]

/-- What the slot of a column holds was offered to it on the sheet. -/
theorem exists_offer_column (hrole : p.role f = .column)
    (h : (p.columnTrack f sheets acts).slotAt (some c) ≠ .empty) :
    ∃ before v after, acts = before ++ .observe v :: after ∧ v.position.address.column = c ∧
      ((p.columnTrack f sheets before).slotAt (some c)).offer?
        (f.resolve p.scan v (p.columnTrack f sheets before).cursor).1 =
          some ((p.columnTrack f sheets acts).slotAt (some c)) := by
  have hconstant := isConstant_of_role (.inr hrole)
  have hstart := slotAt_after_sheets (p := p) hconstant sheets (some c)
  rw [hrole] at hstart
  rw [columnTrack, Track.after_append] at h
  obtain ⟨before, v, after, hacts, hk, hoffer⟩ :=
    Track.exists_offer (by rwa [Track.after_field]) hstart h
  refine ⟨before, v, after, hacts, (Track.role_of_intake hk).2, ?_⟩
  simp only [columnTrack, Track.after_append]
  rwa [Track.after_field] at hoffer

section List

variable (hp : p.IsLawful) (hf : f ∈ p.fields) (hl : f.plan = .list entries)
include hp hf hl

/-- What the list answers at a visit of the sheet. -/
theorem resolve_columnTrack {before after : List Act} {v : Visit}
    (h : p.OnSheet i name sheets (before ++ .observe v :: after)) :
    f.resolve p.scan v (p.columnTrack f sheets before).cursor =
      (p.scan.answer (lastUpTo entries.toList v.position)
          (f.isSpent (p.columnCursor f entries sheets before v)) v,
        p.columnCursor f entries sheets before v) :=
  Track.resolve_after hl ((hp.plans f hf).entries hl) .column h.inOrder_observe

/-- **Where the value of a column comes from.**  It is that of the entry last reached at some visit
of the column.  If the entry is not at the visited cell, the column had no value before, and the
entry was not used. -/
theorem exists_entry (hrole : p.role f = .column) (h : p.OnSheet i name sheets acts) {x : Value}
    (hx : ((p.columnTrack f sheets acts).slotAt (some c)).value? = some x) :
    ∃ before v after e, acts = before ++ .observe v :: after ∧ v.position.address.column = c ∧
      lastUpTo entries.toList v.position = some e ∧ e.position.rank = v.position.rank ∧
      e.value? p.scan = some x ∧
      (e.position = v.position ∨
        (p.columnTrack f sheets before).slotAt (some c) = .empty ∧
          f.isSpent (p.columnCursor f entries sheets before v) = false) := by
  have hne : (p.columnTrack f sheets acts).slotAt (some c) ≠ .empty := by
    intro hempty
    rw [hempty] at hx
    cases hx
  obtain ⟨before, v, after, rfl, hc, hoffer⟩ := exists_offer_column hrole hne
  rw [resolve_columnTrack hp hf hl h] at hoffer
  have hvalue := (Slot.value?_of_offer?_eq_some hoffer).1
  rw [hx] at hvalue
  obtain ⟨e, he, hrank, hvalue, hcases⟩ := Scan.exists_of_answer (h.value?_eq hp) hvalue.symm
  refine ⟨before, v, after, e, rfl, hc, he, hrank, hvalue, ?_⟩
  rcases hcases with hat | ⟨hspent, hnearby⟩
  · exact .inl hat
  · rw [hnearby] at hoffer
    exact .inr ⟨Slot.eq_empty_of_offer?_nearby hoffer, hspent⟩

/-- Unless the field is a metric, a column with an answer has a value. -/
theorem slotAt_ne_empty (hrole : p.role f = .column) (hmetric : f.isMetric = false)
    {before after : List Act} {u : Visit}
    (h : p.OnSheet i name sheets (before ++ .observe u :: after))
    (hanswered : p.scan.IsAnswered entries u) :
    (p.columnTrack f sheets (before ++ .observe u :: after)).slotAt
      (some u.position.address.column) ≠ .empty := by
  have hopen : .closeSheet ∉ after := by
    intro hmem
    exact h.isOpen (List.mem_append_right _ (List.mem_cons_of_mem _ hmem))
  have hfield : ∀ acts, (p.columnTrack f sheets acts).field = f := fun _ => Track.after_field ..
  have htrack : p.columnTrack f sheets (before ++ .observe u :: after) =
      (p.columnTrack f sheets (before ++ [.observe u])).after p.scan after := by
    rw [columnTrack, columnTrack, ← Track.after_append, List.append_assoc, List.append_assoc]
    rfl
  rw [htrack]
  refine Track.slotAt_after_ne_empty ?_ ?_ ?_ hopen
  · rw [hfield]
    exact isConstant_of_role (.inr hrole)
  · rw [hfield]
    exact hmetric
  · -- The answer is offered to the slot, which then is not empty.
    have hunspent : ∀ c, f.isSpent c = false := by
      intro c
      rw [PlannedField.isSpent, hmetric, Bool.false_and]
    have hintake : (p.columnTrack f sheets before).intake u.position.address.column =
        some (some u.position.address.column) := by
      rw [Track.intake, Track.after_role]
      rfl
    rw [columnTrack_append_observe, Track.slotAt_takeIn, if_pos hintake]
    intro hempty
    have hnone := (Slot.getD_offer?_eq_empty_iff.mp hempty).2
    rw [resolve_columnTrack hp hf hl h, hunspent] at hnone
    have hsome := hanswered.isSome
    rw [hnone] at hsome
    cases hsome

/-- **The first answer counts.**  Unless the field is a metric, no value comes to a column from an
entry to its right, if a cell of the column had an answer down to the row of the entry. -/
theorem column_le_of_answered (hrole : p.role f = .column) (hmetric : f.isMetric = false)
    {before after : List Act} {v : Visit}
    (h : p.OnSheet i name sheets (before ++ .observe v :: after)) {e : Entry}
    (he : lastUpTo entries.toList v.position = some e) (hrank : e.position.rank = v.position.rank)
    (hempty : (p.columnTrack f sheets before).slotAt (some v.position.address.column) = .empty)
    {u : Visit} (hu : u ∈ p.scan.sheetVisits i name)
    (hcolumn : u.position.address.column = v.position.address.column)
    (hrow : u.position.address.row ≤ e.position.address.row)
    (hanswered : p.scan.IsAnswered entries u) :
    e.position.address.column ≤ v.position.address.column := by
  by_contra hright
  -- What lies before a cell and to its right is in a row above.
  have hle : ¬ v.position < e.position := not_lt.mpr (mem_of_lastUpTo he).2
  rw [Position.lt_iff, Address.lt_iff, hrank] at hle
  simp only [lt_irrefl, true_and, false_or, not_or, not_and] at hle
  have habove : u.position.address.row < v.position.address.row := by omega
  have hurank : u.position.rank = v.position.rank :=
    (Scan.mem_sheetVisits_iff.mp hu).1.trans h.rank_eq.symm
  have hlt : u.position < v.position :=
    Position.lt_iff.mpr (.inr ⟨hurank, Address.lt_iff.mpr (.inl habove)⟩)
  -- So the cell with the answer was visited before, and the column is not empty.
  obtain ⟨b, b', rfl, -⟩ := h.exists_split hp hu hlt
  rw [← hcolumn] at hempty
  exact slotAt_ne_empty hp hf hl hrole hmetric h.of_append hanswered hempty

/-- Before the cell of its uppermost entry a column has no value of its own. -/
theorem slotAt_ne_exact (hrole : p.role f = .column) {before after : List Act} {u : Visit}
    (h : p.OnSheet i name sheets (before ++ .observe u :: after)) {e : Entry}
    (hfirst : p.scan.IsUppermost entries e) (hat : e.position = u.position) (x : Value) :
    (p.columnTrack f sheets before).slotAt (some u.position.address.column) ≠ .exact x := by
  intro hexact
  have hne : (p.columnTrack f sheets before).slotAt (some u.position.address.column) ≠ .empty := by
    rw [hexact]
    exact nofun
  obtain ⟨b, w, b', rfl, hcolumn, hoffer⟩ := exists_offer_column hrole hne
  have hw := h.of_append
  rw [hexact] at hoffer
  have hanswer := Slot.eq_exact_of_offer? hoffer
  rw [resolve_columnTrack hp hf hl hw] at hanswer
  -- The exact value is that of an entry of the column, which lies further up.
  obtain ⟨e', he', hat'⟩ : ∃ e' ∈ entries, e'.position = w.position := by
    cases hlast : lastUpTo entries.toList w.position with
    | none =>
      rw [hlast] at hanswer
      cases hanswer
    | some e' =>
      rw [hlast] at hanswer
      by_contra hno
      have hposition : e'.position ≠ w.position := fun hat' =>
        hno ⟨e', Array.mem_def.mpr (mem_of_lastUpTo hlast).1, hat'⟩
      exact Scan.answer_ne_exact hposition _ x hanswer
  have hrank : w.position.rank = u.position.rank := hw.rank_eq.trans h.rank_eq.symm
  have hcell : (p.scan.value? w.position).isSome = true := by
    rw [hw.value?_eq hp]
    rfl
  have hrow := hfirst.row_le e' he'
  rw [hat, hat'] at hrow
  have hrow := hrow hrank hcolumn hcell
  have hlt : w.position < u.position := by
    refine h.lt_of_mem hp ?_
    rw [Act.visits_append]
    exact List.mem_append_right _ (List.mem_cons_self ..)
  rw [Position.lt_iff, Address.lt_iff, hrank, hcolumn] at hlt
  simp only [lt_irrefl, and_false, or_false, true_and, false_or] at hlt
  omega

/-- The value of the uppermost entry of a column is used when the scan has visited its cell. -/
theorem used_at_uppermost (hrole : p.role f = .column) (hmetric : f.isMetric = true)
    {before after : List Act} {u : Visit}
    (h : p.OnSheet i name sheets (before ++ .observe u :: after)) {e : Entry} (he : e ∈ entries)
    (hfirst : p.scan.IsUppermost entries e) (hat : e.position = u.position) :
    (p.columnTrack f sheets (before ++ [.observe u])).cursor.used = true := by
  have hsorted := (hp.plans f hf).entries hl
  have hlast : lastUpTo entries.toList u.position = some e := by
    rw [← hat]
    exact lastUpTo_position hsorted (Array.mem_def.mp he)
  have htrack : (p.columnTrack f sheets before).role = .column ∧
      (p.columnTrack f sheets before).field.isMetric = true := by
    rw [Track.after_role, Track.after_field]
    exact ⟨rfl, hmetric⟩
  -- The slot takes the exact value, which thereby is used.
  rw [columnTrack_append_observe, Track.cursor_takeIn, resolve_columnTrack hp hf hl h, hlast,
    Scan.answer_of_eq hat, if_pos]
  · rfl
  · exact ⟨htrack.1, htrack.2,
      Slot.isSome_offer?_exact (slotAt_ne_exact hp hf hl hrole h hfirst hat) _⟩

/-- **A metric is used by its own column.**  No other column has the value of the uppermost entry of
a column. -/
theorem position_eq_of_metric (hrole : p.role f = .column) (hmetric : f.isMetric = true)
    {before after : List Act} {v : Visit}
    (h : p.OnSheet i name sheets (before ++ .observe v :: after)) {e : Entry}
    (he : lastUpTo entries.toList v.position = some e) (hrank : e.position.rank = v.position.rank)
    (hfirst : p.scan.IsUppermost entries e)
    (hunspent : f.isSpent (p.columnCursor f entries sheets before v) = false) :
    e.position = v.position := by
  have hsorted := (hp.plans f hf).entries hl
  obtain ⟨hmem, hle⟩ := mem_of_lastUpTo he
  by_contra hne
  -- The cell of the entry has been visited,
  obtain ⟨z, hz⟩ := Option.isSome_iff_exists.mp hfirst.isSome
  have hu : ⟨e.position, z⟩ ∈ p.scan.sheetVisits i name := by
    refine Scan.mem_sheetVisits_iff.mpr ⟨hrank.trans h.rank_eq, ?_⟩
    rw [Scan.value?, SheetOrder.name?, hrank, h.rank_eq, Rank.index?, Option.bind_some,
      h.name_eq] at hz
    exact (hp.grid.value?_eq_some_iff ..).mp hz
  obtain ⟨b, b', rfl, hbetween⟩ := h.exists_split hp hu (lt_of_le_of_ne hle hne)
  -- and its value was used then.
  have hused := used_at_uppermost hp hf hl hrole hmetric h.of_append (Array.mem_def.mpr hmem)
    hfirst rfl
  have hlast : ∀ w ∈ Act.visits b', lastUpTo entries.toList w.position = some e := by
    intro w hw
    obtain ⟨huw, hwv⟩ := hbetween w hw
    rw [← he]
    exact lastUpTo_congr hsorted (reached_eq_of_lastUpTo hsorted he huw.le hwv.le).symm
  have hsplit : p.actsOfSheets sheets ++ (b ++ .observe ⟨e.position, z⟩ :: b') =
      p.actsOfSheets sheets ++ (b ++ [.observe ⟨e.position, z⟩]) ++ b' := by
    simp
  have hstands : e.position ∈
      Act.standsAt (p.actsOfSheets sheets ++ (b ++ [.observe ⟨e.position, z⟩])) := by
    rw [← List.append_assoc, Act.standsAt_append_observe]
    rfl
  have hstep := h.inOrder_observe
  have horder := h.of_append.inOrder
  rw [hsplit] at horder hstep
  obtain ⟨hused, q, hq, heq⟩ :=
    Track.used_after hl hsorted .column horder hstands le_rfl hused hlast
  rw [columnCursor, columnTrack, hsplit, hq] at hunspent
  have hqv := hstep.lt_of_standsAt rfl q hq
  rw [Cursor.advance_of_lastUpTo hsorted he heq hqv.le, PlannedField.isSpent, hmetric,
    hused] at hunspent
  cases hunspent

end List

/-! ### Records -/

theorem visits_flatMap_rowActs (rows : List (Nat × List Visit)) :
    Act.visits (rows.flatMap (p.rowActs name)) = rows.flatMap (·.2) := by
  rw [Act.visits, List.filterMap_flatMap]
  exact List.flatMap_congr fun row _ => p.visits_rowActs name row

theorem closeSheet_not_mem_rows (rows : List (Nat × List Visit)) :
    .closeSheet ∉ rows.flatMap (p.rowActs name) := by
  simp [rowActs, rowEmissions]

/-- A record with a column belongs to a scanned sheet. -/
theorem exists_name_of_column (hp : p.IsLawful) {o : Origin} (ho : o ∈ p.origins)
    (hc : o.column = some c) :
    ∃ (i : Nat) (name : String), p.scan.order.names[i]? = some name ∧ o.sheet = some name := by
  refine exists_name_of_ne hp ho ?_
  rintro rfl
  cases hc

theorem value?_columnTrack (ofRow : Bool) :
    (p.columnTrack f sheets acts).value? ofRow (some c) =
      ((p.columnTrack f sheets acts).slotAt (some c)).value? := by
  rw [Track.value?_eq_slotAt, Track.outlet, Track.after_role]
  rfl

/-- Down to a row, the cells of the rows lie in it or above. -/
theorem IsLawful.row_le (hp : p.IsLawful) {above below : List (Nat × List Visit)} {r : Nat}
    {row : List Visit} (hrows : rowsOf (p.scan.sheetVisits i name) = above ++ (r, row) :: below)
    {v : Visit} (hv : v ∈ above.flatMap (·.2) ++ row) : v.position.address.row ≤ r := by
  have hrow : ∀ y ys, (y, ys) ∈ above ++ (r, row) :: below →
      ∀ v ∈ ys, v.position.address.row = y := by
    rw [← hrows]
    exact fun y ys hys => (of_mem_rowsOf hys).2
  have hsorted := hp.rowsOf_sorted i name
  rw [hrows, List.pairwise_append] at hsorted
  rw [List.mem_append, List.mem_flatMap] at hv
  rcases hv with ⟨⟨y, ys⟩, hys, hv⟩ | hv
  · have hlt : y < r := hsorted.2.2 _ hys _ (List.mem_cons_self ..)
    rw [hrow y ys (List.mem_append_left _ hys) v hv]
    exact hlt.le
  · exact (hrow r row (List.mem_append_right _ (List.mem_cons_self ..)) v hv).le

section Given

variable (hp : p.IsLawful)
include hp

/-- The record of a whole column comes after all cells of its sheet. -/
theorem exists_onSheet_of_mem_given_column
    (hname : p.scan.order.names[i]? = some name) {x : Option Value}
    (h : (⟨some name, none, some c⟩, x) ∈ (Track.start f .column).given p.scan p.schedule) :
    ∃ sheets acts, p.OnSheet i name sheets acts ∧
      x = ((p.columnTrack f sheets acts).slotAt (some c)).value? := by
  obtain ⟨sheets, before, after, -, horder, hx⟩ := exists_sheet_of_mem_given hp hname h
  have hacts : p.actsBeforeColumn sheets name (p.scan.sheetVisits i name) before =
      p.actsOfSheets sheets ++ ((rowsOf (p.scan.sheetVisits i name)).flatMap (p.rowActs name) ++
        before.map fun column => .emit false column ⟨some name, none, column⟩) := by
    rw [actsBeforeColumn, List.append_assoc]
    rfl
  rw [hacts] at horder hx
  refine ⟨sheets, _, ⟨hname, horder, ?_, ?_⟩, hx.trans (value?_columnTrack _)⟩
  · rw [Act.visits_append, visits_flatMap_rowActs, visits_map_emit, List.append_nil,
      flatMap_rowsOf]
  · rw [List.mem_append, not_or]
    exact ⟨closeSheet_not_mem_rows _, by simp⟩

/-- The record of a cell comes after those of its row and of the rows above. -/
theorem exists_onSheet_of_mem_given_row
    (hname : p.scan.order.names[i]? = some name) {r : Nat} {x : Option Value}
    (h : (⟨some name, some r, some c⟩, x) ∈ (Track.start f .column).given p.scan p.schedule) :
    ∃ sheets acts, p.OnSheet i name sheets acts ∧
      (∀ v ∈ Act.visits acts, v.position.address.row ≤ r) ∧
      x = ((p.columnTrack f sheets acts).slotAt (some c)).value? := by
  obtain ⟨sheets, above, row, below, before, after, hrows, -, horder, hx⟩ :=
    exists_row_of_mem_given hp hname h
  have hacts : p.actsBefore sheets name above (r, row) before =
      p.actsOfSheets sheets ++ (above.flatMap (p.rowActs name) ++ row.map .observe ++
        before.map fun column => .emit true column ⟨some name, some r, column⟩) := by
    rw [actsBefore, List.append_assoc, List.append_assoc, List.append_assoc]
    rfl
  have hvisits : Act.visits (above.flatMap (p.rowActs name) ++ row.map .observe ++
      before.map fun column => .emit true column ⟨some name, some r, column⟩) =
        above.flatMap (·.2) ++ row := by
    rw [Act.visits_append, Act.visits_append, visits_flatMap_rowActs, visits_map_observe,
      visits_map_emit, List.append_nil]
  rw [hacts] at horder hx
  refine ⟨sheets, _, ⟨hname, horder, ?_, ?_⟩, ?_, hx.trans (value?_columnTrack _)⟩
  · -- The rows above and the row of the record are the first rows of the sheet.
    rw [hvisits, ← flatMap_rowsOf (p.scan.sheetVisits i name), hrows, List.flatMap_append,
      List.flatMap_cons, ← List.append_assoc]
    exact List.prefix_append _ _
  · rw [List.mem_append, List.mem_append, not_or, not_or]
    exact ⟨⟨closeSheet_not_mem_rows _, by simp⟩, by simp⟩
  · intro v hv
    rw [hvisits] at hv
    exact hp.row_le hrows hv

/-- A record of a column comes after some acts on its sheet, with the value that the slot of the
column holds then.  The record of a row comes before the cells of the rows below. -/
theorem exists_onSheet_of_mem_given (hrole : p.role f = .column)
    (hname : p.scan.order.names[i]? = some name) {row : Option Nat} {x : Option Value}
    (h : (⟨some name, row, some c⟩, x) ∈ (Track.start f (p.role f)).given p.scan p.schedule) :
    ∃ sheets acts, p.OnSheet i name sheets acts ∧
      (∀ r ∈ row, ∀ v ∈ Act.visits acts, v.position.address.row ≤ r) ∧
      x = ((p.columnTrack f sheets acts).slotAt (some c)).value? := by
  rw [hrole] at h
  cases row with
  | none =>
    obtain ⟨sheets, acts, hacts, hx⟩ := exists_onSheet_of_mem_given_column hp hname h
    exact ⟨sheets, acts, hacts, nofun, hx⟩
  | some r =>
    obtain ⟨sheets, acts, hacts, hrow, hx⟩ := exists_onSheet_of_mem_given_row hp hname h
    refine ⟨sheets, acts, hacts, ?_, hx⟩
    intro r' hr'
    obtain rfl : r = r' := Option.some.inj hr'
    exact hrow

end Given

end Prepared

/-- **Nearby values.**  A field goes with columns and follows a list whose entries have different
values.  If a record of a column has the value of an entry, the entry is on the sheet of the record,
and it is the one last reached at some cell of the column, which is not below the record.

The entry does not lie to the right of the column if the field is no metric and a cell of the column
had an answer, down to the row of the entry.  It lies in the column itself if the field is a metric
and the entry is the uppermost one of its own column whose cell holds a value. -/
theorem Schema.get?_nearby {schema : Schema} {w : Workbook} {e : Extraction}
    (h : schema.extract w = .ok e) :
    ∃ p, schema.prepare w = .ok p ∧
      ∀ f ∈ p.fields, ∀ entries, p.role f = .column → f.plan = .list entries →
        p.scan.TellsApart entries →
        ∀ record ∈ e.records, ∀ c, record.origin.column = some c →
          ∀ entry ∈ entries, ∀ x, record.get? f.name = some x → entry.value? p.scan = some x →
            ∃ i name, p.scan.order.names[i]? = some name ∧ record.origin.sheet = some name ∧
              entry.position.rank = .sheet i ∧
              (∃ v ∈ p.scan.sheetVisits i name, v.position.address.column = c ∧
                (∀ r ∈ record.origin.row, v.position.address.row ≤ r) ∧
                lastUpTo entries.toList v.position = some entry) ∧
              (f.isMetric = false →
                (∃ u ∈ p.scan.sheetVisits i name, u.position.address.column = c ∧
                  u.position.address.row ≤ entry.position.address.row ∧
                  p.scan.IsAnswered entries u) →
                entry.position.address.column ≤ c) ∧
              (f.isMetric = true → p.scan.IsUppermost entries entry →
                entry.position.address.column = c) := by
  obtain ⟨p, hprepare, hp, hprefix⟩ := Schema.isPrefix_recordsOf w.isLawful_grid h
  refine ⟨p, hprepare, ?_⟩
  intro f hf entries hrole hplan hdistinct record hrecord c hcolumn entry hentry x hx hvalue
  have hmem := hprefix.subset hrecord
  have horigin : record.origin ∈ p.origins := by
    rw [← Prepared.filterMap_origin?_schedule hp, ← origin_recordsOf p.scan p.names p.tracks]
    exact List.mem_map.mpr ⟨record, hmem, rfl⟩
  obtain ⟨i, name, hname, hsheet⟩ := Prepared.exists_name_of_column hp horigin hcolumn
  have hgiven := Prepared.mem_given_of_mem_recordsOf hp hf hmem
  have hparts : record.origin = ⟨some name, record.origin.row, some c⟩ := by
    rw [← hsheet, ← hcolumn]
  rw [hparts] at hgiven
  obtain ⟨sheets, acts, hacts, hrow, hslot⟩ :=
    Prepared.exists_onSheet_of_mem_given hp hrole hname hgiven
  rw [hx] at hslot
  obtain ⟨before, v, after, y, rfl, rfl, hlast, hrank, hy, hcases⟩ :=
    Prepared.exists_entry hp hf hplan hrole hacts hslot.symm
  -- The entry with the value of the record is the one that gave it.
  obtain rfl : entry = y :=
    hdistinct entry hentry y (Array.mem_def.mpr (mem_of_lastUpTo hlast).1) x hvalue hy
  refine ⟨i, name, hname, hsheet, hrank.trans hacts.rank_eq,
    ⟨v, hacts.mem_sheetVisits, rfl, ?_, hlast⟩, ?_, ?_⟩
  · intro r hr
    refine hrow r hr v ?_
    rw [Act.visits_append]
    exact List.mem_append_right _ (List.mem_cons_self ..)
  · rintro hmetric ⟨u, hu, hucolumn, hurow, hanswered⟩
    rcases hcases with hat | ⟨hempty, -⟩
    · rw [hat]
    · exact Prepared.column_le_of_answered hp hf hplan hrole hmetric hacts hlast hrank hempty hu
        hucolumn hurow hanswered
  · intro hmetric hfirst
    have hat : entry.position = v.position := by
      rcases hcases with hat | ⟨-, hunspent⟩
      · exact hat
      · exact Prepared.position_eq_of_metric hp hf hplan hrole hmetric hacts hlast hrank
          hfirst hunspent
    rw [hat]

/-- A table with two headings: one for two columns, and one for a third.  The middle one has a cell
below the headings. -/
def headingTable : Workbook :=
  ⟨[⟨"Headings", (((Store.empty.set ⟨0, 0⟩ (.boolean true)).set ⟨0, 1⟩ (.boolean true)).set ⟨0, 2⟩
    (.boolean false)).set ⟨1, 1⟩ (.boolean false)⟩]⟩

/-- Two fields of the headings, one of them a metric, and a field along the second row. -/
def headingSchema : Schema :=
  ⟨[{ Field.named "label" with cells := [⟨none, ⟨0, 0⟩⟩, ⟨none, ⟨0, 2⟩⟩] },
    { Field.named "total" with cells := [⟨none, ⟨0, 0⟩⟩, ⟨none, ⟨0, 2⟩⟩], type := .number },
    { Field.named "body" with row := some 1 }], .default⟩

/-- The headings as entries of a list. -/
def headingEntries : Array Entry :=
  #[⟨⟨.sheet 0, ⟨0, 0⟩⟩, none⟩, ⟨⟨.sheet 0, ⟨0, 2⟩⟩, none⟩]

theorem eq_of_mem_headingEntries {e : Entry} (h : e ∈ headingEntries) :
    e = ⟨⟨.sheet 0, ⟨0, 0⟩⟩, none⟩ ∨ e = ⟨⟨.sheet 0, ⟨0, 2⟩⟩, none⟩ := by
  simpa [headingEntries] using h

/-- The schema made ready for the table. -/
def headingPrepared : Prepared :=
  ⟨⟨headingTable, .ofNames ["Headings"]⟩,
    [⟨"label", false, none, .list headingEntries⟩, ⟨"total", true, none, .list headingEntries⟩,
      ⟨"body", false, none, .rowScan none 1⟩]⟩

/-- A record of the table: it has a label in any case. -/
def headingRecord (column : Nat) (label : Bool) (total body : Option Value) : Record :=
  ⟨["label", "total", "body"], [some (.boolean label), total, body],
    ⟨some "Headings", none, some column⟩⟩

theorem records_headingTable : (Extraction.start headingPrepared none).records =
    [headingRecord 0 true (some (.boolean true)) none,
      headingRecord 1 true none (some (.boolean false)),
      headingRecord 2 false (some (.boolean false)) none] := by
  cbv

/-- The middle column has the label of the first heading, which lies to its left.  The total of the
second heading is that of its own column. -/
theorem Schema.get?_nearby_headingTable :
    headingSchema.extract headingTable = .ok (.start headingPrepared none) ∧
      (Extraction.start headingPrepared none).records =
        [headingRecord 0 true (some (.boolean true)) none,
          headingRecord 1 true none (some (.boolean false)),
          headingRecord 2 false (some (.boolean false)) none] ∧
      (∀ entry ∈ headingEntries, entry.value? headingPrepared.scan = some (.boolean true) →
        entry.position.address.column ≤ 1) ∧
      ∀ entry ∈ headingEntries, entry.value? headingPrepared.scan = some (.boolean false) →
        entry.position.address.column = 2 := by
  have hextract : headingSchema.extract headingTable = .ok (.start headingPrepared none) := by
    cbv
  obtain ⟨p, hprepare, hfields⟩ := Schema.get?_nearby hextract
  have hprepare' : headingSchema.prepare headingTable = .ok headingPrepared := by
    cbv
  obtain rfl : headingPrepared = p := Except.ok.inj (hprepare'.symm.trans hprepare)
  have hdistinct : headingPrepared.scan.TellsApart headingEntries := by
    intro a ha b hb x hx hy
    have hab : a.value? headingPrepared.scan = b.value? headingPrepared.scan := hx.trans hy.symm
    rcases eq_of_mem_headingEntries ha with rfl | rfl
    · rcases eq_of_mem_headingEntries hb with rfl | rfl
      · rfl
      · cases hab
    · rcases eq_of_mem_headingEntries hb with rfl | rfl
      · cases hab
      · rfl
  refine ⟨hextract, records_headingTable, ?_, ?_⟩
  · intro entry hentry hvalue
    have hrecord : headingRecord 1 true none (some (.boolean false)) ∈
        (Extraction.start headingPrepared none).records := by
      rw [records_headingTable]
      simp
    obtain ⟨i, name, hname, hsheet, -, -, hlabel, -⟩ :=
      hfields ⟨"label", false, none, .list headingEntries⟩ (List.mem_cons_self ..) headingEntries
        rfl rfl hdistinct _ hrecord 1 rfl entry hentry _ rfl hvalue
    obtain rfl : "Headings" = name := Option.some.inj hsheet
    obtain rfl : i = 0 := headingPrepared.scan.order.index_unique hname rfl
    -- The cell of the column beside the first heading has its answer.
    refine hlabel rfl ⟨⟨⟨.sheet 0, ⟨0, 1⟩⟩, .boolean true⟩, ?_, rfl, Nat.zero_le _, ?_⟩
    · exact Scan.mem_sheetVisits_iff.mpr ⟨rfl, List.mem_cons_of_mem _ (List.mem_cons_self ..)⟩
    · exact ⟨⟨⟨.sheet 0, ⟨0, 0⟩⟩, none⟩, rfl, rfl, rfl⟩
  · intro entry hentry hvalue
    have hrecord : headingRecord 2 false (some (.boolean false)) none ∈
        (Extraction.start headingPrepared none).records := by
      rw [records_headingTable]
      simp
    obtain ⟨-, -, -, -, -, -, -, htotal⟩ :=
      hfields ⟨"total", true, none, .list headingEntries⟩
        (List.mem_cons_of_mem _ (List.mem_cons_self ..)) headingEntries rfl rfl hdistinct _ hrecord
        2 rfl entry hentry _ rfl hvalue
    refine htotal rfl ⟨?_, fun e' he' hrank hcolumn hcell => ?_⟩
    · rcases eq_of_mem_headingEntries hentry with rfl | rfl <;> rfl
    · rcases eq_of_mem_headingEntries hentry with rfl | rfl <;> exact Nat.zero_le _

/-- A table whose first column is to the left of both headings, and has a cell below them. -/
def indentedTable : Workbook :=
  ⟨[⟨"Table", ((Store.empty.set ⟨0, 2⟩ (.boolean true)).set ⟨0, 3⟩ (.boolean false)).set ⟨1, 1⟩
    (.boolean true)⟩]⟩

/-- A field of the headings, and one along the second row. -/
def indentedSchema : Schema :=
  ⟨[{ Field.named "f" with cells := [⟨none, ⟨0, 2⟩⟩, ⟨none, ⟨0, 3⟩⟩] },
    { Field.named "amount" with row := some 1 }], .default⟩

/-- The second heading. -/
def lastHeading : Entry :=
  ⟨⟨.sheet 0, ⟨0, 3⟩⟩, none⟩

/-- The field of the headings, made ready. -/
def indentedField : PlannedField :=
  ⟨"f", false, none, .list #[⟨⟨.sheet 0, ⟨0, 2⟩⟩, none⟩, lastHeading]⟩

/-- The schema made ready for the table. -/
def indentedPrepared : Prepared :=
  ⟨⟨indentedTable, .ofNames ["Table"]⟩, [indentedField, ⟨"amount", false, none, .rowScan none 1⟩]⟩

/-- A record of the table. -/
def indentedRecord (column : Nat) (f amount : Option Value) : Record :=
  ⟨["f", "amount"], [f, amount], ⟨some "Table", none, some column⟩⟩

/-- **A value comes from the right.**  The headings have different values, and that of the second
one goes to a column two to its left. -/
theorem Schema.get?_from_right :
    indentedSchema.extract indentedTable = .ok (.start indentedPrepared none) ∧
      (Extraction.start indentedPrepared none).records =
        [indentedRecord 1 (some (.boolean false)) (some (.boolean true)),
          indentedRecord 2 (some (.boolean true)) none,
          indentedRecord 3 (some (.boolean false)) none] ∧
      indentedPrepared.role indentedField = .column ∧
      indentedPrepared.scan.value? ⟨.sheet 0, ⟨0, 2⟩⟩ = some (.boolean true) ∧
      lastHeading.value? indentedPrepared.scan = some (.boolean false) ∧
      ∃ record ∈ (Extraction.start indentedPrepared none).records, ∃ c,
        record.origin.column = some c ∧
          record.get? "f" = lastHeading.value? indentedPrepared.scan ∧
          ¬ lastHeading.position.address.column ≤ c := by
  have hrecords : (Extraction.start indentedPrepared none).records =
      [indentedRecord 1 (some (.boolean false)) (some (.boolean true)),
        indentedRecord 2 (some (.boolean true)) none,
        indentedRecord 3 (some (.boolean false)) none] := by
    cbv
  refine ⟨by cbv, hrecords, rfl, rfl, rfl, ?_⟩
  rw [hrecords]
  exact ⟨_, List.mem_cons_self .., 1, rfl, rfl, by decide⟩

end SheetRecords
