import SheetRecords.Proofs.Record.Slots

/-!
# Tracks that agree

Two tracks may have come by different ways and still give the same values from some point on.  What
counts is what their slots hold, and whether the current entry of a list is used, if it lies on a
sheet of interest (`Track.Agree`).  Every act keeps the agreement (`Track.Agree.act`), and so tracks
that agree give the same values to all records to come (`Track.Agree.given_eq`).
-/

namespace SheetRecords

open Cell

/-- Fields that answer alike wherever a scan comes: they are addressed alike, or by lists with the
same entries on all sheets that are scanned. -/
structure PlannedField.Like (f f' : PlannedField) : Prop where
  isMetric : f'.isMetric = f.isMetric
  list : ∀ entries, f.plan = .list entries → ∃ entries', f'.plan = .list entries' ∧
    ∀ p : Position, p.rank.isReachable = true →
      lastUpTo entries'.toList p = lastUpTo entries.toList p ∧
        reached entries'.toList p = reached entries.toList p
  other : (∀ entries, f.plan ≠ .list entries) → f'.plan = f.plan

theorem PlannedField.Like.refl (f : PlannedField) : f.Like f where
  isMetric := rfl
  list entries hl := ⟨entries, hl, fun _ _ => ⟨rfl, rfl⟩⟩
  other _ := rfl

/-- Scans in which some of the sheets have the same cells. -/
def Scan.SameOn (sheets : Rank → Prop) (s s' : Scan) : Prop :=
  ∀ p : Position, sheets p.rank → s'.value? p = s.value? p

/-- Two tracks of like fields, in scans that stand at `last` and `last'`, agree on some sheets: their
slots hold the same, and the current entry of a list is used in both or in neither if it lies on one
of the sheets.  The scans stand at the same cell, or are both still before these sheets. -/
structure Track.Agree (sheets : Rank → Prop) (last last' : Option Position) (t t' : Track) :
    Prop where
  field : t.field.Like t'.field
  role : t'.role = t.role
  slots : ∀ k, t'.slotAt k = t.slotAt k
  stands : last' = last ∨ (∀ q ∈ last, ∀ r, sheets r → q.rank < r) ∧
    ∀ q ∈ last', ∀ r, sheets r → q.rank < r
  used : ∀ entries, t.field.plan = .list entries → ∀ q ∈ last, ∀ e ∈ lastUpTo entries.toList q,
    sheets e.position.rank → t'.cursor.used = t.cursor.used

namespace Track.Agree

variable {s s' : Scan} {sheets : Rank → Prop} {last last' : Option Position} {t t' : Track}

theorem start (field : PlannedField) {field' : PlannedField} (h : field.Like field')
    (role : Role) : (Track.start field role).Agree sheets none none (Track.start field' role) where
  field := h
  role := rfl
  slots _ := by rw [slotAt_start, slotAt_start]
  stands := .inl rfl
  used _ _ _ hq := by cases hq

theorem intake (h : t.Agree sheets last last' t') (column : Nat) :
    t'.intake column = t.intake column := by
  unfold Track.intake
  rw [h.role]

theorem outlet (h : t.Agree sheets last last' t') (ofRow : Bool) (column : Option Nat) :
    t'.outlet ofRow column = t.outlet ofRow column := by
  unfold Track.outlet
  rw [h.role]

/-- They give the same values to records. -/
theorem value? (h : t.Agree sheets last last' t') (ofRow : Bool) (column : Option Nat) :
    t'.value? ofRow column = t.value? ofRow column := by
  simp only [value?_eq_slotAt, h.outlet, h.slots]

theorem emit (h : t.Agree sheets last last' t') (ofRow : Bool) (column : Option Nat) :
    (t.emit ofRow column).2.Agree sheets last last' (t'.emit ofRow column).2 := by
  refine ⟨?_, ?_, ?_, h.stands, ?_⟩
  · rw [emit_field, emit_field]
    exact h.field
  · rw [emit_role, emit_role, h.role]
  · intro k
    rw [slotAt_emit, slotAt_emit, h.field.isMetric, h.outlet, h.slots]
  · intro entries hl q hq e he hsheet
    rw [emit_field] at hl
    rw [cursor_emit, cursor_emit, h.value?]
    split_ifs
    · rfl
    · exact h.used entries hl q hq e he hsheet

theorem closeRow (h : t.Agree sheets last last' t') :
    t.closeRow.Agree sheets last last' t'.closeRow := by
  refine ⟨?_, ?_, ?_, h.stands, ?_⟩
  · rw [closeRow_field, closeRow_field]
    exact h.field
  · rw [closeRow_role, closeRow_role, h.role]
  · intro k
    rw [slotAt_closeRow, slotAt_closeRow, h.role, h.slots]
  · intro entries hl q hq e he hsheet
    rw [closeRow_field] at hl
    rw [closeRow_cursor, closeRow_cursor]
    exact h.used entries hl q hq e he hsheet

theorem closeSheet (h : t.Agree sheets last last' t') :
    t.closeSheet.Agree sheets last last' t'.closeSheet := by
  refine ⟨h.field, h.role, ?_, h.stands, h.used⟩
  intro k
  have hslot : t'.slot = t.slot := h.slots none
  rw [slotAt_closeSheet, slotAt_closeSheet, hslot]

/-- What a visit needs of the two scans. -/
structure Visited (sheets : Rank → Prop) (s s' : Scan) (last last' : Option Position) (v : Visit) :
    Prop where
  sheet : sheets v.position.rank
  reachable : v.position.rank.isReachable = true
  lt : ∀ q ∈ last, q < v.position
  lt' : ∀ q ∈ last', q < v.position
  agrees : s.Agrees v
  agrees' : s'.Agrees v

/-- Once the scans have come to an entry on one of the sheets, it is used in both or in neither. -/
theorem used_advance (h : t.Agree sheets last last' t') {entries entries' : Array Entry}
    (hl : t.field.plan = .list entries) (hsorted : EntriesSorted entries.toList)
    (hsorted' : EntriesSorted entries'.toList)
    (hsame : ∀ p : Position, p.rank.isReachable = true →
      lastUpTo entries'.toList p = lastUpTo entries.toList p ∧
        reached entries'.toList p = reached entries.toList p)
    {v : Visit} (hv : Visited sheets s s' last last' v) {e : Entry}
    (he : lastUpTo entries.toList v.position = some e) (hsheet : sheets e.position.rank) :
    (t'.cursor.advance entries'.toList last' v.position).used =
      (t.cursor.advance entries.toList last v.position).used := by
  obtain ⟨hlast, hreached⟩ := hsame v.position hv.reachable
  rcases h.stands with rfl | ⟨hbefore, hbefore'⟩
  · have hreachedBy : reachedBy entries'.toList last' = reachedBy entries.toList last' := by
      cases last' with
      | none => rfl
      | some q => exact (hsame q (Position.isReachable_of_le (hv.lt q rfl).le hv.reachable)).2
    unfold Cursor.advance
    rw [hreached, hreachedBy]
    split_ifs with heq
    · -- The entry was the current one before.
      cases last' with
      | none =>
        have hnone := lastUpTo_eq_none_iff.mpr heq
        rw [he] at hnone
        cases hnone
      | some q =>
        rw [lastUpTo_congr hsorted heq] at he
        exact h.used entries hl q rfl e he hsheet
    · rfl
  · -- Neither scan has come to the sheet of the entry before.
    have hlt : ∀ q : Position, (∀ r, sheets r → q.rank < r) → q < e.position := fun q hq =>
      Position.lt_iff.mpr (.inl (hq _ hsheet))
    rw [Cursor.used_advance_of_new he hsorted fun q hq => hlt q (hbefore q hq),
      Cursor.used_advance_of_new (hlast.trans he) hsorted' fun q hq => hlt q (hbefore' q hq)]

/-- They contribute the same at the cells of the sheets. -/
theorem resolve (h : t.Agree sheets last last' t') (ht : t.Follows last) (ht' : t'.Follows last')
    (hplan : t.field.plan.IsSorted) (hplan' : t'.field.plan.IsSorted)
    (hconstant : t.field.plan.isConstant = false) (hsame : Scan.SameOn sheets s s') {v : Visit}
    (hv : Visited sheets s s' last last' v) :
    (t'.field.resolve s' v t'.cursor).1 = (t.field.resolve s v t.cursor).1 := by
  cases hp : t.field.plan with
  | constant source =>
    rw [hp] at hconstant
    cases hconstant
  | columnScan sheet column firstRow =>
    have hp' := (h.field.other (by simp [hp])).trans hp
    rw [PlannedField.resolve_columnScan hp, PlannedField.resolve_columnScan hp']
    split_ifs <;> rfl
  | rowScan sheet row =>
    have hp' := (h.field.other (by simp [hp])).trans hp
    rw [PlannedField.resolve_rowScan hp, PlannedField.resolve_rowScan hp']
    split_ifs <;> rfl
  | void =>
    have hp' := (h.field.other (by simp [hp])).trans hp
    simp only [PlannedField.resolve, hp, hp']
  | list entries =>
    obtain ⟨entries', hp', hentries⟩ := h.field.list entries hp
    rw [hp] at hplan
    rw [hp'] at hplan'
    rw [PlannedField.resolve_list hp, PlannedField.resolve_list hp',
      resolveList_eq_answer hplan' (ht'.cursor entries' hp') hv.lt' hv.agrees',
      resolveList_eq_answer hplan (ht.cursor entries hp) hv.lt hv.agrees,
      (hentries _ hv.reachable).1]
    refine Scan.answer_congr fun e he hrank => ?_
    have hsheet : sheets e.position.rank := hrank ▸ hv.sheet
    constructor
    · unfold PlannedField.isSpent
      rw [h.used_advance hp hplan hplan' hentries hv he hsheet, h.field.isMetric]
    · unfold Entry.value?
      rw [hsame _ hsheet]

/-- A visit keeps the agreement. -/
theorem observe (h : t.Agree sheets last last' t') (ht : t.Follows last) (ht' : t'.Follows last')
    (hplan : t.field.plan.IsSorted) (hplan' : t'.field.plan.IsSorted)
    (hconstant : t.field.plan.isConstant = false) (hsame : Scan.SameOn sheets s s') {v : Visit}
    (hv : Visited sheets s s' last last' v) :
    (t.act s (.observe v)).Agree sheets (some v.position) (some v.position)
      (t'.act s' (.observe v)) := by
  have hresolve := h.resolve ht ht' hplan hplan' hconstant hsame hv
  refine ⟨?_, ?_, ?_, .inl rfl, ?_⟩
  · rw [act_field, act_field]
    exact h.field
  · rw [act_role, act_role, h.role]
  · intro k
    rw [Track.act, Track.act, slotAt_takeIn, slotAt_takeIn, hresolve, h.intake, h.slots]
  · intro entries hl q hq e he hsheet
    rw [act_field] at hl
    obtain rfl := Option.some.inj hq
    obtain ⟨entries', hl', hentries⟩ := h.field.list entries hl
    rw [hl] at hplan
    rw [hl'] at hplan'
    have hnext : (t.field.resolve s v t.cursor).2 =
        t.cursor.advance entries.toList last v.position := by
      rw [PlannedField.resolve_list hl,
        resolveList_eq_answer hplan (ht.cursor entries hl) hv.lt hv.agrees]
    have hnext' : (t'.field.resolve s' v t'.cursor).2 =
        t'.cursor.advance entries'.toList last' v.position := by
      rw [PlannedField.resolve_list hl',
        resolveList_eq_answer hplan' (ht'.cursor entries' hl') hv.lt' hv.agrees']
    have hused := h.used_advance hl hplan hplan' hentries hv he hsheet
    rw [Track.act, Track.act, cursor_takeIn, cursor_takeIn, hresolve, hnext, hnext', h.role,
      h.field.isMetric, h.slots]
    split_ifs
    · rfl
    · exact hused

/-- Like fields are constants both or neither. -/
theorem isConstant_eq_false (h : t.Agree sheets last last' t')
    (hconstant : t.field.plan.isConstant = false) : t'.field.plan.isConstant = false := by
  by_cases hlist : ∃ entries, t.field.plan = .list entries
  · obtain ⟨entries, hl⟩ := hlist
    obtain ⟨entries', hl', -⟩ := h.field.list entries hl
    rw [hl']
    rfl
  · rw [h.field.other (not_exists.mp hlist)]
    exact hconstant

/-- **One act.**  Every act keeps the agreement. -/
theorem act {acts acts' : List Act}
    (h : t.Agree sheets (Act.standsAt acts) (Act.standsAt acts') t')
    (ht : t.Follows (Act.standsAt acts)) (ht' : t'.Follows (Act.standsAt acts'))
    (hplan : t.field.plan.IsSorted) (hplan' : t'.field.plan.IsSorted)
    (hconstant : t.field.plan.isConstant = false) (hsame : Scan.SameOn sheets s s') (act : Act)
    (hvisited : ∀ v, act.visit? = some v →
      Visited sheets s s' (Act.standsAt acts) (Act.standsAt acts') v) :
    (t.act s act).Agree sheets (Act.standsAt (acts ++ [act])) (Act.standsAt (acts' ++ [act]))
      (t'.act s' act) := by
  cases act with
  | observe v =>
    rw [Act.standsAt_append_observe, Act.standsAt_append_observe]
    exact h.observe ht ht' hplan hplan' hconstant hsame (hvisited v rfl)
  | emit ofRow column origin =>
    rw [Act.standsAt_append_of_visit?_eq_none _ rfl, Act.standsAt_append_of_visit?_eq_none _ rfl]
    exact h.emit ofRow column
  | closeRow =>
    rw [Act.standsAt_append_of_visit?_eq_none _ rfl, Act.standsAt_append_of_visit?_eq_none _ rfl]
    exact h.closeRow
  | closeSheet =>
    rw [Act.standsAt_append_of_visit?_eq_none _ rfl, Act.standsAt_append_of_visit?_eq_none _ rfl]
    exact h.closeSheet
  | readConstants =>
    rw [Act.standsAt_append_of_visit?_eq_none _ rfl, Act.standsAt_append_of_visit?_eq_none _ rfl,
      act_readConstants hconstant, act_readConstants (h.isConstant_eq_false hconstant)]
    exact h

/-- **Whole runs.**  Tracks that agree give the same values to all records that are put together on
the sheets. -/
theorem given_eq {field field' : PlannedField} {role role' : Role} (hplan : field.plan.IsSorted)
    (hplan' : field'.plan.IsSorted) (hconstant : field.plan.isConstant = false)
    (hsame : Scan.SameOn sheets s s') {before before' acts : List Act}
    (h : ((Track.start field role).after s before).Agree sheets (Act.standsAt before)
      (Act.standsAt before') ((Track.start field' role').after s' before'))
    (horder : Act.InOrder s (before ++ acts)) (horder' : Act.InOrder s' (before' ++ acts))
    (hsheets : ∀ v ∈ Act.visits acts,
      sheets v.position.rank ∧ v.position.rank.isReachable = true) :
    ((Track.start field' role').after s' before').given s' acts =
      ((Track.start field role).after s before).given s acts := by
  induction acts generalizing before before' with
  | nil => rfl
  | cons act acts ih =>
    have hsplit : before ++ act :: acts = before ++ [act] ++ acts := by simp
    have hsplit' : before' ++ act :: acts = before' ++ [act] ++ acts := by simp
    rw [hsplit] at horder
    rw [hsplit'] at horder'
    rw [← List.singleton_append, Act.visits_append] at hsheets
    have hvisited : ∀ v, act.visit? = some v →
        Visited sheets s s' (Act.standsAt before) (Act.standsAt before') v := by
      intro v hv
      have hmem : v ∈ Act.visits [act] := by simp [Act.visits, hv]
      obtain ⟨hsheet, hreachable⟩ := hsheets v (List.mem_append_left _ hmem)
      refine ⟨hsheet, hreachable, horder.of_append.lt_of_standsAt hv,
        horder'.of_append.lt_of_standsAt hv, ?_, ?_⟩
      · refine horder.of_append.agrees v ?_
        rw [Act.visits_append]
        exact List.mem_append_right _ hmem
      · refine horder'.of_append.agrees v ?_
        rw [Act.visits_append]
        exact List.mem_append_right _ hmem
    have hstep : ((Track.start field role).after s (before ++ [act])).Agree sheets
        (Act.standsAt (before ++ [act])) (Act.standsAt (before' ++ [act]))
        ((Track.start field' role').after s' (before' ++ [act])) := by
      rw [after_append, after_append]
      exact h.act (follows_after hplan role horder.of_append.of_append)
        (follows_after hplan' role' horder'.of_append.of_append) (by rwa [after_field])
        (by rwa [after_field]) (by rwa [after_field]) hsame act hvisited
    have hrest := ih hstep horder horder' fun v hv => hsheets v (List.mem_append_right _ hv)
    rw [after_append, after_append] at hrest
    cases act with
    | emit ofRow column origin =>
      rw [given, given, h.value?]
      exact congrArg _ hrest
    | _ => exact hrest

end Track.Agree

/-- Like fields give the same values in one scan. -/
theorem Track.given_of_like {s : Scan} {field field' : PlannedField} (h : field.Like field')
    (role : Role) (hplan : field.plan.IsSorted) (hplan' : field'.plan.IsSorted)
    (hconstant : field.plan.isConstant = false) {acts : List Act} (horder : Act.InOrder s acts)
    (hreachable : ∀ v ∈ Act.visits acts, v.position.rank.isReachable = true) :
    (Track.start field' role).given s acts = (Track.start field role).given s acts := by
  have hstart : ((Track.start field role).after s []).Agree (fun _ => True) (Act.standsAt [])
      (Act.standsAt []) ((Track.start field' role).after s []) := Track.Agree.start field h role
  have horder : Act.InOrder s ([] ++ acts) := horder
  exact hstart.given_eq hplan hplan' hconstant (fun _ _ => rfl) horder horder fun v hv =>
    ⟨trivial, hreachable v hv⟩

end SheetRecords
