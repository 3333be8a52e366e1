import SheetRecords.Proofs.Scan.Source
import SheetRecords.Record.Assembly

/-!
# What happens to one field

During an extraction the tracks of all fields go through the same acts (`Act`): cells are observed,
records are emitted, rows and sheets are closed.  Given its acts, a track depends on no other one
(`Track.after`), and so do the values that it gives to the records (`Track.given`,
`given_recordsOf`).

The cursor of a track follows the cells that it has observed (`Track.follows_after`), so that its
exact values are those of its sources (`Track.isExact_resolve`).
-/

namespace SheetRecords

open Cell

/-- What happens to all tracks of an assembly at once. -/
inductive Act where
  /-- A cell is visited. -/
  | observe (v : Visit)
  /-- A record of the open row, if `ofRow`, and of a column is put together. -/
  | emit (ofRow : Bool) (column : Option Nat) (origin : Origin)
  | closeRow
  | closeSheet
  /-- The constants are read once more, at no cell. -/
  | readConstants

namespace Act

/-- The cell that is visited. -/
def visit? : Act → Option Visit
  | .observe v => some v
  | _ => none

/-- The origin of the record that is emitted. -/
def origin? : Act → Option Origin
  | .emit _ _ origin => some origin
  | _ => none

/-- The cells that are visited by acts. -/
def visits (acts : List Act) : List Visit :=
  acts.filterMap visit?

/-- The position where the scan stands after acts. -/
def standsAt (acts : List Act) : Option Position :=
  (visits acts).getLast?.map (·.position)

theorem standsAt_append_observe (acts : List Act) (v : Visit) :
    standsAt (acts ++ [.observe v]) = some v.position := by
  simp [standsAt, visits, visit?]

theorem standsAt_append_of_visit?_eq_none (acts : List Act) {act : Act} (h : act.visit? = none) :
    standsAt (acts ++ [act]) = standsAt acts := by
  simp [standsAt, visits, h]

/-- Acts whose visits come in scan order, to cells of the grid. -/
structure InOrder (s : Scan) (acts : List Act) : Prop where
  sorted : (visits acts).Pairwise fun u v => u.position < v.position
  agrees : ∀ v ∈ visits acts, s.Agrees v

theorem visits_append (acts acts' : List Act) :
    visits (acts ++ acts') = visits acts ++ visits acts' :=
  List.filterMap_append

theorem InOrder.of_append {s : Scan} {acts acts' : List Act} (h : InOrder s (acts ++ acts')) :
    InOrder s acts := by
  obtain ⟨hsorted, hagrees⟩ := h
  rw [visits_append] at hsorted hagrees
  exact ⟨(List.pairwise_append.mp hsorted).1, fun v hv => hagrees v (List.mem_append_left _ hv)⟩

/-- A visit comes after the position where the scan stood before. -/
theorem InOrder.lt_of_standsAt {s : Scan} {acts : List Act} {act : Act}
    (h : InOrder s (acts ++ [act])) {v : Visit} (hv : act.visit? = some v) :
    ∀ q ∈ standsAt acts, q < v.position := by
  intro q hq
  obtain ⟨u, hu, rfl⟩ := Option.map_eq_some_iff.mp hq
  have hsorted := h.sorted
  rw [visits_append] at hsorted
  exact (List.pairwise_append.mp hsorted).2.2 u (List.mem_of_getLast? hu) v (by simp [visits, hv])

/-- **Induction over a run.**  What holds at the start and is kept by every act that comes in order
holds after all of them.  The act is known to come after the position where the scan stands, and to
visit a cell of the grid. -/
theorem InOrder.induction {s : Scan} {motive : List Act → Prop} (nil : motive [])
    (step : ∀ acts act, InOrder s acts → motive acts →
      (∀ v, act.visit? = some v → ∀ q ∈ standsAt acts, q < v.position) →
      (∀ v, act.visit? = some v → v ∈ visits (acts ++ [act]) ∧ s.Agrees v) →
      motive (acts ++ [act]))
    {acts : List Act} (h : InOrder s acts) : motive acts := by
  induction acts using List.reverseRecOn with
  | nil => exact nil
  | append_singleton acts act ih =>
    refine step acts act h.of_append (ih h.of_append) ?_ ?_
    · intro v hv
      exact h.lt_of_standsAt hv
    · intro v hv
      have hmem : v ∈ visits (acts ++ [act]) := by simp [visits, hv]
      exact ⟨hmem, h.agrees v hmem⟩

end Act

namespace Track

variable {s : Scan} {t : Track}

/-- Takes in what the field contributes at a cell of a column, with its cursor afterwards. -/
def takeIn (t : Track) (column : Nat) (r : Resolution × Cursor) : Track :=
  { t with cursor := r.2 }.observe column r.1

/-- What the field contributes at no cell, which is something for constants only. -/
def readConstant (s : Scan) (t : Track) : Resolution × Cursor :=
  match t.field.plan with
  | .constant source => (t.field.resolveConstant s source t.cursor, t.cursor)
  | _ => (.none, t.cursor)

/-- The track after an act. -/
def act (s : Scan) (t : Track) : Act → Track
  | .observe v => t.takeIn v.position.address.column (t.field.resolve s v t.cursor)
  | .emit ofRow column _ => (t.emit ofRow column).2
  | .closeRow => t.closeRow
  | .closeSheet => t.closeSheet
  | .readConstants => t.takeIn 0 (t.readConstant s)

/-- The track after several acts. -/
def after (s : Scan) (t : Track) (acts : List Act) : Track :=
  acts.foldl (act s) t

/-- The origins of the records that are emitted, with the values that the track gives to them. -/
def given (s : Scan) (t : Track) : List Act → List (Origin × Option Value)
  | [] => []
  | .emit ofRow column origin :: acts =>
    (origin, t.value? ofRow column) :: given s (t.act s (.emit ofRow column origin)) acts
  | act :: acts => given s (t.act s act) acts

theorem after_append (s : Scan) (t : Track) (acts acts' : List Act) :
    t.after s (acts ++ acts') = (t.after s acts).after s acts' :=
  List.foldl_append

theorem given_append (s : Scan) (t : Track) (acts acts' : List Act) :
    t.given s (acts ++ acts') = t.given s acts ++ (t.after s acts).given s acts' := by
  induction acts generalizing t with
  | nil => rfl
  | cons act acts ih =>
    cases act with
    | emit ofRow column origin =>
      rw [List.cons_append, given, given, List.cons_append, ih]
      rfl
    | _ => exact ih _

/-- The records that are given values are those that the acts emit. -/
theorem map_fst_given (s : Scan) (t : Track) (acts : List Act) :
    (t.given s acts).map (·.1) = acts.filterMap Act.origin? := by
  induction acts generalizing t with
  | nil => rfl
  | cons act acts ih =>
    cases act with
    | emit ofRow column origin =>
      rw [given, List.map_cons, ih]
      rfl
    | _ => exact ih _

/-! ### Fields and roles stay -/

@[simp]
theorem observe_field (t : Track) (column : Nat) (r : Resolution) :
    (t.observe column r).field = t.field := by
  unfold observe
  split <;> try rfl
  split <;> rfl

@[simp]
theorem observe_role (t : Track) (column : Nat) (r : Resolution) :
    (t.observe column r).role = t.role := by
  unfold observe
  split <;> try rfl
  split <;> rfl

theorem consume_field (t : Track) (ofRow : Bool) (column : Option Nat) :
    (t.consume ofRow column).field = t.field := by
  unfold consume
  split <;> try rfl
  split <;> rfl

theorem consume_role (t : Track) (ofRow : Bool) (column : Option Nat) :
    (t.consume ofRow column).role = t.role := by
  unfold consume
  split <;> try rfl
  split <;> rfl

theorem consume_cursor (t : Track) (ofRow : Bool) (column : Option Nat) :
    (t.consume ofRow column).cursor = t.cursor := by
  unfold consume
  split <;> try rfl
  split <;> rfl

@[simp]
theorem emit_field (t : Track) (ofRow : Bool) (column : Option Nat) :
    (t.emit ofRow column).2.field = t.field := by
  simp only [emit]
  split_ifs <;> simp [consume_field]

@[simp]
theorem emit_role (t : Track) (ofRow : Bool) (column : Option Nat) :
    (t.emit ofRow column).2.role = t.role := by
  simp only [emit]
  split_ifs <;> simp [consume_role]

@[simp]
theorem closeRow_field (t : Track) : t.closeRow.field = t.field := by
  rw [closeRow]
  split_ifs <;> rfl

@[simp]
theorem closeRow_role (t : Track) : t.closeRow.role = t.role := by
  rw [closeRow]
  split_ifs <;> rfl

theorem closeRow_cursor (t : Track) : t.closeRow.cursor = t.cursor := by
  rw [closeRow]
  split_ifs <;> rfl

@[simp]
theorem act_field (s : Scan) (t : Track) (act : Act) : (t.act s act).field = t.field := by
  cases act with
  | observe v => exact observe_field ..
  | emit ofRow column origin => exact emit_field ..
  | closeRow => exact closeRow_field ..
  | closeSheet => rfl
  | readConstants => exact observe_field ..

@[simp]
theorem act_role (s : Scan) (t : Track) (act : Act) : (t.act s act).role = t.role := by
  cases act with
  | observe v => exact observe_role ..
  | emit ofRow column origin => exact emit_role ..
  | closeRow => exact closeRow_role ..
  | closeSheet => rfl
  | readConstants => exact observe_role ..

@[simp]
theorem after_field (s : Scan) (t : Track) (acts : List Act) :
    (t.after s acts).field = t.field := by
  induction acts generalizing t with
  | nil => rfl
  | cons act acts ih => exact (ih (t := t.act s act)).trans (act_field s t act)

@[simp]
theorem after_role (s : Scan) (t : Track) (acts : List Act) : (t.after s acts).role = t.role := by
  induction acts generalizing t with
  | nil => rfl
  | cons act acts ih => exact (ih (t := t.act s act)).trans (act_role s t act)

end Track

/-! ### Records and tracks -/

/-- The records that acts put together from tracks. -/
def recordsOf (s : Scan) (names : List String) (tracks : List Track) : List Act → List Record
  | [] => []
  | .emit ofRow column origin :: acts =>
    ⟨names, tracks.map (·.value? ofRow column), origin⟩ ::
      recordsOf s names (tracks.map (·.act s (.emit ofRow column origin))) acts
  | act :: acts => recordsOf s names (tracks.map (·.act s act)) acts

theorem map_after_cons (s : Scan) (tracks : List Track) (act : Act) (acts : List Act) :
    tracks.map (·.after s (act :: acts)) = (tracks.map (·.act s act)).map (·.after s acts) := by
  rw [List.map_map]
  rfl

theorem recordsOf_append (s : Scan) (names : List String) (tracks : List Track)
    (acts acts' : List Act) :
    recordsOf s names tracks (acts ++ acts') =
      recordsOf s names tracks acts ++ recordsOf s names (tracks.map (·.after s acts)) acts' := by
  induction acts generalizing tracks with
  | nil => simp [recordsOf, Track.after]
  | cons act acts ih =>
    rw [map_after_cons]
    cases act with
    | emit ofRow column origin =>
      rw [List.cons_append, recordsOf, recordsOf, List.cons_append, ih]
    | _ => exact ih _

/-- The records have the origins that the acts say. -/
theorem origin_recordsOf (s : Scan) (names : List String) (tracks : List Track) (acts : List Act) :
    (recordsOf s names tracks acts).map (·.origin) = acts.filterMap Act.origin? := by
  induction acts generalizing tracks with
  | nil => rfl
  | cons act acts ih =>
    cases act with
    | emit ofRow column origin =>
      rw [recordsOf, List.map_cons, ih]
      rfl
    | _ => exact ih _

/-- The `i`-th values of the records are those that the `i`-th track gives. -/
theorem given_recordsOf (s : Scan) (names : List String) {tracks : List Track} {i : Nat} {t : Track}
    (ht : tracks[i]? = some t) (acts : List Act) :
    (recordsOf s names tracks acts).map (fun r => (r.origin, r.values[i]?.join)) =
      t.given s acts := by
  induction acts generalizing tracks t with
  | nil => rfl
  | cons act acts ih =>
    have hnext : (tracks.map (·.act s act))[i]? = some (t.act s act) := by
      rw [List.getElem?_map, ht, Option.map_some]
    cases act with
    | emit ofRow column origin =>
      rw [recordsOf, List.map_cons, ih hnext, Track.given]
      simp [ht]
    | _ => exact ih hnext

/-! ### Cursors follow the scan -/

namespace Track

variable {s : Scan} {t : Track}

/-- What holds of a track when the scan stands at a position: the cursor of a list follows, and as
long as none of its entries has been reached it holds no value. -/
structure Follows (last : Option Position) (t : Track) : Prop where
  cursor : t.field.CursorFollows last t.cursor
  silent : ∀ entries, t.field.plan = .list entries → reachedBy entries.toList last = 0 →
    ∀ ofRow column, t.value? ofRow column = none

theorem observe_none (t : Track) (column : Nat) : t.observe column .none = t := by
  obtain ⟨field, role, cursor, slot, columns⟩ := t
  cases role with
  | document => cases slot <;> rfl
  | row => cases slot <;> rfl
  | column => cases h : columns.getD column .empty <;> simp [observe, Slot.offer?, h]
  | inactive => rfl

/-- Only constants are read without a visit. -/
theorem act_readConstants (hconstant : t.field.plan.isConstant = false) :
    t.act s .readConstants = t := by
  rw [Track.act, readConstant]
  split
  · next source hplan =>
    rw [hplan] at hconstant
    cases hconstant
  · exact observe_none ..

/-- Observing changes a cursor at most by marking it. -/
theorem observe_cursor (t : Track) (column : Nat) (r : Resolution) :
    (t.observe column r).cursor = t.cursor ∨ (t.observe column r).cursor = t.cursor.markUsed := by
  unfold observe
  split
  · exact .inl rfl
  · exact .inl rfl
  · split
    · exact .inl rfl
    · split_ifs
      · exact .inr rfl
      · exact .inl rfl
  · exact .inl rfl

theorem follows_start (field : PlannedField) (role : Role) : (start field role).Follows none where
  cursor entries _ := Cursor.follows_start entries.toList
  silent _ _ _ ofRow column := by
    cases role with
    | document => rfl
    | row => cases ofRow <;> rfl
    | column => cases column <;> simp [value?, start]
    | inactive => rfl

/-- A track that holds no value holds none after an emission. -/
theorem value?_consume_eq_none (h : ∀ ofRow column, t.value? ofRow column = none)
    (ofRow : Bool) (column : Option Nat) (ofRow' : Bool) (column' : Option Nat) :
    (t.consume ofRow column).value? ofRow' column' = none := by
  have h := h ofRow' column'
  obtain ⟨field, role, cursor, slot, columns⟩ := t
  cases role with
  | document => rfl
  | row =>
    cases ofRow with
    | true => cases ofRow' <;> rfl
    | false => exact h
  | column =>
    cases column with
    | none => exact h
    | some c =>
      cases column' with
      | none => rfl
      | some c' =>
        simp only [value?, consume, Option.bind_some, Std.TreeMap.getElem?_erase] at h ⊢
        split_ifs
        · rfl
        · exact h
  | inactive => rfl

theorem emit_of_none {ofRow : Bool} {column : Option Nat} (h : t.value? ofRow column = none) :
    (t.emit ofRow column).2 = if t.field.isMetric then t.consume ofRow column else t := by
  simp [emit, h]

theorem emit_of_some {ofRow : Bool} {column : Option Nat} {x : Value}
    (h : t.value? ofRow column = some x) :
    (t.emit ofRow column).2 =
      if t.field.isMetric then { t with cursor := t.cursor.markUsed }.consume ofRow column
      else { t with cursor := t.cursor.markUsed } := by
  simp [emit, h]

/-- An emission keeps the invariant: a value that is used comes from an entry that was reached. -/
theorem Follows.emit {last : Option Position} (ht : t.Follows last) (ofRow : Bool)
    (column : Option Nat) : (t.emit ofRow column).2.Follows last := by
  cases hv : t.value? ofRow column with
  | none =>
    rw [emit_of_none hv]
    split_ifs
    · refine ⟨?_, ?_⟩
      · rw [consume_field, consume_cursor]
        exact ht.cursor
      · intro entries hl hzero
        rw [consume_field] at hl
        exact value?_consume_eq_none (ht.silent entries hl hzero) ofRow column
    · exact ht
  | some x =>
    -- A list with no entry reached would have no value to use.
    have hreached : ∀ entries, t.field.plan = .list entries →
        reachedBy entries.toList last ≠ 0 := by
      intro entries hl hzero
      rw [ht.silent entries hl hzero] at hv
      cases hv
    have hcursor : t.field.CursorFollows last t.cursor.markUsed := fun entries hl =>
      (ht.cursor entries hl).markUsed (hreached entries hl)
    rw [emit_of_some hv]
    split_ifs
    · refine ⟨?_, ?_⟩
      · rw [consume_field, consume_cursor]
        exact hcursor
      · intro entries hl hzero
        rw [consume_field] at hl
        exact absurd hzero (hreached entries hl)
    · exact ⟨hcursor, fun entries hl hzero => absurd hzero (hreached entries hl)⟩

theorem Follows.closeRow {last : Option Position} (ht : t.Follows last) :
    t.closeRow.Follows last := by
  rw [Track.closeRow]
  split_ifs with hrole
  · refine ⟨ht.cursor, ?_⟩
    intro entries hl hzero ofRow column
    simp [value?, hrole, Slot.value?]
  · exact ht

theorem Follows.closeSheet {last : Option Position} (ht : t.Follows last) :
    t.closeSheet.Follows last := by
  refine ⟨ht.cursor, ?_⟩
  intro entries hl hzero ofRow column
  have h := ht.silent entries hl hzero ofRow column
  obtain ⟨field, role, cursor, slot, columns⟩ := t
  cases role with
  | column => cases column <;> simp [value?, Track.closeSheet]
  | _ => exact h

/-- A list answers by the entry last reached, and its cursor follows on. -/
theorem Follows.resolve_list {last : Option Position} (ht : t.Follows last)
    (hplan : t.field.plan.IsSorted) {entries : Array Entry} (hl : t.field.plan = .list entries)
    {v : Visit} (hlast : ∀ q ∈ last, q < v.position) (hv : s.Agrees v) :
    t.field.resolve s v t.cursor =
      (s.answer (lastUpTo entries.toList v.position)
          (t.field.isSpent (t.cursor.advance entries.toList last v.position)) v,
        t.cursor.advance entries.toList last v.position) := by
  rw [PlannedField.resolve_list hl]
  exact resolveList_eq_answer (hplan.entries hl) (ht.cursor entries hl) hlast hv

/-- A visit to a later cell keeps the invariant. -/
theorem Follows.observe {last : Option Position} (ht : t.Follows last)
    (hplan : t.field.plan.IsSorted) {v : Visit} (hlast : ∀ q ∈ last, q < v.position)
    (hv : s.Agrees v) : (t.act s (.observe v)).Follows (some v.position) := by
  -- As long as no entry is reached the field contributes nothing.
  have hunreached : ∀ entries, t.field.plan = .list entries →
      reachedBy entries.toList (some v.position) = 0 → t.act s (.observe v) =
        { t with cursor := t.cursor.advance entries.toList last v.position } := by
    intro entries hl hzero
    rw [Track.act, ht.resolve_list hplan hl hlast hv, lastUpTo_eq_none_iff.mpr hzero]
    exact observe_none ..
  refine ⟨?_, ?_⟩
  · intro entries hl
    rw [act_field] at hl
    have hadvance := (ht.cursor entries hl).advance v.position
    by_cases hzero : reachedBy entries.toList (some v.position) = 0
    · rw [hunreached entries hl hzero]
      exact hadvance
    · rw [Track.act, ht.resolve_list hplan hl hlast hv, takeIn]
      -- The slot may have taken the value, and the cursor been marked for it.
      rcases observe_cursor
        { t with cursor := t.cursor.advance entries.toList last v.position }
        v.position.address.column _ with heq | heq
      · rw [heq]
        exact hadvance
      · rw [heq]
        exact hadvance.markUsed hzero
  · intro entries hl hzero ofRow column
    rw [act_field] at hl
    have hbefore := reachedBy_le entries.toList hlast
    rw [hunreached entries hl hzero]
    exact ht.silent entries hl (Nat.le_zero.mp (hbefore.trans_eq hzero)) ofRow column

theorem Follows.readConstants {last : Option Position} (ht : t.Follows last) :
    (t.act s .readConstants).Follows last := by
  have hunread : ∀ entries, t.field.plan = .list entries → t.act s .readConstants = t :=
    fun entries hl => act_readConstants (hl ▸ rfl)
  refine ⟨?_, ?_⟩
  · intro entries hl
    rw [act_field] at hl
    rw [hunread entries hl]
    exact ht.cursor entries hl
  · intro entries hl hzero
    rw [act_field] at hl
    rw [hunread entries hl]
    exact ht.silent entries hl hzero

/-- **One act.**  The invariant is kept by every act, if visits come in scan order to cells of the
grid. -/
theorem Follows.act {acts : List Act} (ht : t.Follows (Act.standsAt acts))
    (hplan : t.field.plan.IsSorted) (act : Act)
    (hlast : ∀ v, act.visit? = some v → ∀ q ∈ Act.standsAt acts, q < v.position)
    (hagree : ∀ v, act.visit? = some v → s.Agrees v) :
    (t.act s act).Follows (Act.standsAt (acts ++ [act])) := by
  cases act with
  | observe v =>
    rw [Act.standsAt_append_observe]
    exact ht.observe hplan (hlast v rfl) (hagree v rfl)
  | emit ofRow column origin =>
    rw [Act.standsAt_append_of_visit?_eq_none _ rfl]
    exact ht.emit ofRow column
  | closeRow =>
    rw [Act.standsAt_append_of_visit?_eq_none _ rfl]
    exact ht.closeRow
  | closeSheet =>
    rw [Act.standsAt_append_of_visit?_eq_none _ rfl]
    exact ht.closeSheet
  | readConstants =>
    rw [Act.standsAt_append_of_visit?_eq_none _ rfl]
    exact ht.readConstants

/-- **Whole runs.**  After acts in scan order the cursor of a track follows the scan. -/
theorem follows_after {field : PlannedField} (hplan : field.plan.IsSorted) (role : Role)
    {acts : List Act} (h : Act.InOrder s acts) :
    ((start field role).after s acts).Follows (Act.standsAt acts) := by
  refine h.induction (motive := fun acts =>
    ((start field role).after s acts).Follows (Act.standsAt acts)) (follows_start field role) ?_
  intro acts act _ ih hlast hvisit
  rw [after_append]
  refine ih.act ?_ act hlast fun v hv => (hvisit v hv).2
  rw [after_field]
  exact hplan

/-- In a run, a list answers at each visited cell by the entry last reached. -/
theorem resolve_after {f : PlannedField} {entries : Array Entry} (hl : f.plan = .list entries)
    (hsorted : EntriesSorted entries.toList) (role : Role) {acts : List Act} {v : Visit}
    (horder : Act.InOrder s (acts ++ [.observe v])) :
    f.resolve s v ((start f role).after s acts).cursor =
      (s.answer (lastUpTo entries.toList v.position)
          (f.isSpent (((start f role).after s acts).cursor.advance entries.toList
            (Act.standsAt acts) v.position)) v,
        ((start f role).after s acts).cursor.advance entries.toList (Act.standsAt acts)
          v.position) := by
  have hplan : f.plan.IsSorted := by
    rw [hl]
    exact hsorted
  have hfield : ((start f role).after s acts).field = f := after_field ..
  have hagrees : s.Agrees v := horder.agrees v (by simp [Act.visits, Act.visit?])
  have hfollows := follows_after hplan role horder.of_append
  have hresolve := hfollows.resolve_list (hfield.symm ▸ hplan) (hfield.symm ▸ hl)
    (horder.lt_of_standsAt rfl) hagrees
  rwa [hfield] at hresolve

/-- A track whose cursor follows the scan has exact values at the sources of its field. -/
theorem Follows.isExact_resolve {last : Option Position} (ht : t.Follows last)
    (hplan : t.field.plan.IsSorted) (hconstant : t.field.plan.isConstant = false) {v : Visit}
    (hlast : ∀ q ∈ last, q < v.position) (hv : s.Agrees v) :
    (t.field.resolve s v t.cursor).1.isExact = t.field.plan.addresses v.position := by
  have hiff := PlannedField.resolve_eq_exact_iff hplan hconstant ht.cursor hlast hv
  rw [← Plan.isSome_sourceValue?]
  cases hx : t.field.plan.sourceValue? v with
  | some x => rw [(hiff x).mpr hx]; rfl
  | none =>
    cases hr : (t.field.resolve s v t.cursor).1 with
    | exact x => rw [(hiff x).mp hr] at hx; cases hx
    | nearby x => rfl
    | none => rfl

end Track

end SheetRecords
