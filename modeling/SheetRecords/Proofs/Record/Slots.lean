import SheetRecords.Proofs.Record.Act

/-!
# The slots of a track

A track keeps values in one slot for the open row or the document, and in one slot for each column.
`Track.slotAt` reads them alike, by a key: `none` for the former and `some c` for column `c`.  The
lemmas below say which slot an act reads and writes: a contribution is offered to the slot
`Track.intake`, and a record takes its value from the slot `Track.outlet`.
-/

namespace SheetRecords

open Cell

namespace Slot

/-- The slot that a contribution leaves of an empty one. -/
def ofResolution : Resolution → Slot
  | .none => .empty
  | .exact v => .exact v
  | .nearby v => .nearby v

@[simp]
theorem value?_ofResolution (r : Resolution) : (ofResolution r).value? = r.value? := by
  cases r <;> rfl

theorem getD_offer?_empty (r : Resolution) :
    (Slot.empty.offer? r).getD .empty = .ofResolution r := by
  cases r <;> rfl

/-- A slot is empty after an offer only if it was so before and there was nothing to take. -/
theorem getD_offer?_eq_empty_iff {slot : Slot} {r : Resolution} :
    (slot.offer? r).getD slot = .empty ↔ slot = .empty ∧ r.value? = none := by
  cases slot <;> cases r <;> simp [offer?, Resolution.value?]

/-- A contribution that is made again changes nothing. -/
theorem getD_offer?_ofResolution (r : Resolution) :
    ((ofResolution r).offer? r).getD (ofResolution r) = .ofResolution r := by
  cases r <;> rfl

theorem value?_of_offer?_eq_some {slot slot' : Slot} {r : Resolution}
    (h : slot.offer? r = some slot') : slot'.value? = r.value? ∧ r.value?.isSome := by
  cases slot <;> cases r <;> cases h <;> exact ⟨rfl, rfl⟩

end Slot

namespace Track

variable {s : Scan} {t : Track}

/-- The slot of a key. -/
def slotAt (t : Track) : Option Nat → Slot
  | none => t.slot
  | some c => t.columns.getD c .empty

/-- The key of the slot to which a contribution at a cell of the given column is offered. -/
def intake (t : Track) (column : Nat) : Option (Option Nat) :=
  match t.role with
  | .document | .row => some none
  | .column => some (some column)
  | .inactive => none

/-- Only fields that go with columns fill the slots of columns. -/
theorem role_of_intake {column c : Nat} (h : t.intake column = some (some c)) :
    t.role = .column ∧ column = c := by
  unfold intake at h
  split at h
  · cases h
  · cases h
  · next hrole => exact ⟨hrole, Option.some.inj (Option.some.inj h)⟩
  · cases h

/-- The key of the slot from which a record takes its value. -/
def outlet (t : Track) (ofRow : Bool) (column : Option Nat) : Option (Option Nat) :=
  match t.role with
  | .document => some none
  | .row => if ofRow then some none else none
  | .column => column.map some
  | .inactive => none

theorem slotAt_start (field : PlannedField) (role : Role) (k : Option Nat) :
    (start field role).slotAt k = .empty := by
  cases k with
  | none => rfl
  | some c => simp [slotAt, start]

theorem value?_eq_slotAt (t : Track) (ofRow : Bool) (column : Option Nat) :
    t.value? ofRow column = (t.outlet ofRow column).bind fun k => (t.slotAt k).value? := by
  unfold value? outlet
  cases t.role with
  | document => rfl
  | row => cases ofRow <;> rfl
  | column =>
    cases column with
    | none => rfl
    | some c =>
      simp only [slotAt, Option.bind_some, Option.map_some, Std.TreeMap.getD_eq_getD_getElem?]
      cases t.columns[c]? <;> rfl
  | inactive => rfl

theorem slotAt_consume (t : Track) (ofRow : Bool) (column k : Option Nat) :
    (t.consume ofRow column).slotAt k =
      if t.outlet ofRow column = some k then .empty else t.slotAt k := by
  obtain ⟨field, role, cursor, slot, columns⟩ := t
  cases role with
  | document => cases k <;> simp [consume, outlet, slotAt]
  | row => cases ofRow <;> cases k <;> simp [consume, outlet, slotAt]
  | column =>
    cases column with
    | none => simp [consume, outlet]
    | some c =>
      cases k with
      | none => simp [consume, outlet, slotAt]
      | some c' => simp [consume, outlet, slotAt, Std.TreeMap.getD_erase]
  | inactive => simp [consume, outlet]

/-- The cursor has no part in what the slots hold. -/
theorem slotAt_setCursor (t : Track) (c : Cursor) (k : Option Nat) :
    { t with cursor := c }.slotAt k = t.slotAt k := by
  cases k <;> rfl

theorem consume_setCursor (t : Track) (c : Cursor) (ofRow : Bool) (column : Option Nat) :
    { t with cursor := c }.consume ofRow column =
      { t.consume ofRow column with cursor := c } := by
  obtain ⟨field, role, cursor, slot, columns⟩ := t
  cases role with
  | row => cases ofRow <;> rfl
  | column => cases column <;> rfl
  | _ => rfl

/-- Only metric values leave their slot with a record. -/
theorem slotAt_emit (t : Track) (ofRow : Bool) (column k : Option Nat) :
    (t.emit ofRow column).2.slotAt k =
      if t.field.isMetric ∧ t.outlet ofRow column = some k then .empty else t.slotAt k := by
  have hconsume := slotAt_consume t ofRow column k
  cases hv : t.value? ofRow column with
  | none =>
    rw [emit_of_none hv]
    cases hmetric : t.field.isMetric with
    | false => simp
    | true => simpa using hconsume
  | some x =>
    rw [emit_of_some hv, consume_setCursor]
    cases hmetric : t.field.isMetric with
    | false => simp [slotAt_setCursor]
    | true => simpa [slotAt_setCursor] using hconsume

theorem slotAt_closeRow (t : Track) (k : Option Nat) :
    t.closeRow.slotAt k = if t.role = .row ∧ k = none then .empty else t.slotAt k := by
  rw [closeRow]
  cases k with
  | none => split_ifs <;> simp_all [slotAt]
  | some c => split_ifs <;> simp_all [slotAt]

theorem slotAt_closeSheet (t : Track) (k : Option Nat) :
    t.closeSheet.slotAt k = if k = none then t.slot else .empty := by
  cases k <;> simp [closeSheet, slotAt]

/-- What an observation does to the slots: the one that the contribution is offered to may take
it. -/
theorem slotAt_observe (t : Track) (column : Nat) (r : Resolution) (k : Option Nat) :
    (t.observe column r).slotAt k =
      if t.intake column = some k then ((t.slotAt k).offer? r).getD (t.slotAt k)
      else t.slotAt k := by
  obtain ⟨field, role, cursor, slot, columns⟩ := t
  -- Only a field that goes with columns has more than one slot to choose from.
  cases role with
  | document => cases k <;> simp [observe, intake, slotAt]
  | row => cases k <;> simp [observe, intake, slotAt]
  | column =>
    simp only [observe, intake]
    cases hoffer : (columns.getD column Slot.empty).offer? r with
    | none =>
      cases k with
      | none => simp [slotAt]
      | some c =>
        by_cases hc : column = c
        · subst hc
          simp [slotAt, hoffer]
        · simp [slotAt, hc]
    | some slot' =>
      cases k with
      | none => simp [slotAt]
      | some c =>
        by_cases hc : column = c
        · subst hc
          simp [slotAt, hoffer]
        · simp [slotAt, hc, Std.TreeMap.getD_insert]
  | inactive => simp [observe, intake]

/-- A contribution that no slot takes leaves all slots as they are. -/
theorem slotAt_observe_of_not_taken {column : Nat} {r : Resolution}
    (h : ∀ k, t.intake column = some k → (t.slotAt k).offer? r = none) (k : Option Nat) :
    (t.observe column r).slotAt k = t.slotAt k := by
  rw [slotAt_observe]
  split_ifs with hk
  · rw [h k hk, Option.getD_none]
  · rfl

/-- A metric value that is taken for a column is used thereby. -/
theorem cursor_observe (t : Track) (column : Nat) (r : Resolution) :
    (t.observe column r).cursor =
      if t.role = .column ∧ t.field.isMetric ∧ ((t.slotAt (some column)).offer? r).isSome then
        t.cursor.markUsed
      else t.cursor := by
  obtain ⟨field, role, cursor, slot, columns⟩ := t
  cases role with
  | column =>
    simp only [observe, slotAt]
    cases (columns.getD column Slot.empty).offer? r with
    | none => simp
    | some slot' => simp
  | _ => simp [observe]

/-- Taking in a contribution is observing it, whatever the cursor. -/
theorem slotAt_takeIn (t : Track) (column : Nat) (r : Resolution × Cursor) (k : Option Nat) :
    (t.takeIn column r).slotAt k =
      if t.intake column = some k then ((t.slotAt k).offer? r.1).getD (t.slotAt k)
      else t.slotAt k := by
  rw [takeIn, slotAt_observe, slotAt_setCursor]
  rfl

theorem cursor_takeIn (t : Track) (column : Nat) (r : Resolution × Cursor) :
    (t.takeIn column r).cursor =
      if t.role = .column ∧ t.field.isMetric ∧ ((t.slotAt (some column)).offer? r.1).isSome then
        r.2.markUsed
      else r.2 := by
  rw [takeIn, cursor_observe, slotAt_setCursor]

/-- A value that goes into a record is used thereby. -/
theorem cursor_emit (t : Track) (ofRow : Bool) (column : Option Nat) :
    (t.emit ofRow column).2.cursor =
      if (t.value? ofRow column).isSome then t.cursor.markUsed else t.cursor := by
  cases hv : t.value? ofRow column with
  | none =>
    rw [emit_of_none hv, Option.isSome_none, if_neg Bool.false_ne_true]
    split_ifs
    · exact consume_cursor ..
    · rfl
  | some x =>
    rw [emit_of_some hv, Option.isSome_some, if_pos rfl]
    split_ifs
    · exact consume_cursor ..
    · rfl

/-- Only an observation fills a slot that is empty, and only by a contribution that is offered to
the slot. -/
theorem slotAt_act_eq_empty (hconstant : t.field.plan.isConstant = false) {act : Act}
    {k : Option Nat} (h : t.slotAt k = .empty)
    (hoffered : ∀ v, act = .observe v → t.intake v.position.address.column = some k →
      ∀ c, (t.field.resolve s v c).1 = .none) :
    (t.act s act).slotAt k = .empty := by
  cases act with
  | observe v =>
    rw [Track.act, slotAt_takeIn, h]
    split_ifs with hk
    · rw [hoffered v rfl hk]
      rfl
    · rfl
  | emit ofRow column origin =>
    rw [Track.act, slotAt_emit, h, ite_self]
  | closeRow =>
    rw [Track.act, slotAt_closeRow, h, ite_self]
  | closeSheet =>
    rw [Track.act, slotAt_closeSheet]
    split_ifs with hk
    · rw [hk] at h
      exact h
    · rfl
  | readConstants =>
    rw [act_readConstants hconstant]
    exact h

theorem slotAt_after_eq_empty (hconstant : t.field.plan.isConstant = false) {acts : List Act}
    {k : Option Nat} (h : t.slotAt k = .empty)
    (hoffered : ∀ v, .observe v ∈ acts → t.intake v.position.address.column = some k →
      ∀ c, (t.field.resolve s v c).1 = .none) :
    (t.after s acts).slotAt k = .empty := by
  induction acts generalizing t with
  | nil => exact h
  | cons act acts ih =>
    have hintake : ∀ column, (t.act s act).intake column = t.intake column := by
      intro column
      unfold intake
      rw [act_role]
    refine ih (t := t.act s act) ?_ ?_ ?_
    · rwa [act_field]
    · refine slotAt_act_eq_empty hconstant h ?_
      rintro v rfl
      exact hoffered v (List.mem_cons_self ..)
    · intro v hv
      rw [hintake, act_field]
      exact hoffered v (List.mem_cons_of_mem _ hv)

/-! ### What a slot holds was offered to it -/

/-- What one act can do to a slot: nothing, or to empty it, or to fill it by an offer. -/
theorem slotAt_act_cases (hconstant : t.field.plan.isConstant = false) (act : Act)
    (k : Option Nat) :
    (t.act s act).slotAt k = t.slotAt k ∨ (t.act s act).slotAt k = .empty ∨
      ∃ v, act = .observe v ∧ t.intake v.position.address.column = some k ∧
        (t.slotAt k).offer? (t.field.resolve s v t.cursor).1 = some ((t.act s act).slotAt k) := by
  cases act with
  | observe v =>
    rw [Track.act, slotAt_takeIn]
    split_ifs with hk
    · cases hoffer : (t.slotAt k).offer? (t.field.resolve s v t.cursor).1 with
      | none => exact .inl rfl
      | some slot => exact .inr (.inr ⟨v, rfl, hk, hoffer⟩)
    · exact .inl rfl
  | emit ofRow column origin =>
    rw [Track.act, slotAt_emit]
    split_ifs
    · exact .inr (.inl rfl)
    · exact .inl rfl
  | closeRow =>
    rw [Track.act, slotAt_closeRow]
    split_ifs
    · exact .inr (.inl rfl)
    · exact .inl rfl
  | closeSheet =>
    rw [Track.act, slotAt_closeSheet]
    split_ifs with hk
    · rw [hk]
      exact .inl rfl
    · exact .inr (.inl rfl)
  | readConstants =>
    rw [act_readConstants hconstant]
    exact .inl rfl

/-- **Where a value comes from.**  If a slot is filled at the end of a run, some visit has offered
it what it holds, and it was taken. -/
theorem exists_offer (hconstant : t.field.plan.isConstant = false) {k : Option Nat}
    (hstart : t.slotAt k = .empty) {acts : List Act} (h : (t.after s acts).slotAt k ≠ .empty) :
    ∃ before v after, acts = before ++ .observe v :: after ∧
      t.intake v.position.address.column = some k ∧
      ((t.after s before).slotAt k).offer? (t.field.resolve s v (t.after s before).cursor).1 =
        some ((t.after s acts).slotAt k) := by
  induction acts using List.reverseRecOn with
  | nil => exact absurd hstart h
  | append_singleton acts act ih =>
    have hact : t.after s (acts ++ [act]) = (t.after s acts).act s act := after_append ..
    have hconstant' : (t.after s acts).field.plan.isConstant = false := by rwa [after_field]
    rw [hact] at h ⊢
    rcases slotAt_act_cases hconstant' act k with hkept | hempty | ⟨v, rfl, hk, hoffer⟩
    · rw [hkept] at h ⊢
      obtain ⟨before, v, after, rfl, hk, hoffer⟩ := ih h
      exact ⟨before, v, after ++ [act], by simp, hk, hoffer⟩
    · exact absurd hempty h
    · have hintake : (t.after s acts).intake v.position.address.column =
          t.intake v.position.address.column := by
        unfold intake
        rw [after_role]
      rw [after_field] at hoffer
      exact ⟨acts, v, [], rfl, hintake ▸ hk, hoffer⟩

/-- Unless its field is a metric, the slot of a column stays filled as long as the sheet is open. -/
theorem slotAt_after_ne_empty (hconstant : t.field.plan.isConstant = false)
    (hmetric : t.field.isMetric = false) {c : Nat} (h : t.slotAt (some c) ≠ .empty)
    {acts : List Act} (hopen : .closeSheet ∉ acts) : (t.after s acts).slotAt (some c) ≠ .empty := by
  induction acts using List.reverseRecOn with
  | nil => exact h
  | append_singleton acts act ih =>
    rw [List.mem_append, not_or] at hopen
    have hact : t.after s (acts ++ [act]) = (t.after s acts).act s act := after_append ..
    have hfilled := ih hopen.1
    rw [hact]
    cases act with
    | observe v =>
      rw [Track.act, slotAt_takeIn]
      split_ifs
      · exact fun hempty => hfilled (Slot.getD_offer?_eq_empty_iff.mp hempty).1
      · exact hfilled
    | emit ofRow column origin =>
      rw [Track.act, slotAt_emit, after_field, hmetric]
      simpa using hfilled
    | closeRow =>
      rw [Track.act, slotAt_closeRow]
      simpa using hfilled
    | closeSheet => exact absurd (List.mem_singleton_self _) hopen.2
    | readConstants =>
      rw [act_readConstants (by rwa [after_field])]
      exact hfilled

end Track

end SheetRecords
