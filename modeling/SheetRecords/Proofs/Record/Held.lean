import SheetRecords.Proofs.Record.Slots

/-!
# The exact values that slots hold

Whatever nearby values a slot takes in between, the exact value in it is the first one that was
offered since the slot was last emptied.  `Track.hold` follows this value act by act from the plan
of the field alone, and `Track.exactValue?_after` states that the slots of a track hold just these
values.
-/

namespace SheetRecords

open Cell

/-- The value that belongs to the visited cell. -/
def Resolution.exactValue? : Resolution → Option Value
  | .exact v => some v
  | _ => Option.none

/-- The exact value in a slot. -/
def Slot.exactValue? : Slot → Option Value
  | .exact v => some v
  | _ => none

/-- An exact value stays, and takes the place of any other. -/
theorem Slot.exactValue?_offer (slot : Slot) (r : Resolution) :
    ((slot.offer? r).getD slot).exactValue? = slot.exactValue?.or r.exactValue? := by
  cases slot <;> cases r <;> rfl

theorem Slot.value?_of_exactValue? {slot : Slot} {x : Value} (h : slot.exactValue? = some x) :
    slot.value? = some x := by
  cases slot <;> cases h
  rfl

namespace Track

variable {s : Scan} {t : Track}

/-- The exact value in the slot of a key after an act, by the one before. -/
def hold (t : Track) (k : Option Nat) (held : Option Value) : Act → Option Value
  | .observe v =>
    if t.intake v.position.address.column = some k then held.or (t.field.plan.sourceValue? v)
    else held
  | .emit ofRow column _ =>
    if t.field.isMetric ∧ t.outlet ofRow column = some k then none else held
  | .closeRow => if t.role = .row ∧ k = none then none else held
  | .closeSheet => if k = none then held else none
  | .readConstants => held

/-- Only the field and the role matter. -/
theorem hold_congr {t t' : Track} (hfield : t'.field = t.field) (hrole : t'.role = t.role) :
    t'.hold = t.hold := by
  obtain ⟨field, role, cursor, slot, columns⟩ := t
  obtain ⟨field', role', cursor', slot', columns'⟩ := t'
  simp only at hfield hrole
  subst hfield hrole
  funext k held act
  cases act <;> rfl

/-- Observing holds on to the first value of a source, if nothing was held before. -/
theorem foldl_hold_observe (t : Track) (k : Option Nat) (held : Option Value)
    (vs : List Visit) :
    (vs.map Act.observe).foldl (t.hold k) held =
      held.or (vs.findSome? fun v =>
        if t.intake v.position.address.column = some k then t.field.plan.sourceValue? v
        else none) := by
  induction vs generalizing held with
  | nil => simp
  | cons v vs ih =>
    rw [List.map_cons, List.foldl_cons, ih, List.findSome?_cons, hold]
    split_ifs with hk
    · rw [Option.or_assoc]
      cases t.field.plan.sourceValue? v <;> simp
    · rfl

/-- Records take the value of a metric field along, if they ask its slot. -/
theorem foldl_hold_emissions (t : Track) (k : Option Nat) (held : Option Value) (ofRow : Bool)
    (columns : List (Option Nat)) (origin : Option Nat → Origin) :
    (columns.map fun column => Act.emit ofRow column (origin column)).foldl (t.hold k) held =
      if t.field.isMetric = true ∧ ∃ column ∈ columns, t.outlet ofRow column = some k then none
      else held := by
  induction columns generalizing held with
  | nil => simp
  | cons column columns ih =>
    rw [List.map_cons, List.foldl_cons, ih, hold]
    by_cases hmetric : t.field.isMetric = true
    · by_cases hcolumn : t.outlet ofRow column = some k
      · simp [hmetric, hcolumn]
      · simp [hmetric, hcolumn]
    · simp [hmetric]

/-- Groups of acts that leave nothing behind leave nothing behind together. -/
theorem foldl_hold_flatMap {α : Type} (t : Track) (k : Option Nat) {l : List α} {f : α → List Act}
    (h : ∀ a ∈ l, (f a).foldl (t.hold k) none = none) :
    (l.flatMap f).foldl (t.hold k) none = none := by
  induction l with
  | nil => rfl
  | cons a l ih =>
    rw [List.flatMap_cons, List.foldl_append, h a (List.mem_cons_self ..)]
    exact ih fun b hb => h b (List.mem_cons_of_mem _ hb)

/-- What a field other than a constant contributes exactly is the value of its source. -/
theorem Follows.exactValue?_resolve {last : Option Position} (ht : t.Follows last)
    (hplan : t.field.plan.IsSorted) (hconstant : t.field.plan.isConstant = false) {v : Visit}
    (hlast : ∀ q ∈ last, q < v.position) (hv : s.Agrees v) :
    (t.field.resolve s v t.cursor).1.exactValue? = t.field.plan.sourceValue? v := by
  have hiff := PlannedField.resolve_eq_exact_iff hplan hconstant ht.cursor hlast hv
  refine Option.ext fun x => ?_
  rw [← hiff]
  cases (t.field.resolve s v t.cursor).1 <;> simp [Resolution.exactValue?]

/-- **One act.** -/
theorem Follows.exactValue?_act {acts : List Act} (ht : t.Follows (Act.standsAt acts))
    (hplan : t.field.plan.IsSorted) (hconstant : t.field.plan.isConstant = false) (act : Act)
    (hlast : ∀ v, act.visit? = some v → ∀ q ∈ Act.standsAt acts, q < v.position)
    (hagree : ∀ v, act.visit? = some v → s.Agrees v) (k : Option Nat) :
    ((t.act s act).slotAt k).exactValue? = t.hold k (t.slotAt k).exactValue? act := by
  cases act with
  | observe v =>
    have hexact := ht.exactValue?_resolve hplan hconstant (hlast v rfl) (hagree v rfl)
    rw [Track.act, slotAt_takeIn, hold, ← hexact, ← Slot.exactValue?_offer]
    exact apply_ite Slot.exactValue? _ _ _
  | emit ofRow column origin =>
    rw [Track.act, slotAt_emit, hold]
    exact apply_ite Slot.exactValue? _ _ _
  | closeRow =>
    rw [Track.act, slotAt_closeRow, hold]
    exact apply_ite Slot.exactValue? _ _ _
  | closeSheet =>
    rw [Track.act, slotAt_closeSheet, hold]
    cases k <;> rfl
  | readConstants =>
    rw [act_readConstants hconstant, hold]

/-- **Whole runs.**  After acts in scan order the slots hold what `hold` says. -/
theorem exactValue?_after {field : PlannedField} (hplan : field.plan.IsSorted)
    (hconstant : field.plan.isConstant = false) (role : Role) {acts : List Act}
    (h : Act.InOrder s acts) (k : Option Nat) :
    (((start field role).after s acts).slotAt k).exactValue? =
      acts.foldl ((start field role).hold k) none := by
  refine h.induction (motive := fun acts => (((start field role).after s acts).slotAt
    k).exactValue? = acts.foldl ((start field role).hold k) none) ?_ ?_
  · change ((start field role).slotAt k).exactValue? = none
    rw [slotAt_start]
    rfl
  · intro acts act horder ih hlast hvisit
    have hfield : ((start field role).after s acts).field = field := after_field ..
    have hrole : ((start field role).after s acts).role = role := after_role ..
    have hstep := (follows_after hplan role horder).exactValue?_act (by rwa [hfield])
      (by rwa [hfield]) act hlast (fun v hv => (hvisit v hv).2) k
    rw [after_append, List.foldl_append]
    change (Track.slotAt (Track.act s _ act) k).exactValue? = _
    rw [hstep, ih, hold_congr (t := start field role) hfield hrole]
    rfl

end Track

end SheetRecords
