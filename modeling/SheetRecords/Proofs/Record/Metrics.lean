import Mathlib.Data.List.Perm.Subperm
import SheetRecords.Proofs.Record.Ledger
import SheetRecords.Proofs.Record.Run

/-!
# Metric values are not repeated

`Schema.countP_metric_le`: among the records of an extraction there are no more values of a metric
field than the field has sources for them.

A ledger is kept beside the track of the field.  The track agrees with it (`Track.Accounts`) if its
slots hold the values of the sources entered for them and if its cursor is marked as soon as the
current source is settled: given away, or held for a column.  A contribution then always comes from
a source that is not settled (`Track.Accounts.fresh`), which is why each act keeps the agreement
with a sound ledger (`Track.Accounts.act`).
-/

namespace SheetRecords

open Cell

theorem PlannedField.resolveConstant_eq (f : PlannedField) (s : Scan) (source : ConstantSource)
    (c : Cursor) :
    f.resolveConstant s source c =
      match source.value? s with
      | some x => if f.isSpent c then .none else .exact x
      | none => .none := by
  cases source <;> rfl

namespace Track

variable {s : Scan} {t : Track} {last : Option Position} {l : Ledger}

/-- The track agrees with a sound ledger. -/
structure Accounts (s : Scan) (last : Option Position) (l : Ledger) (t : Track) : Prop where
  sound : l.IsSound (t.field.plan.sources s) last
  slots : ∀ k, (t.slotAt k).value? = (l.held k).map (·.value)
  columns : t.role = .column → l.held none = none
  /-- The current source is not contributed again once it is settled. -/
  marked : ∀ x, l.Settled x → t.field.plan.currentPlace last = some x.place → t.cursor.used = true

theorem accounts_start (s : Scan) (field : PlannedField) (role : Role) :
    (start field role).Accounts s none .empty where
  sound := Ledger.isSound_empty _
  slots k := by
    rw [slotAt_start]
    rfl
  columns _ := rfl
  marked x h := by simp [Ledger.Settled, Ledger.empty] at h

/-- As the scan goes on, the track agrees with the ledger. -/
theorem Accounts.move (h : t.Accounts s last l) (ht : t.Follows last)
    (hplan : t.field.plan.IsSorted) {v : Visit} (hlast : ∀ q ∈ last, q < v.position)
    (hv : s.Agrees v) :
    { t with cursor := (t.field.resolve s v t.cursor).2 }.Accounts s (some v.position) l := by
  refine ⟨?_, ?_, h.columns, ?_⟩
  · exact h.sound.trans fun q hq => ⟨v.position, rfl, (hlast q hq).le⟩
  · intro k
    rw [slotAt_setCursor]
    exact h.slots k
  · intro x hx hcurrent
    have hmarked := h.marked x hx
    cases hp : t.field.plan with
    | constant source =>
      rw [hp] at hmarked
      simp only [PlannedField.resolve, hp] at hcurrent ⊢
      exact hmarked hcurrent
    | list entries =>
      rw [hp] at hplan
      simp only [hp] at hcurrent hmarked
      simp only [PlannedField.resolve_list hp,
        resolveList_eq_answer hplan (ht.cursor entries hp) hlast hv]
      rw [Plan.currentPlace, Option.bind_some, Option.map_eq_some_iff] at hcurrent
      obtain ⟨e, he, hplace⟩ := hcurrent
      rw [Cursor.advance]
      by_cases hsame : reached entries.toList v.position = reachedBy entries.toList last
      · -- No entry has been reached since, so that the current one is the same.
        rw [if_pos hsame]
        cases last with
        | none =>
          rw [lastUpTo_eq_none_iff.mpr hsame] at he
          cases he
        | some q =>
          refine hmarked ?_
          rw [Plan.currentPlace, Option.bind_some, ← lastUpTo_congr hplan hsame, he,
            Option.map_some, hplace]
      · -- The current entry has just been reached, and is not entered.
        have hbefore : ∀ q ∈ last, q < e.position := by
          rintro q hq
          cases hq
          have hle := reached_mono entries.toList (hlast q rfl).le
          exact lt_of_lastUpTo hplan (lt_of_le_of_ne hle (Ne.symm hsame)) he
        exact absurd hplace.symm ((h.sound.reached x hx.has).place_ne hbefore le_rfl)
    | columnScan sheet column firstRow =>
      simp only [hp] at hcurrent
      cases hcurrent
    | rowScan sheet row =>
      simp only [hp] at hcurrent
      cases hcurrent
    | void =>
      simp only [hp] at hcurrent
      cases hcurrent

/-- A value that comes from a source which is not settled. -/
def IsFresh (s : Scan) (last : Option Position) (l : Ledger) (t : Track) (x : Value) : Prop :=
  ∃ source ∈ t.field.plan.sources s, source.value = x ∧ source.IsReached last ∧
    ∀ y, l.Settled y → y.place ≠ source.place

/-- A constant is contributed as long as it is not settled. -/
theorem Accounts.fresh_of_constant (h : t.Accounts s last l) (hmetric : t.field.isMetric = true)
    {source : ConstantSource} (hp : t.field.plan = .constant source) (last' : Option Position)
    {x : Value} (hx : (t.field.resolveConstant s source t.cursor).value? = some x) :
    t.IsFresh s last' l x := by
  rw [PlannedField.resolveConstant_eq] at hx
  cases hvalue : source.value? s with
  | none =>
    rw [hvalue] at hx
    cases hx
  | some y =>
    rw [hvalue] at hx
    simp only at hx
    split_ifs at hx with hspent
    · cases hx
    · obtain rfl := Option.some.inj hx
      refine ⟨⟨none, y⟩, ?_, rfl, ?_, ?_⟩
      · rw [hp, Plan.sources, hvalue]
        exact List.mem_singleton_self _
      · intro q hq
        cases hq
      · intro z hz hplace
        refine hspent ?_
        rw [PlannedField.isSpent, hmetric, Bool.true_and]
        exact h.marked z hz (by rw [hp, hplace]; rfl)

/-- The value of a visited cell that a scan addresses is not settled. -/
theorem Accounts.fresh_of_scan (h : t.Accounts s last l) {v : Visit}
    (hlast : ∀ q ∈ last, q < v.position)
    (hmem : (⟨some v.position, v.value⟩ : Source) ∈ t.field.plan.sources s) :
    t.IsFresh s (some v.position) l v.value := by
  refine ⟨_, hmem, rfl, ?_, ?_⟩
  · intro q hq
    exact ⟨v.position, rfl, (Option.some.inj hq).ge⟩
  · intro y hy
    exact (h.sound.reached y hy.has).place_ne hlast le_rfl

/-- **What a metric field contributes is not settled.** -/
theorem Accounts.fresh (h : t.Accounts s last l) (ht : t.Follows last)
    (hplan : t.field.plan.IsSorted) (hmetric : t.field.isMetric = true) (hs : s.grid.IsLawful)
    {v : Visit} (hlast : ∀ q ∈ last, q < v.position) (hv : v ∈ s.visits) {x : Value}
    (hx : (t.field.resolve s v t.cursor).1.value? = some x) :
    t.IsFresh s (some v.position) l x := by
  have hagree := Scan.agrees_of_mem_visits hs hv
  have hmove := h.move ht hplan hlast hagree
  cases hp : t.field.plan with
  | constant source =>
    simp only [PlannedField.resolve, hp] at hx
    exact h.fresh_of_constant hmetric hp _ hx
  | columnScan sheet column firstRow =>
    rw [PlannedField.resolve_columnScan hp] at hx
    split_ifs at hx with haddress
    · obtain rfl := Option.some.inj hx
      refine h.fresh_of_scan hlast ?_
      rw [hp]
      exact List.mem_map.mpr ⟨v, List.mem_filter.mpr ⟨hv, haddress⟩, rfl⟩
    · cases hx
  | rowScan sheet row =>
    rw [PlannedField.resolve_rowScan hp] at hx
    split_ifs at hx with haddress
    · obtain rfl := Option.some.inj hx
      refine h.fresh_of_scan hlast ?_
      rw [hp]
      exact List.mem_map.mpr ⟨v, List.mem_filter.mpr ⟨hv, haddress⟩, rfl⟩
    · cases hx
  | void =>
    simp only [PlannedField.resolve, hp] at hx
    cases hx
  | list entries =>
    rw [hp] at hplan
    have hresolve := resolveList_eq_answer (f := t.field) hplan (ht.cursor entries hp) hlast hagree
    rw [PlannedField.resolve_list hp, hresolve] at hx hmove
    simp only at hx hmove
    cases he : lastUpTo entries.toList v.position with
    | none =>
      rw [he] at hx
      cases hx
    | some e =>
      obtain ⟨hmem, hle⟩ := mem_of_lastUpTo he
      have hsource : ∀ y, e.value? s = some y →
          (⟨some e.position, y⟩ : Source) ∈ t.field.plan.sources s := by
        intro y hy
        rw [hp, Plan.sources]
        exact List.mem_filterMap.mpr ⟨e, hmem, by rw [hy]; rfl⟩
      have hreached : ∀ y, (⟨some e.position, y⟩ : Source).IsReached (some v.position) := by
        intro y q hq
        exact ⟨v.position, rfl, (Option.some.inj hq).ge.trans hle⟩
      rw [he] at hx
      by_cases hat : e.position = v.position
      · -- The visited cell has not been reached before, and so neither has its entry.
        rw [Scan.answer_of_eq hat] at hx
        obtain rfl := Option.some.inj hx
        refine ⟨⟨some e.position, _⟩, hsource _ ?_, rfl, hreached _, ?_⟩
        · rw [Entry.value?, hat]
          cases e.value with
          | some y => rfl
          | none => exact Scan.value?_of_mem_visits hs hv
        · intro y hy
          rw [hat]
          exact (h.sound.reached y hy.has).place_ne hlast le_rfl
      · simp only [Scan.answer, if_neg hat] at hx
        split_ifs at hx with hspent
        · cases hx
        · cases hvalue : e.value? s with
          | none =>
            rw [hvalue] at hx
            cases hx
          | some y =>
            rw [hvalue] at hx
            obtain rfl := Option.some.inj hx
            refine ⟨⟨some e.position, y⟩, hsource y hvalue, rfl, hreached y, ?_⟩
            intro z hz hplace
            -- If the entry were settled, the cursor would be marked, and nothing contributed.
            have hused : (t.cursor.advance entries.toList last v.position).used = true := by
              refine hmove.marked z hz ?_
              rw [hp, Plan.currentPlace, Option.bind_some, he, Option.map_some, hplace]
            rw [PlannedField.isSpent, hmetric, hused] at hspent
            simp at hspent

/-- Nothing is entered for a contribution that no slot takes. -/
theorem Accounts.observe_of_not_taken (h : t.Accounts s last l) {column : Nat} {r : Resolution}
    (hnot : ∀ k, t.intake column = some k → (t.slotAt k).offer? r = none) :
    (t.observe column r).Accounts s last l := by
  refine ⟨?_, ?_, ?_, ?_⟩
  · rw [observe_field]
    exact h.sound
  · intro k
    rw [slotAt_observe_of_not_taken hnot]
    exact h.slots k
  · rw [observe_role]
    exact h.columns
  · rw [observe_field]
    rcases observe_cursor t column r with hcursor | hcursor
    · rw [hcursor]
      exact h.marked
    · rw [hcursor]
      exact fun _ _ _ => rfl

/-- A source that is not settled is entered for the slot that takes its value. -/
theorem Accounts.observe_of_taken (h : t.Accounts s last l) (hmetric : t.field.isMetric = true)
    {column : Nat} {r : Resolution} {k : Option Nat} (hk : t.intake column = some k) {slot : Slot}
    (hoffer : (t.slotAt k).offer? r = some slot) {source : Source}
    (hmem : source ∈ t.field.plan.sources s) (hvalue : r.value? = some source.value)
    (hreached : source.IsReached last) (hfresh : ∀ y, l.Settled y → y.place ≠ source.place) :
    (t.observe column r).Accounts s last (l.take k source) := by
  refine ⟨?_, ?_, ?_, ?_⟩
  · rw [observe_field]
    refine h.sound.take hmem hreached (fun y hy => hfresh y (.inl hy)) ?_
    intro j hjk y hy
    cases j with
    | some c => exact hfresh y (.inr ⟨c, hy⟩)
    | none =>
      -- The slot that takes the source is that of a column, and then no other kind is in use.
      obtain ⟨c, rfl⟩ := Option.ne_none_iff_exists'.mp hjk.symm
      rw [h.columns (role_of_intake hk).1] at hy
      cases hy
  · intro j
    rw [slotAt_observe, hk, Ledger.held_take]
    by_cases hj : j = k
    · rw [if_pos (by rw [hj]), if_pos hj, hj, hoffer, Option.getD_some,
        (Slot.value?_of_offer?_eq_some hoffer).1, hvalue]
      rfl
    · rw [if_neg fun heq => hj (Option.some.inj heq).symm, if_neg hj]
      exact h.slots j
  · intro hrole
    rw [observe_role] at hrole
    simp only [intake, hrole, Option.some.injEq] at hk
    rw [Ledger.held_take, ← hk, if_neg (Option.some_ne_none column).symm]
    exact h.columns hrole
  · rw [observe_field, cursor_observe]
    intro y hy hcurrent
    split_ifs with htaken
    · rfl
    · -- Unless the cursor is marked, no slot of a column has taken anything.
      refine h.marked y ?_ hcurrent
      rcases hy with hy | ⟨c, hc⟩
      · exact .inl hy
      · rw [Ledger.held_take] at hc
        split_ifs at hc with hkc
        · obtain ⟨hrole, rfl⟩ := role_of_intake (hkc ▸ hk)
          exact absurd ⟨hrole, hmetric, by rw [hkc, hoffer]; rfl⟩ htaken
        · exact .inr ⟨c, hc⟩

/-- A contribution from a source that is not settled may be taken by its slot. -/
theorem Accounts.observe (h : t.Accounts s last l) (hmetric : t.field.isMetric = true)
    (column : Nat) {r : Resolution} (hr : ∀ x, r.value? = some x → t.IsFresh s last l x) :
    ∃ l', (t.observe column r).Accounts s last l' ∧ l'.spent = l.spent := by
  by_cases hnot : ∀ k, t.intake column = some k → (t.slotAt k).offer? r = none
  · exact ⟨l, h.observe_of_not_taken hnot, rfl⟩
  · push Not at hnot
    obtain ⟨k, hk, hne⟩ := hnot
    obtain ⟨slot, hoffer⟩ := Option.ne_none_iff_exists'.mp hne
    obtain ⟨x, hx⟩ := Option.isSome_iff_exists.mp (Slot.value?_of_offer?_eq_some hoffer).2
    obtain ⟨source, hmem, rfl, hreached, hfresh⟩ := hr x hx
    exact ⟨l.take k source, h.observe_of_taken hmetric hk hoffer hmem hx hreached hfresh, rfl⟩

/-- Nothing is given away if no slot is asked. -/
theorem Accounts.emit_of_outlet_eq_none (h : t.Accounts s last l)
    (hmetric : t.field.isMetric = true) {ofRow : Bool} {column : Option Nat}
    (hk : t.outlet ofRow column = none) : (t.emit ofRow column).2.Accounts s last l := by
  have hvalue : t.value? ofRow column = none := by
    rw [value?_eq_slotAt, hk, Option.bind_none]
  rw [emit_of_none hvalue, if_pos hmetric]
  refine ⟨?_, ?_, ?_, ?_⟩
  · rw [consume_field]
    exact h.sound
  · intro k
    rw [slotAt_consume, hk, if_neg (Option.some_ne_none k).symm]
    exact h.slots k
  · rw [consume_role]
    exact h.columns
  · rw [consume_field, consume_cursor]
    exact h.marked

/-- The source in the slot that is asked is given away. -/
theorem Accounts.emit_of_outlet_eq_some (h : t.Accounts s last l)
    (hmetric : t.field.isMetric = true) {ofRow : Bool} {column k : Option Nat}
    (hk : t.outlet ofRow column = some k) :
    (t.emit ofRow column).2.Accounts s last (l.spend k) := by
  have hvalue : t.value? ofRow column = (l.held k).map (·.value) := by
    rw [value?_eq_slotAt, hk, Option.bind_some, h.slots k]
  have hslots : ∀ j, ((t.consume ofRow column).slotAt j).value? =
      ((l.spend k).held j).map (·.value) := by
    intro j
    rw [slotAt_consume, hk, Ledger.held_spend]
    by_cases hj : j = k
    · rw [if_pos (by rw [hj]), if_pos hj]
      rfl
    · rw [if_neg fun heq => hj (Option.some.inj heq).symm, if_neg hj]
      exact h.slots j
  have hcolumns : t.role = .column → (l.spend k).held none = none := by
    intro hrole
    rw [Ledger.held_spend]
    split_ifs
    · rfl
    · exact h.columns hrole
  cases hheld : l.held k with
  | none =>
    -- Nothing is given away, and no source is settled that was not so before.
    rw [hheld] at hvalue
    rw [emit_of_none hvalue, if_pos hmetric]
    refine ⟨?_, hslots, ?_, ?_⟩
    · rw [consume_field]
      exact h.sound.spend k
    · rw [consume_role]
      exact hcolumns
    · rw [consume_field, consume_cursor]
      intro x hx
      refine h.marked x ?_
      rcases hx with hx | ⟨c, hc⟩
      · rw [Ledger.spend, hheld] at hx
        exact .inl (by simpa using hx)
      · rw [Ledger.held_spend] at hc
        split_ifs at hc
        exact .inr ⟨c, hc⟩
  | some x =>
    -- The cursor is marked, whichever source is the current one by now.
    rw [hheld] at hvalue
    rw [emit_of_some hvalue, if_pos hmetric, consume_setCursor]
    refine ⟨?_, ?_, ?_, fun _ _ _ => rfl⟩
    · rw [consume_field]
      exact h.sound.spend k
    · intro j
      rw [slotAt_setCursor]
      exact hslots j
    · rw [consume_role]
      exact hcolumns

/-- A record is given what a slot holds. -/
theorem Accounts.emit (h : t.Accounts s last l) (hmetric : t.field.isMetric = true) (ofRow : Bool)
    (column : Option Nat) :
    ∃ l', (t.emit ofRow column).2.Accounts s last l' ∧
      l'.spent.map (·.value) = l.spent.map (·.value) ++ (t.value? ofRow column).toList := by
  rw [value?_eq_slotAt]
  cases hk : t.outlet ofRow column with
  | none => exact ⟨l, h.emit_of_outlet_eq_none hmetric hk, by simp⟩
  | some k =>
    refine ⟨l.spend k, h.emit_of_outlet_eq_some hmetric hk, ?_⟩
    rw [Option.bind_some, h.slots k, Ledger.spend, List.map_append]
    cases l.held k <;> rfl

/-- Slots may be emptied. -/
theorem Accounts.keep {t' : Track} (h : t.Accounts s last l) (keys : Option Nat → Bool)
    (hfield : t'.field = t.field) (hrole : t'.role = t.role) (hcursor : t'.cursor = t.cursor)
    (hslots : ∀ k, t'.slotAt k = if keys k then t.slotAt k else .empty) :
    t'.Accounts s last (l.keep keys) := by
  refine ⟨?_, ?_, ?_, ?_⟩
  · rw [hfield]
    exact h.sound.keep keys
  · intro k
    rw [hslots, Ledger.keep]
    simp only
    split_ifs
    · exact h.slots k
    · rfl
  · rw [hrole]
    intro hcolumn
    rw [Ledger.keep]
    simp only
    split_ifs
    · exact h.columns hcolumn
    · rfl
  · rw [hfield, hcursor]
    exact fun x hx => h.marked x (Ledger.settled_of_keep hx)

theorem Accounts.closeRow (h : t.Accounts s last l) :
    ∃ l', t.closeRow.Accounts s last l' ∧ l'.spent = l.spent := by
  refine ⟨_, h.keep (fun k => !(t.role = .row && k.isNone)) (closeRow_field t) (closeRow_role t)
    (closeRow_cursor t) ?_, rfl⟩
  intro k
  rw [slotAt_closeRow]
  cases k <;> by_cases hrow : t.role = .row <;> simp [hrow]

theorem Accounts.closeSheet (h : t.Accounts s last l) :
    ∃ l', t.closeSheet.Accounts s last l' ∧ l'.spent = l.spent := by
  refine ⟨_, h.keep Option.isNone rfl rfl rfl ?_, rfl⟩
  intro k
  rw [slotAt_closeSheet]
  cases k <;> rfl

/-- **One act.**  A track that agrees with a sound ledger goes on to agree with one in which the
source of the value that is given away has been entered. -/
theorem Accounts.act {acts : List Act} (h : t.Accounts s (Act.standsAt acts) l)
    (ht : t.Follows (Act.standsAt acts)) (hplan : t.field.plan.IsSorted)
    (hmetric : t.field.isMetric = true) (hs : s.grid.IsLawful) (act : Act)
    (hlast : ∀ v, act.visit? = some v → ∀ q ∈ Act.standsAt acts, q < v.position)
    (hvisit : ∀ v, act.visit? = some v → v ∈ s.visits) :
    ∃ l', (t.act s act).Accounts s (Act.standsAt (acts ++ [act])) l' ∧
      l'.spent.map (·.value) = l.spent.map (·.value) ++ (t.given s [act]).filterMap (·.2) := by
  cases act with
  | observe v =>
    rw [Act.standsAt_append_observe]
    have hmove := h.move ht hplan (hlast v rfl) (Scan.agrees_of_mem_visits hs (hvisit v rfl))
    obtain ⟨l', hl', hspent⟩ := hmove.observe hmetric v.position.address.column
      fun x hx => h.fresh ht hplan hmetric hs (hlast v rfl) (hvisit v rfl) hx
    exact ⟨l', hl', by simp [hspent, given]⟩
  | emit ofRow column origin =>
    rw [Act.standsAt_append_of_visit?_eq_none _ rfl]
    obtain ⟨l', hl', hspent⟩ := h.emit hmetric ofRow column
    refine ⟨l', hl', ?_⟩
    rw [hspent, given, given]
    cases t.value? ofRow column <;> rfl
  | closeRow =>
    rw [Act.standsAt_append_of_visit?_eq_none _ rfl]
    obtain ⟨l', hl', hspent⟩ := h.closeRow
    exact ⟨l', hl', by simp [hspent, given]⟩
  | closeSheet =>
    rw [Act.standsAt_append_of_visit?_eq_none _ rfl]
    obtain ⟨l', hl', hspent⟩ := h.closeSheet
    exact ⟨l', hl', by simp [hspent, given]⟩
  | readConstants =>
    rw [Act.standsAt_append_of_visit?_eq_none _ rfl]
    have hmove : { t with cursor := (t.readConstant s).2 }.Accounts s (Act.standsAt acts) l := by
      have hcursor : (t.readConstant s).2 = t.cursor := by
        rw [readConstant]
        split <;> rfl
      rw [hcursor]
      exact h
    obtain ⟨l', hl', hspent⟩ := hmove.observe (r := (t.readConstant s).1) hmetric 0 (by
      intro x hx
      rw [readConstant] at hx
      split at hx
      · next source hp => exact h.fresh_of_constant hmetric hp _ hx
      · cases hx)
    exact ⟨l', hl', by simp [hspent, given]⟩

/-- **Whole runs.**  The values that a metric track gives away are those of the sources in a sound
ledger. -/
theorem exists_accounts {field : PlannedField} (hplan : field.plan.IsSorted)
    (hmetric : field.isMetric = true) (hs : s.grid.IsLawful) (role : Role) {acts : List Act}
    (horder : Act.InOrder s acts) (hvisits : ∀ v ∈ Act.visits acts, v ∈ s.visits) :
    ∃ l, ((start field role).after s acts).Accounts s (Act.standsAt acts) l ∧
      l.spent.map (·.value) = ((start field role).given s acts).filterMap (·.2) := by
  refine horder.induction (motive := fun acts => (∀ v ∈ Act.visits acts, v ∈ s.visits) →
    ∃ l, ((start field role).after s acts).Accounts s (Act.standsAt acts) l ∧
      l.spent.map (·.value) = ((start field role).given s acts).filterMap (·.2)) ?_ ?_ hvisits
  · intro _
    exact ⟨_, accounts_start s field role, rfl⟩
  · intro acts act horder ih hlast hvisit hvisits
    rw [Act.visits_append] at hvisits
    obtain ⟨l, hl, hspent⟩ := ih fun v hv => hvisits v (List.mem_append_left _ hv)
    obtain ⟨l', hl', hspent'⟩ := hl.act (follows_after hplan role horder)
      (by rw [after_field]; exact hplan) (by rw [after_field]; exact hmetric) hs act hlast
      (fun v hv => hvisits v (by rw [← Act.visits_append]; exact (hvisit v hv).1))
    refine ⟨l', ?_, ?_⟩
    · rw [after_append]
      exact hl'
    · rw [hspent', hspent, given_append, List.filterMap_append]

end Track

/-! ### Records -/

/-- The values that the records of a schedule have for a metric field are those of sources, each of
them used once at most. -/
theorem Prepared.subperm_sources {p : Prepared} (hp : p.IsLawful) {f : PlannedField}
    (hf : f ∈ p.fields) (hmetric : f.isMetric = true) :
    List.Subperm
      ((recordsOf p.scan p.names p.tracks p.schedule).filterMap fun r => r.get? f.name)
      ((f.plan.sources p.scan).map (·.value)) := by
  have hvisits : ∀ v ∈ Act.visits p.schedule, v ∈ p.scan.visits := by
    intro v hv
    rwa [p.visits_schedule] at hv
  obtain ⟨l, hl, hspent⟩ := Track.exists_accounts (hp.plans f hf) hmetric hp.grid (p.role f)
    hp.inOrder_schedule hvisits
  have hgiven : (recordsOf p.scan p.names p.tracks p.schedule).filterMap (fun r => r.get? f.name) =
      l.spent.map (·.value) := by
    rw [hspent, ← Prepared.get?_recordsOf hp hf, List.filterMap_map]
    rfl
  have hsound := hl.sound
  rw [Track.after_field] at hsound
  rw [hgiven]
  -- Values may well be equal, but the sources in the ledger are not.
  have hnodup : l.spent.Nodup := hsound.spent_nodup.of_map
  obtain ⟨given, hperm, hsublist⟩ := hnodup.subperm fun x hx => hsound.mem x (.inl hx)
  exact ⟨given.map (·.value), hperm.map _, hsublist.map _⟩

/-- **Metric values are not repeated.**  Among the records of an extraction there are no more values
of any kind for a metric field than there are such values among its sources. -/
theorem Schema.countP_metric_le {schema : Schema} {w : Workbook} {e : Extraction}
    (h : schema.extract w = .ok e) :
    ∃ p, schema.prepare w = .ok p ∧ ∀ f ∈ p.fields, f.isMetric = true → ∀ kind : Value → Bool,
      (e.records.countP fun r => (r.get? f.name).any kind) ≤
        (f.plan.sources p.scan).countP fun x => kind x.value := by
  obtain ⟨p, hprepare, hp, hsublist⟩ := Schema.sublist_recordsOf w.isLawful_grid h
  refine ⟨p, hprepare, ?_⟩
  intro f hf hmetric kind
  have hcount : ∀ records : List Record,
      records.countP (fun r => (r.get? f.name).any kind) =
        (records.filterMap fun r => r.get? f.name).countP kind := by
    intro records
    rw [List.countP_filterMap]
    congr 1
    funext r
    cases r.get? f.name <;> rfl
  calc e.records.countP (fun r => (r.get? f.name).any kind)
      ≤ (recordsOf p.scan p.names p.tracks p.schedule).countP
          (fun r => (r.get? f.name).any kind) := hsublist.countP_le
    _ = ((recordsOf p.scan p.names p.tracks p.schedule).filterMap
          fun r => r.get? f.name).countP kind := hcount _
    _ ≤ ((f.plan.sources p.scan).map (·.value)).countP kind :=
        (Prepared.subperm_sources hp hf hmetric).countP_le _
    _ = (f.plan.sources p.scan).countP fun x => kind x.value := List.countP_map

/-- A column of two cells. -/
def columnTable : Workbook :=
  ⟨[⟨"Table", (Store.empty.set ⟨0, 0⟩ (.boolean true)).set ⟨1, 0⟩ (.boolean false)⟩]⟩

/-- A field down the column, and its first cell as a metric. -/
def columnSchema : Schema :=
  ⟨[{ Field.named "item" with column := some 0 },
    { Field.named "total" with row := some 0, column := some 0, type := .number }], .default⟩

/-- The schema made ready for the table. -/
def columnPrepared : Prepared :=
  ⟨⟨columnTable, .ofNames ["Table"]⟩,
    [⟨"item", false, none, .columnScan none 0 0⟩,
      ⟨"total", true, none, .constant (.cell ⟨.sheet 0, ⟨0, 0⟩⟩)⟩]⟩

/-- The total reaches one of the records, of which there are two. -/
theorem Schema.countP_metric_le_columnTable :
    columnSchema.extract columnTable = .ok (.start columnPrepared none) ∧
      (Extraction.start columnPrepared none).records.length = 2 ∧
      ((Extraction.start columnPrepared none).records.countP fun r =>
        (r.get? "total").any fun _ => true) ≤ 1 := by
  have hextract : columnSchema.extract columnTable = .ok (.start columnPrepared none) := rfl
  refine ⟨hextract, by decide +kernel, ?_⟩
  obtain ⟨p, hprepare, hcount⟩ := Schema.countP_metric_le hextract
  have hprepare' : columnSchema.prepare columnTable = .ok columnPrepared := rfl
  obtain rfl : columnPrepared = p := Except.ok.inj (hprepare'.symm.trans hprepare)
  exact hcount ⟨"total", true, none, .constant (.cell ⟨.sheet 0, ⟨0, 0⟩⟩)⟩
    (List.mem_cons_of_mem _ (List.mem_singleton_self _)) rfl fun _ => true

end SheetRecords
