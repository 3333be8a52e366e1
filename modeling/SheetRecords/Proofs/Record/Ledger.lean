import SheetRecords.Proofs.Record.Slots

/-!
# Sources and ledgers

A field has its values from its sources (`Plan.sources`).  A `Ledger` says which sources have been
given to records, and which one each slot of a track holds.  It is sound if no source is entered
twice (`Ledger.IsSound`), and stays so when a slot takes a source that is not entered elsewhere,
when the source in a slot is given away, and when slots are emptied.
-/

namespace SheetRecords

open Cell

/-! ### Sources -/

/-- A value that a field may have, with the place where it stands; the value of a constant goes with
no place of the scan. -/
structure Source where
  place : Option Position
  value : Value

/-- The scan stands at or after the place of the source. -/
def Source.IsReached (last : Option Position) (x : Source) : Prop :=
  ∀ q ∈ x.place, ∃ p ∈ last, q ≤ p

/-- The value of a constant, if it has one: that of a blank cell is empty. -/
def ConstantSource.value? (s : Scan) : ConstantSource → Option Value
  | .value v => some v
  | .cell p => if p.rank.isReachable then some ((s.value? p).getD .empty) else none

/-- The sources of a field: the constant, the entries of a list that have a value, or the visited
cells that a scan addresses. -/
def Plan.sources (s : Scan) : Plan → List Source
  | .constant source => (source.value? s).toList.map fun x => ⟨none, x⟩
  | .list entries =>
    entries.toList.filterMap fun e => (e.value? s).map fun x => ⟨some e.position, x⟩
  | plan =>
    (s.visits.filter fun v => plan.addresses v.position).map fun v => ⟨some v.position, v.value⟩

/-- The place of the source that a field repeats as long as no later one is reached. -/
def Plan.currentPlace (last : Option Position) : Plan → Option (Option Position)
  | .constant _ => some none
  | .list entries => (last.bind (lastUpTo entries.toList)).map fun e => some e.position
  | _ => none

theorem Source.IsReached.trans {last last' : Option Position} {x : Source} (h : x.IsReached last)
    (hlast : ∀ q ∈ last, ∃ p ∈ last', q ≤ p) : x.IsReached last' := by
  intro q hq
  obtain ⟨p, hp, hqp⟩ := h q hq
  obtain ⟨p', hp', hpp'⟩ := hlast p hp
  exact ⟨p', hp', hqp.trans hpp'⟩

/-- A source that is reached does not stand where the scan comes next. -/
theorem Source.IsReached.place_ne {last : Option Position} {x : Source} (h : x.IsReached last)
    {p : Position} (hlast : ∀ q ∈ last, q < p) {q : Position} (hq : p ≤ q) : x.place ≠ some q := by
  intro hplace
  obtain ⟨p', hp', hle⟩ := h q hplace
  exact absurd (hlast p' hp') (not_lt.mpr (hq.trans hle))

/-! ### Ledgers -/

/-- Which sources have been given to records, and which one each slot holds. -/
structure Ledger where
  spent : List Source
  held : Option Nat → Option Source

namespace Ledger

variable {sources : List Source} {last : Option Position} {l : Ledger}

/-- A source is entered. -/
def Has (l : Ledger) (x : Source) : Prop :=
  x ∈ l.spent ∨ ∃ k, l.held k = some x

/-- A source is given away, or held for a column. -/
def Settled (l : Ledger) (x : Source) : Prop :=
  x ∈ l.spent ∨ ∃ c, l.held (some c) = some x

theorem Settled.has {x : Source} (h : l.Settled x) : l.Has x :=
  h.imp_right fun ⟨c, hc⟩ => ⟨some c, hc⟩

/-- No source is entered twice, and all are sources of the field that have been reached. -/
structure IsSound (sources : List Source) (last : Option Position) (l : Ledger) : Prop where
  mem : ∀ x, l.Has x → x ∈ sources
  reached : ∀ x, l.Has x → x.IsReached last
  spent_nodup : (l.spent.map (·.place)).Nodup
  held_inj : ∀ j k x y, l.held j = some x → l.held k = some y → x.place = y.place → j = k
  held_unspent : ∀ k x y, l.held k = some x → y ∈ l.spent → y.place ≠ x.place

/-- Nothing is entered. -/
def empty : Ledger := ⟨[], fun _ => none⟩

theorem isSound_empty (sources : List Source) : empty.IsSound sources none where
  mem x h := by simp [Has, empty] at h
  reached x h := by simp [Has, empty] at h
  spent_nodup := List.nodup_nil
  held_inj j k x y h := by cases h
  held_unspent k x y h := by cases h

theorem IsSound.trans (h : l.IsSound sources last) {last' : Option Position}
    (hlast : ∀ q ∈ last, ∃ p ∈ last', q ≤ p) : l.IsSound sources last' :=
  { h with reached := fun x hx => (h.reached x hx).trans hlast }

/-- The slots of the keys that are not kept are emptied. -/
def keep (l : Ledger) (keys : Option Nat → Bool) : Ledger :=
  { l with held := fun k => if keys k then l.held k else none }

theorem held_of_keep {keys : Option Nat → Bool} {k : Option Nat} {x : Source}
    (h : (l.keep keys).held k = some x) : l.held k = some x := by
  rw [keep] at h
  simp only at h
  split_ifs at h
  exact h

theorem settled_of_keep {keys : Option Nat → Bool} {x : Source} (h : (l.keep keys).Settled x) :
    l.Settled x :=
  h.imp_right fun ⟨c, hc⟩ => ⟨c, held_of_keep hc⟩

theorem IsSound.keep (h : l.IsSound sources last) (keys : Option Nat → Bool) :
    (l.keep keys).IsSound sources last := by
  have hhas : ∀ x, (l.keep keys).Has x → l.Has x := fun x hx =>
    hx.imp_right fun ⟨k, hk⟩ => ⟨k, held_of_keep hk⟩
  exact
    { mem := fun x hx => h.mem x (hhas x hx)
      reached := fun x hx => h.reached x (hhas x hx)
      spent_nodup := h.spent_nodup
      held_inj := fun j k x y hx hy => h.held_inj j k x y (held_of_keep hx) (held_of_keep hy)
      held_unspent := fun k x y hx hy => h.held_unspent k x y (held_of_keep hx) hy }

/-- A slot takes a source in place of what it held. -/
def take (l : Ledger) (k : Option Nat) (x : Source) : Ledger :=
  { l with held := Function.update l.held k (some x) }

theorem held_take (l : Ledger) (k j : Option Nat) (x : Source) :
    (l.take k x).held j = if j = k then some x else l.held j :=
  Function.update_apply ..

theorem IsSound.take (h : l.IsSound sources last) {k : Option Nat} {x : Source}
    (hmem : x ∈ sources) (hreached : x.IsReached last)
    (hspent : ∀ y ∈ l.spent, y.place ≠ x.place)
    (hheld : ∀ j ≠ k, ∀ y, l.held j = some y → y.place ≠ x.place) :
    (l.take k x).IsSound sources last := by
  have hhas : ∀ y, (l.take k x).Has y → y = x ∨ l.Has y := by
    rintro y (hy | ⟨j, hj⟩)
    · exact .inr (.inl hy)
    · rw [held_take] at hj
      split_ifs at hj
      · exact .inl (Option.some.inj hj).symm
      · exact .inr (.inr ⟨j, hj⟩)
  refine ⟨?_, ?_, h.spent_nodup, ?_, ?_⟩
  · intro y hy
    rcases hhas y hy with rfl | hy
    · exact hmem
    · exact h.mem y hy
  · intro y hy
    rcases hhas y hy with rfl | hy
    · exact hreached
    · exact h.reached y hy
  · -- Two slots with one source: neither, one of them or both may be the slot that takes it.
    intro i j y z hy hz hplace
    rw [held_take] at hy hz
    split_ifs at hy hz with hi hj hj
    · exact hi.trans hj.symm
    · obtain rfl := Option.some.inj hy
      exact absurd hplace.symm (hheld j hj z hz)
    · obtain rfl := Option.some.inj hz
      exact absurd hplace (hheld i hi y hy)
    · exact h.held_inj i j y z hy hz hplace
  · intro j y z hy hz
    rw [held_take] at hy
    split_ifs at hy with hj
    · obtain rfl := Option.some.inj hy
      exact hspent z hz
    · exact h.held_unspent j y z hy hz

/-- The source in a slot is given to a record. -/
def spend (l : Ledger) (k : Option Nat) : Ledger where
  spent := l.spent ++ (l.held k).toList
  held := Function.update l.held k none

theorem held_spend (l : Ledger) (k j : Option Nat) :
    (l.spend k).held j = if j = k then none else l.held j :=
  Function.update_apply ..

theorem has_of_spend {k : Option Nat} {x : Source} (h : (l.spend k).Has x) : l.Has x := by
  rcases h with hx | ⟨j, hj⟩
  · rcases List.mem_append.mp hx with hx | hx
    · exact .inl hx
    · exact .inr ⟨k, Option.mem_toList.mp hx⟩
  · rw [held_spend] at hj
    split_ifs at hj
    exact .inr ⟨j, hj⟩

theorem IsSound.spend (h : l.IsSound sources last) (k : Option Nat) :
    (l.spend k).IsSound sources last := by
  refine ⟨fun x hx => h.mem x (has_of_spend hx), fun x hx => h.reached x (has_of_spend hx), ?_, ?_,
    ?_⟩
  · rw [Ledger.spend, List.map_append, List.nodup_append]
    refine ⟨h.spent_nodup, ?_, ?_⟩
    · cases l.held k <;> simp
    · -- What was held has not been given away before.
      intro q hq q' hq' heq
      obtain ⟨y, hy, rfl⟩ := List.mem_map.mp hq
      obtain ⟨x, hx, rfl⟩ := List.mem_map.mp hq'
      exact h.held_unspent k x y (Option.mem_toList.mp hx) hy heq
  · intro i j x y hx hy
    rw [held_spend] at hx hy
    split_ifs at hx hy
    exact h.held_inj i j x y hx hy
  · intro j x y hx hy
    rw [held_spend] at hx
    split_ifs at hx with hj
    rcases List.mem_append.mp hy with hy | hy
    · exact h.held_unspent j x y hx hy
    · intro hplace
      exact hj (h.held_inj j k x y hx (Option.mem_toList.mp hy) hplace.symm)

end Ledger

end SheetRecords
