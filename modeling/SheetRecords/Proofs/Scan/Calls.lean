import SheetRecords.Proofs.Scan.Lookup

/-!
# Any sequence of calls

A scan visits cells in order, but a field may be asked about any cells, again and again, and be
marked as used at any time.  Whatever the calls are, the cursor of a list never goes back and never
leaves the list, a metric value that was marked as used is not given again, and marks are of no
consequence for a field that is not a metric (`safe_under_calls`).

All of this follows from what one visit does to a cursor that stands somewhere in the list
(`PlannedField.Moves`): it stays as it is or goes on to a later entry that has not been used, and
what is contributed is the value of the entry where it then stands.
-/

namespace SheetRecords

open Cell

/-- A contribution at a visited cell that comes from an entry: it is exact at the cell of the entry,
and nearby on the rest of its sheet. -/
def Entry.Gives (s : Scan) (v : Visit) (e : Entry) (r : Resolution) : Prop :=
  e.position = v.position ∧ r = .exact ((e.value? s).getD v.value) ∨
    e.position < v.position ∧ e.position.rank = v.position.rank ∧
      ∃ x, e.value? s = some x ∧ r = .nearby x

namespace Cursor

@[simp]
theorem position_moveTo (c : Cursor) (i : Nat) : (c.moveTo i).position = i := by
  unfold moveTo
  split_ifs with h
  · exact h.symm
  · rfl

theorem moveTo_position (c : Cursor) : c.moveTo c.position = c :=
  if_pos rfl

theorem used_moveTo_of_ne {c : Cursor} {i : Nat} (h : i ≠ c.position) :
    (c.moveTo i).used = false := by
  rw [moveTo, if_neg h]

/-- The cursor has gone beyond an entry, or stands at it after its value was used. -/
def IsPast (c : Cursor) (i : Nat) : Prop :=
  i < c.position ∨ c.position = i ∧ c.used = true

theorem isPast_markUsed (c : Cursor) : c.markUsed.IsPast c.position :=
  .inr ⟨rfl, rfl⟩

theorem IsPast.markUsed {c : Cursor} {i : Nat} (h : c.IsPast i) : c.markUsed.IsPast i :=
  h.imp_right fun h => ⟨h.1, rfl⟩

end Cursor

namespace PlannedField

variable {f : PlannedField} {s : Scan} {entries : Array Entry}

/-! ### One visit -/

/-- What a visit makes of a cursor: what is contributed, and where the cursor stands afterwards. -/
structure Moves (f : PlannedField) (s : Scan) (entries : Array Entry) (v : Visit) (c : Cursor)
    (r : Resolution) (c' : Cursor) : Prop where
  /-- The cursor does not go back. -/
  le : c.position ≤ c'.position
  /-- It stays in the list. -/
  lt_size : c'.position < entries.size
  /-- Where it does not move nothing changes. -/
  eq_of_position_eq : c'.position = c.position → c' = c
  /-- A value has not been used before. -/
  unspent : r.value?.isSome = true → f.isSpent c' = false
  /-- A value is that of the entry where the cursor stands afterwards. -/
  gives : r.value?.isSome = true → entries[c'.position].Gives s v r

/-- Contributing nothing is in order wherever the cursor stands. -/
theorem Moves.none {v : Visit} {c c' : Cursor} (hle : c.position ≤ c'.position)
    (hlt : c'.position < entries.size) (heq : c'.position = c.position → c' = c) :
    f.Moves s entries v c .none c' :=
  ⟨hle, hlt, heq, nofun, nofun⟩

/-- **One visit**, of any cell and from any place in the list. -/
theorem moves_resolveList (hsorted : EntriesSorted entries.toList) {c : Cursor}
    (hc : c.position < entries.size) (v : Visit) :
    f.Moves s entries v c (f.resolveList s entries v c).1 (f.resolveList s entries v c).2 := by
  have hnext := firstAfter_eq_max hsorted (p := v.position) hc.le
  have hstay : f.Moves s entries v c .none c := .none le_rfl hc fun _ => rfl
  rw [resolveList, Array.getElem?_eq_getElem hc]
  by_cases hat : entries[c.position].position = v.position
  · -- The scan is at the current entry.
    simp only [if_pos hat]
    cases hspent : f.isSpent c with
    | true => exact hstay
    | false =>
      refine ⟨le_rfl, hc, fun _ => rfl, fun _ => hspent, fun _ => ?_⟩
      exact .inl ⟨hat, rfl⟩
  · simp only [if_neg hat, hnext]
    by_cases hle : reached entries.toList v.position ≤ c.position
    · -- No entry after the current one is reached.
      rw [max_eq_left hle, Nat.sub_self]
      exact hstay
    · have hlength := reached_le_length entries.toList v.position
      rw [Array.length_toList] at hlength
      rw [max_eq_right (by omega)]
      obtain ⟨k, hk⟩ : ∃ k, reached entries.toList v.position = c.position + k + 1 :=
        ⟨reached entries.toList v.position - c.position - 1, by omega⟩
      have hlt : c.position + k < entries.size := by omega
      have hreached : entries[c.position + k].position ≤ v.position := by
        have h := lt_reached_iff hsorted (p := v.position) (i := c.position + k)
          (by simpa using hlt)
        rw [Array.getElem_toList] at h
        exact h.mp (by omega)
      rw [hk, Nat.add_sub_cancel, Array.getElem?_eq_getElem hlt,
        show c.position + k + 1 - c.position = k + 1 by omega]
      have hle' : c.position ≤ (c.moveTo (c.position + k)).position := by
        rw [Cursor.position_moveTo]
        omega
      have hlt' : (c.moveTo (c.position + k)).position < entries.size := by
        rw [Cursor.position_moveTo]
        exact hlt
      have hsame : (c.moveTo (c.position + k)).position = c.position →
          c.moveTo (c.position + k) = c := by
        rw [Cursor.position_moveTo]
        intro h
        rw [h, Cursor.moveTo_position]
      simp only
      by_cases hfound : entries[c.position + k].position = v.position
      · -- The entry found is not the current one, and so has not been used.
        have hne : c.position + k ≠ c.position := by
          intro h
          simp only [h] at hfound
          exact hat hfound
        rw [if_pos hfound]
        refine ⟨hle', hlt', hsame, fun _ => ?_, fun _ => ?_⟩
        · rw [isSpent, Cursor.used_moveTo_of_ne hne, Bool.and_false]
        · simp only [Cursor.position_moveTo]
          exact .inl ⟨hfound, rfl⟩
      · rw [if_neg hfound]
        split_ifs with hno
        · exact .none hle' hlt' hsame
        · simp only [ne_eq, Bool.or_eq_true, decide_eq_true_eq, not_or, not_not,
            Bool.not_eq_true] at hno
          cases hvalue : entries[c.position + k].value? s with
          | none => exact .none hle' hlt' hsame
          | some x =>
            refine ⟨hle', hlt', hsame, fun _ => hno.2, fun _ => ?_⟩
            simp only [Cursor.position_moveTo]
            exact .inr ⟨lt_of_le_of_ne hreached hfound, hno.1, x, hvalue, rfl⟩

/-- An entry that the cursor is past stays behind it, and no value comes from it. -/
theorem Moves.isPast {v : Visit} {c c' : Cursor} {r : Resolution}
    (h : f.Moves s entries v c r c') {i : Nat} (hi : c.IsPast i) : c'.IsPast i := by
  rcases h.le.eq_or_lt with heq | hlt
  · rwa [h.eq_of_position_eq heq.symm]
  · rcases hi with hi | ⟨rfl, -⟩
    · exact .inl (hi.trans hlt)
    · exact .inl hlt

theorem Moves.lt_of_isSome {v : Visit} {c c' : Cursor} {r : Resolution}
    (h : f.Moves s entries v c r c') (hmetric : f.isMetric = true) {i : Nat} (hi : c.IsPast i)
    (hr : r.value?.isSome = true) : i < c'.position := by
  have hunspent := h.unspent hr
  rw [isSpent, hmetric, Bool.true_and] at hunspent
  rcases h.isPast hi with hlt | ⟨-, hused⟩
  · exact hlt
  · rw [hunspent] at hused
    cases hused

/-! ### Any calls -/

section Calls

variable (hl : f.plan = .list entries) (hsorted : EntriesSorted entries.toList)
include hl hsorted

/-- **The cursor stays in the list and does not go back.** -/
theorem position_follow {c : Cursor} (hc : c.position < entries.size) (calls : List ScanEvent) :
    c.position ≤ (f.follow s c calls).2.position ∧
      (f.follow s c calls).2.position < entries.size := by
  induction calls generalizing c with
  | nil => exact ⟨le_rfl, hc⟩
  | cons call calls ih =>
    cases call with
    | visit v =>
      have hmoves := moves_resolveList (f := f) (s := s) hsorted hc v
      rw [follow, resolve_list hl]
      obtain ⟨hle, hlt⟩ := ih hmoves.lt_size
      exact ⟨hmoves.le.trans hle, hlt⟩
    | mark => exact ih (c := c.markUsed) hc

/-- What the cursor is past it stays past. -/
theorem isPast_follow {c : Cursor} (hc : c.position < entries.size) {i : Nat} (hi : c.IsPast i)
    (calls : List ScanEvent) : (f.follow s c calls).2.IsPast i := by
  induction calls generalizing c with
  | nil => exact hi
  | cons call calls ih =>
    cases call with
    | visit v =>
      have hmoves := moves_resolveList (f := f) (s := s) hsorted hc v
      rw [follow, resolve_list hl]
      exact ih hmoves.lt_size (hmoves.isPast hi)
    | mark => exact ih (c := c.markUsed) hc hi.markUsed

end Calls

/-- Unless the field is a metric, only the place of the cursor counts. -/
theorem resolveList_congr (entries : Array Entry) (hmetric : f.isMetric = false) {c c' : Cursor}
    (h : c'.position = c.position) (v : Visit) :
    (f.resolveList s entries v c').1 = (f.resolveList s entries v c).1 ∧
      (f.resolveList s entries v c').2.position = (f.resolveList s entries v c).2.position := by
  have hspent : ∀ c, f.isSpent c = false := by
    intro c
    rw [isSpent, hmetric, Bool.false_and]
  simp only [resolveList, h, hspent, Bool.or_false, Bool.false_eq_true, if_false]
  cases entries[c.position]? with
  | none => exact ⟨rfl, h⟩
  | some current =>
    by_cases hat : current.position = v.position
    · simp only [if_pos hat]
      exact ⟨trivial, h⟩
    · simp only [if_neg hat]
      generalize firstAfter entries v.position c.position = next
      cases next - c.position with
      | zero => exact ⟨rfl, h⟩
      | succ k =>
        cases entries[next - 1]? with
        | none => exact ⟨rfl, h⟩
        | some e =>
          -- Both cursors move to the entry found, and it alone decides.
          simp only
          split_ifs
          · simp
          · simp
          · cases e.value? s <;> simp

/-- **Marks are of no consequence** unless the field is a metric. -/
theorem follow_visits (hl : f.plan = .list entries) (hmetric : f.isMetric = false) {c c' : Cursor}
    (h : c'.position = c.position) (calls : List ScanEvent) :
    (f.follow s c' ((visitsOf calls).map .visit)).1 = (f.follow s c calls).1 := by
  induction calls generalizing c c' with
  | nil => rfl
  | cons call calls ih =>
    cases call with
    | visit v =>
      obtain ⟨hresult, hposition⟩ := resolveList_congr (s := s) entries hmetric h v
      simp only [visitsOf, List.map_cons, follow, resolve_list hl]
      rw [hresult, ih hposition]
    | mark => exact ih (c := c.markUsed) h

/-! ### Safety -/

/-- **A list is safe under any calls.**  Take a list that was planned, and any calls: cells that are
visited in any order, repeatedly and whether they hold anything or not, and marks at any moment.

* The cursor does not go back from one call to a later one, and there always is an entry where it
  stands.
* A value that a metric gives after a mark comes from the entry where the cursor then stands, and
  that entry is behind the one where it stood when it was marked.
* A field that is not a metric contributes at all visits the same as without the marks. -/
theorem safe_under_calls {field : Field} {f : PlannedField} {s : Scan} {entries : Array Entry}
    (hf : field.plan s.order = .ok f) (hl : f.plan = .list entries) (calls : List ScanEvent) :
    (∀ before after, calls = before ++ after →
      (f.follow s .start before).2.position ≤ (f.follow s .start calls).2.position) ∧
    (f.follow s .start calls).2.position < entries.size ∧
    (f.isMetric = true → ∀ before between v, calls = before ++ .mark :: between ++ [.visit v] →
      let r := (f.resolve s v (f.follow s .start (before ++ .mark :: between)).2).1
      r.value?.isSome = true →
        (f.follow s .start before).2.position < (f.follow s .start calls).2.position ∧
        ∃ e, entries[(f.follow s .start calls).2.position]? = some e ∧ e.Gives s v r) ∧
    (f.isMetric = false →
      (f.follow s .start ((visitsOf calls).map .visit)).1 = (f.follow s .start calls).1) := by
  have hsorted : EntriesSorted entries.toList := by
    have := Field.isSorted_plan hf
    rwa [hl] at this
  have hstart : Cursor.start.position < entries.size := Field.size_pos_of_plan hf hl
  have hlt := fun calls => (position_follow (s := s) hl hsorted hstart calls).2
  refine ⟨?_, hlt calls, ?_, ?_⟩
  · rintro before after rfl
    rw [follow_append]
    exact (position_follow hl hsorted (hlt before) after).1
  · rintro hmetric before between v rfl
    intro r hr
    -- From the mark on the cursor is past the entry where it stood.
    have hpast : (f.follow s .start (before ++ .mark :: between)).2.IsPast
        (f.follow s .start before).2.position := by
      rw [follow_append]
      exact isPast_follow (c := (f.follow s .start before).2.markUsed) hl hsorted (hlt before)
        (Cursor.isPast_markUsed _) between
    have hmoves := moves_resolveList (f := f) (s := s) hsorted (hlt (before ++ .mark :: between)) v
    have hlast : (f.follow s .start (before ++ .mark :: between ++ [.visit v])).2 =
        (f.resolveList s entries v (f.follow s .start (before ++ .mark :: between)).2).2 := by
      rw [follow_append, ← resolve_list hl]
      rfl
    have hvalue : r = (f.resolveList s entries v
        (f.follow s .start (before ++ .mark :: between)).2).1 := by
      rw [← resolve_list hl]
    rw [hvalue] at hr ⊢
    rw [hlast]
    exact ⟨hmoves.lt_of_isSome hmetric hpast hr,
      _, Array.getElem?_eq_getElem hmoves.lt_size, hmoves.gives hr⟩
  · intro hmetric
    exact follow_visits hl hmetric rfl calls

/-- After the first total was marked, going back to it gives nothing, and the next value is that of
the second total. -/
theorem safe_under_calls_back_and_forth :
    let f : PlannedField := ⟨"total", true, none, .list totalsEntries⟩
    let first : Visit := ⟨⟨.sheet 0, ⟨0, 0⟩⟩, .boolean true⟩
    let second : Visit := ⟨⟨.sheet 0, ⟨2, 0⟩⟩, .boolean true⟩
    let calls : List ScanEvent := [.visit first, .mark, .visit first, .visit second]
    (f.follow totalsScan .start calls).1 =
        [.exact (.boolean true), .none, .exact (.boolean true)] ∧
      (f.follow totalsScan .start [.visit first]).2.position <
        (f.follow totalsScan .start calls).2.position ∧
      (f.follow totalsScan .start calls).2.position < totalsEntries.size := by
  intro f first second calls
  have hf : totalsField.plan totalsScan.order = .ok f := by cbv
  obtain ⟨-, hlt, hmetric, -⟩ := safe_under_calls hf rfl calls
  have hvalue : (f.resolve totalsScan second
      (f.follow totalsScan .start [.visit first, .mark, .visit first]).2).1.value?.isSome =
        true := by
    cbv
  have hbehind := (hmetric rfl [.visit first] [.visit first] second rfl hvalue).1
  refine ⟨?_, hbehind, hlt⟩
  cbv

end PlannedField

end SheetRecords
