import Mathlib
import SheetRecords.Proofs.Scan.Plan
import SheetRecords.Scan.Cursor

/-!
# Following a list is looking up its last entry

A list field answers from a cursor that only moves forward.  What it answers depends on no cursor:
the last entry that does not lie after the visited cell decides (`lastUpTo`), together with whether
the field was marked as used since that entry was reached (`resolveList_eq_answer`).

The cursor is kept at the entry last reached (`Cursor.Follows`), and a field without an entry
reached so far has an unused cursor.  `resolve_eq_lookup` states the outcome for a whole history of
visits and marks.
-/

namespace SheetRecords

open Cell

/-! ### Entries reached -/

/-- The number of entries that do not lie after a position. -/
def reached (entries : List Entry) (p : Position) : Nat :=
  entries.countP fun e => e.position ≤ p

/-- The last entry that does not lie after a position. -/
def lastUpTo (entries : List Entry) (p : Position) : Option Entry :=
  (entries.filter fun e => e.position ≤ p).getLast?

/-- No entry lies before the first one. -/
theorem reached_cons_of_lt {e : Entry} {rest : List Entry} (hsorted : EntriesSorted (e :: rest))
    {p : Position} (hp : p < e.position) : reached (e :: rest) p = 0 := by
  rw [EntriesSorted, List.pairwise_cons] at hsorted
  refine List.countP_eq_zero.mpr ?_
  intro x hx
  rw [decide_eq_true_eq, not_le]
  rcases List.mem_cons.mp hx with rfl | hx
  · exact hp
  · exact hp.trans (hsorted.1 x hx)

/-- The entries reached are the first ones. -/
theorem filter_le_eq_take {entries : List Entry} (hsorted : EntriesSorted entries) (p : Position) :
    (entries.filter fun e => e.position ≤ p) = entries.take (reached entries p) := by
  induction entries with
  | nil => rfl
  | cons e rest ih =>
    by_cases hle : e.position ≤ p
    · rw [List.filter_cons_of_pos (by simpa using hle), reached,
        List.countP_cons_of_pos (by simpa using hle), List.take_succ_cons]
      rw [EntriesSorted, List.pairwise_cons] at hsorted
      rw [ih hsorted.2, reached]
    · rw [reached_cons_of_lt hsorted (not_le.mp hle), List.take_zero, List.filter_eq_nil_iff]
      intro x hx hxp
      have := List.countP_eq_zero.mp (reached_cons_of_lt hsorted (not_le.mp hle)) x hx
      exact this hxp

/-- An entry is reached if it does not lie after the position. -/
theorem lt_reached_iff {entries : List Entry} (hsorted : EntriesSorted entries) {p : Position}
    {i : Nat} (hi : i < entries.length) :
    i < reached entries p ↔ entries[i].position ≤ p := by
  induction entries generalizing i with
  | nil => simp at hi
  | cons e rest ih =>
    by_cases hle : e.position ≤ p
    · have hcount : reached (e :: rest) p = reached rest p + 1 := by
        rw [reached, List.countP_cons_of_pos (by simpa using hle), reached]
      rw [hcount]
      cases i with
      | zero => simpa using hle
      | succ i =>
        rw [EntriesSorted, List.pairwise_cons] at hsorted
        rw [Nat.succ_lt_succ_iff, List.getElem_cons_succ]
        exact ih hsorted.2 (Nat.lt_of_succ_lt_succ hi)
    · -- If the first entry lies after the position, so do all others.
      rw [reached_cons_of_lt hsorted (not_le.mp hle)]
      have hnot := List.countP_eq_zero.mp (reached_cons_of_lt hsorted (not_le.mp hle)) _
        (List.getElem_mem hi)
      simpa using hnot

theorem reached_le_length (entries : List Entry) (p : Position) :
    reached entries p ≤ entries.length :=
  List.countP_le_length

theorem reached_mono (entries : List Entry) {p q : Position} (h : p ≤ q) :
    reached entries p ≤ reached entries q := by
  refine List.countP_mono_left ?_
  intro e _ he
  rw [decide_eq_true_eq] at he ⊢
  exact he.trans h

/-- The entry last reached, by its place. -/
theorem lastUpTo_eq_getElem? {entries : List Entry} (hsorted : EntriesSorted entries)
    {p : Position} (h : reached entries p ≠ 0) :
    lastUpTo entries p = entries[reached entries p - 1]? := by
  have hle := reached_le_length entries p
  have hlt : reached entries p - 1 < entries.length := by omega
  rw [lastUpTo, filter_le_eq_take hsorted, List.getLast?_take, if_neg h,
    List.getElem?_eq_getElem hlt, Option.some_or]

theorem lastUpTo_eq_none_iff {entries : List Entry} {p : Position} :
    lastUpTo entries p = none ↔ reached entries p = 0 := by
  rw [lastUpTo, List.getLast?_eq_none_iff, List.filter_eq_nil_iff, reached, List.countP_eq_zero]

/-- The entry last reached is an entry of the list and does not lie after the position. -/
theorem mem_of_lastUpTo {entries : List Entry} {p : Position} {e : Entry}
    (h : lastUpTo entries p = some e) : e ∈ entries ∧ e.position ≤ p := by
  have hmem := List.mem_of_getLast? h
  rw [List.mem_filter, decide_eq_true_eq] at hmem
  exact hmem

/-- Positions up to which as many entries are reached share the entry last reached. -/
theorem lastUpTo_congr {entries : List Entry} (hsorted : EntriesSorted entries) {p q : Position}
    (h : reached entries p = reached entries q) : lastUpTo entries p = lastUpTo entries q := by
  rw [lastUpTo, lastUpTo, filter_le_eq_take hsorted, filter_le_eq_take hsorted, h]

/-- A position from which fewer entries are reached lies before the entry last reached. -/
theorem lt_of_lastUpTo {entries : List Entry} (hsorted : EntriesSorted entries) {p q : Position}
    (h : reached entries q < reached entries p) {e : Entry} (he : lastUpTo entries p = some e) :
    q < e.position := by
  rw [lastUpTo_eq_getElem? hsorted (by omega)] at he
  obtain ⟨hi, rfl⟩ := List.getElem?_eq_some_iff.mp he
  rw [← not_le, ← lt_reached_iff hsorted hi]
  omega

/-- No entry lies between the one last reached and the position. -/
theorem reached_eq_of_lastUpTo {entries : List Entry} (hsorted : EntriesSorted entries)
    {p q : Position} {e : Entry} (he : lastUpTo entries p = some e) (hq : e.position ≤ q)
    (hqp : q ≤ p) : reached entries p = reached entries q := by
  have hle := reached_mono entries hqp
  have hnot : ¬ reached entries q < reached entries p := by
    intro hlt
    exact absurd (lt_of_lastUpTo hsorted hlt he) (not_lt.mpr hq)
  omega

/-- The search for the first entry after a position ends at the number of entries reached, unless it
begins beyond. -/
theorem firstAfter_eq_max {entries : Array Entry} (hsorted : EntriesSorted entries.toList)
    {p : Position} {i : Nat} (hi : i ≤ entries.size) :
    firstAfter entries p i = max i (reached entries.toList p) := by
  have hle := reached_le_length entries.toList p
  rw [Array.length_toList] at hle
  fun_induction firstAfter entries p i with
  | case1 i hlt hgt =>
    have hnot : ¬ i < reached entries.toList p := by
      rw [lt_reached_iff hsorted (by simpa using hlt), not_le]
      exact compare_gt_iff_gt.mp hgt
    omega
  | case2 i hlt hgt ih =>
    have hreached : i < reached entries.toList p := by
      rw [lt_reached_iff hsorted (by simpa using hlt)]
      exact compare_le_iff_le.mp hgt
    rw [ih hlt]
    omega
  | case3 i hlt => omega

/-! ### One visit -/

/-- What the grid holds at the visited cell, if anything, is the value that it is visited with. -/
def Scan.Agrees (s : Scan) (v : Visit) : Prop :=
  ∀ x, s.value? v.position = some x → x = v.value

theorem Scan.agrees_of_mem_visits {s : Scan} (hs : s.grid.IsLawful) {v : Visit}
    (hv : v ∈ s.visits) : s.Agrees v := by
  intro x hx
  exact Option.some.inj (hx.symm.trans (Scan.value?_of_mem_visits hs hv))

/-- What a list contributes at a visited cell, by the entry last reached; `spent` says whether the
value of that entry may not be used again. -/
def Scan.answer (s : Scan) (last : Option Entry) (spent : Bool) (v : Visit) : Resolution :=
  match last with
  | none => .none
  | some e =>
    if e.position = v.position then .exact (e.value.getD v.value)
    else if e.position.rank ≠ v.position.rank || spent then .none
    else
      match e.value? s with
      | some x => .nearby x
      | none => .none

@[simp]
theorem Scan.answer_none (s : Scan) (spent : Bool) (v : Visit) :
    s.answer none spent v = .none := rfl

theorem Scan.answer_of_eq {s : Scan} {e : Entry} {v : Visit} (h : e.position = v.position)
    (spent : Bool) : s.answer (some e) spent v = .exact (e.value.getD v.value) :=
  if_pos h

/-- Only an entry at the visited cell has an exact value. -/
theorem Scan.answer_ne_exact {s : Scan} {e : Entry} {v : Visit} (h : e.position ≠ v.position)
    (spent : Bool) (x : Value) : s.answer (some e) spent v ≠ .exact x := by
  simp only [Scan.answer, if_neg h]
  split_ifs
  · simp
  · cases e.value? s <;> simp

/-- Only an entry on the sheet of the visited cell has a say. -/
theorem Scan.answer_congr {s s' : Scan} {last : Option Entry} {spent spent' : Bool} {v : Visit}
    (h : ∀ e ∈ last, e.position.rank = v.position.rank →
      spent' = spent ∧ e.value? s' = e.value? s) :
    s'.answer last spent' v = s.answer last spent v := by
  cases last with
  | none => rfl
  | some e =>
    by_cases hrank : e.position.rank = v.position.rank
    · obtain ⟨hspent, hvalue⟩ := h e rfl hrank
      simp only [Scan.answer, hspent, hvalue]
    · have hposition : e.position ≠ v.position := fun heq => hrank (congrArg _ heq)
      simp [Scan.answer, hposition, hrank]

/-- The number of entries reached by a scan that stands at a position, or has not begun. -/
def reachedBy (entries : List Entry) (last : Option Position) : Nat :=
  last.elim 0 (reached entries)

/-- A cursor that stands at the entry last reached, and is not used before there is one. -/
structure Cursor.Follows (entries : List Entry) (last : Option Position) (c : Cursor) : Prop where
  position_eq : c.position = reachedBy entries last - 1
  used_eq_false : reachedBy entries last = 0 → c.used = false

/-- The cursor after the scan has come from one position to the next. -/
def Cursor.advance (c : Cursor) (entries : List Entry) (last : Option Position) (p : Position) :
    Cursor :=
  if reached entries p = reachedBy entries last then c else ⟨reached entries p - 1, false⟩

/-- At an entry that was not reached before, a cursor is not used. -/
theorem Cursor.used_advance_of_new {entries : List Entry} {last : Option Position} {p : Position}
    {e : Entry} (he : lastUpTo entries p = some e) (hsorted : EntriesSorted entries)
    (hnew : ∀ q ∈ last, q < e.position) (c : Cursor) :
    (c.advance entries last p).used = false := by
  have hne : reached entries p ≠ reachedBy entries last := by
    intro heq
    cases last with
    | none => exact Option.some_ne_none e (he.symm.trans (lastUpTo_eq_none_iff.mpr heq))
    | some q =>
      rw [lastUpTo_congr hsorted heq] at he
      exact absurd (hnew q rfl) (not_lt.mpr (mem_of_lastUpTo he).2)
  rw [advance, if_neg hne]

/-- As long as no further entry is reached, a cursor stays as it is. -/
theorem Cursor.advance_of_lastUpTo {entries : List Entry} (hsorted : EntriesSorted entries)
    {p q : Position} {e : Entry} (he : lastUpTo entries p = some e) (hq : e.position ≤ q)
    (hqp : q ≤ p) (c : Cursor) : c.advance entries (some q) p = c :=
  if_pos (reached_eq_of_lastUpTo hsorted he hq hqp)

theorem Cursor.follows_start (entries : List Entry) : Cursor.start.Follows entries none :=
  ⟨rfl, fun _ => rfl⟩

theorem Cursor.Follows.advance {entries : List Entry} {last : Option Position} {c : Cursor}
    (hc : c.Follows entries last) (p : Position) :
    (c.advance entries last p).Follows entries (some p) := by
  rw [Cursor.advance]
  split_ifs with heq
  · refine ⟨?_, ?_⟩
    · rw [hc.position_eq, ← heq]
      rfl
    · intro hzero
      exact hc.used_eq_false (heq ▸ hzero)
  · exact ⟨rfl, fun _ => rfl⟩

/-- A cursor may be marked once an entry has been reached. -/
theorem Cursor.Follows.markUsed {entries : List Entry} {last : Option Position} {c : Cursor}
    (hc : c.Follows entries last) (h : reachedBy entries last ≠ 0) :
    c.markUsed.Follows entries last :=
  ⟨hc.position_eq, fun hzero => absurd hzero h⟩

/-- The value of the entry at the visited cell is the one known beforehand, or the visited one. -/
theorem getD_value?_of_agrees {s : Scan} {e : Entry} {v : Visit} (hv : s.Agrees v)
    (he : e.position = v.position) : (e.value? s).getD v.value = e.value.getD v.value := by
  rw [Entry.value?]
  cases hvalue : e.value with
  | some x => rfl
  | none =>
    change (s.value? e.position).getD v.value = v.value
    cases hgrid : s.value? e.position with
    | none => rfl
    | some x => exact hv x (he ▸ hgrid)

theorem reachedBy_le (entries : List Entry) {last : Option Position} {p : Position}
    (hlast : ∀ q ∈ last, q < p) : reachedBy entries last ≤ reached entries p := by
  cases last with
  | none => exact Nat.zero_le _
  | some q => exact reached_mono _ (hlast q rfl).le

/-- To move a cursor that follows the scan to the entry last reached is to let it follow on. -/
theorem Cursor.Follows.moveTo_eq {entries : List Entry} {last : Option Position} {c : Cursor}
    (hc : c.Follows entries last) {p : Position} (hle : reachedBy entries last ≤ reached entries p)
    (hpos : 0 < reached entries p) :
    c.moveTo (reached entries p - 1) = c.advance entries last p := by
  obtain ⟨position, used⟩ := c
  obtain ⟨hposition, hused⟩ := hc
  simp only at hposition hused
  simp only [Cursor.moveTo, Cursor.advance]
  by_cases heq : reached entries p = reachedBy entries last
  · rw [if_pos heq, if_pos (by omega)]
  · rw [if_neg heq]
    split_ifs with hsame
    · -- The first entry is reached, where the unused cursor already stands.
      rw [hused (by omega), ← hsame]
    · rfl

/-- The current entry of a cursor that follows the scan is at the visited cell only if it is the
first one and has just been reached. -/
theorem reached_of_current_eq {entries : List Entry} (hsorted : EntriesSorted entries)
    {last : Option Position} {c : Cursor} (hc : c.Follows entries last) {p : Position}
    (hlast : ∀ q ∈ last, q < p) (hi : c.position < entries.length)
    (heq : entries[c.position].position = p) :
    c = ⟨0, false⟩ ∧ reachedBy entries last = 0 ∧ reached entries p = 1 := by
  -- If the scan had reached an entry before, it would stand at or after the current one.
  have hzero : reachedBy entries last = 0 := by
    by_contra hsome
    cases last with
    | none => exact hsome rfl
    | some q =>
      have hposition : c.position = reached entries q - 1 := hc.position_eq
      have hne : reached entries q ≠ 0 := hsome
      have hle : entries[c.position].position ≤ q :=
        (lt_reached_iff hsorted hi).mp (by omega)
      exact absurd (hlast q rfl) (not_lt.mpr (heq ▸ hle))
  have hposition : c.position = 0 := by rw [hc.position_eq, hzero]
  have hused := hc.used_eq_false hzero
  refine ⟨?_, hzero, ?_⟩
  · obtain ⟨position, used⟩ := c
    simp only at hposition hused
    rw [hposition, hused]
  · have hfirst : 0 < reached entries p := by
      rw [lt_reached_iff hsorted (by omega), ← heq]
      simp only [hposition, le_refl]
    -- A second entry that is reached would lie after the first one, at the visited cell.
    by_contra hne
    have hlen := reached_le_length entries p
    have hsecond : entries[1].position ≤ p :=
      (lt_reached_iff hsorted (by omega)).mp (by omega)
    have hlt : entries[0].position < entries[1].position :=
      List.pairwise_iff_getElem.mp hsorted 0 1 (by omega) (by omega) Nat.zero_lt_one
    simp only [hposition] at heq
    exact absurd (heq ▸ hlt) (not_lt.mpr hsecond)

/-- **One visit.**  A list whose cursor follows the scan answers by the entry last reached, and its
cursor follows on. -/
theorem resolveList_eq_answer {f : PlannedField} {s : Scan} {entries : Array Entry}
    (hsorted : EntriesSorted entries.toList) {last : Option Position} {c : Cursor}
    (hc : c.Follows entries.toList last) {v : Visit} (hlast : ∀ q ∈ last, q < v.position)
    (hv : s.Agrees v) :
    f.resolveList s entries v c =
      (s.answer (lastUpTo entries.toList v.position)
          (f.isSpent (c.advance entries.toList last v.position)) v,
        c.advance entries.toList last v.position) := by
  have hle := reachedBy_le entries.toList hlast
  have hsize : reached entries.toList v.position ≤ entries.size := by
    simpa using reached_le_length entries.toList v.position
  have hposition := hc.position_eq
  have hnext : ∀ hi : c.position ≤ entries.size,
      firstAfter entries v.position c.position = reached entries.toList v.position := by
    intro hi
    rw [firstAfter_eq_max hsorted hi]
    omega
  rw [PlannedField.resolveList]
  by_cases hzero : reached entries.toList v.position = 0
  · -- No entry is reached.
    have hadvance : c.advance entries.toList last v.position = c := by
      rw [Cursor.advance, if_pos (by omega)]
    rw [lastUpTo_eq_none_iff.mpr hzero, hadvance]
    cases hcurrent : entries[c.position]? with
    | none => rfl
    | some current =>
      obtain ⟨hi, hcurrent⟩ := Array.getElem?_eq_some_iff.mp hcurrent
      have hne : current.position ≠ v.position := by
        intro heq
        have := reached_of_current_eq hsorted hc hlast (by simpa using hi) (by simpa [hcurrent])
        omega
      simp only [if_neg hne, hnext hi.le, hzero, Nat.zero_sub]
      rfl
  · have hlt : reached entries.toList v.position - 1 < entries.size := by omega
    have hi : c.position < entries.size := by omega
    have hmove := hc.moveTo_eq hle (Nat.pos_of_ne_zero hzero)
    rw [lastUpTo_eq_getElem? hsorted hzero, Array.getElem?_toList, Array.getElem?_eq_getElem hlt,
      Array.getElem?_eq_getElem hi]
    by_cases heq : entries[c.position].position = v.position
    · -- The scan comes to the first entry, and so to the current one.
      obtain ⟨rfl, hnone, hone⟩ :=
        reached_of_current_eq hsorted hc hlast (by simpa using hi) (by simpa using heq)
      have hadvance : Cursor.advance ⟨0, false⟩ entries.toList last v.position = ⟨0, false⟩ := by
        rw [Cursor.advance, if_neg (by omega), hone]
      simp only [hone, Nat.sub_self] at heq ⊢
      rw [if_pos heq, hadvance, getD_value?_of_agrees hv heq]
      simp [PlannedField.isSpent, Scan.answer, heq]
    · simp only [if_neg heq, hnext hi.le, Array.getElem?_eq_getElem hlt, hmove]
      -- The search goes past the current entry, and the one before its end answers.
      obtain ⟨k, hk⟩ : ∃ k, reached entries.toList v.position - c.position = k + 1 :=
        ⟨reached entries.toList v.position - c.position - 1, by omega⟩
      rw [hk]
      simp only [Scan.answer]
      by_cases hat : entries[reached entries.toList v.position - 1].position = v.position
      · rw [if_pos hat, if_pos hat, getD_value?_of_agrees hv hat]
      · rw [if_neg hat, if_neg hat]
        split_ifs
        · rfl
        · cases entries[reached entries.toList v.position - 1].value? s <;> rfl

/-! ### Histories -/

/-- What happens to a list field during a scan. -/
inductive ScanEvent where
  /-- A cell is visited. -/
  | visit (v : Visit)
  /-- The current value of the field goes into a record. -/
  | mark

/-- The cells that are visited. -/
def visitsOf : List ScanEvent → List Visit
  | [] => []
  | .visit v :: events => v :: visitsOf events
  | .mark :: events => visitsOf events

/-- Whether the field is marked as used after the first visit that does not lie before a
position. -/
def markedSince (p : Position) : List ScanEvent → Bool
  | [] => false
  | .visit v :: events =>
    if p ≤ v.position then events.any (· matches .mark) else markedSince p events
  | .mark :: events => markedSince p events

namespace PlannedField

/-- What the field contributes at the visits of a history, and its cursor after them. -/
def follow (f : PlannedField) (s : Scan) (c : Cursor) : List ScanEvent → List Resolution × Cursor
  | [] => ([], c)
  | .visit v :: events =>
    let (r, c) := f.resolve s v c
    let (rs, c) := f.follow s c events
    (r :: rs, c)
  | .mark :: events => f.follow s c.markUsed events

/-- The field is marked as used only after it has contributed some value. -/
def MarksFollowValues (f : PlannedField) (s : Scan) (events : List ScanEvent) : Prop :=
  ∀ before after, events = before ++ .mark :: after →
    ∃ r ∈ (f.follow s .start before).1, r.value?.isSome

/-- What a list contributes at a visited cell after a history, without a cursor: the last entry that
does not lie after the cell decides.  At the cell of the entry its value is exact; elsewhere on its
sheet it is nearby, unless a metric was marked as used since the scan came to the entry. -/
def lookup (f : PlannedField) (s : Scan) (entries : List Entry) (events : List ScanEvent)
    (v : Visit) : Resolution :=
  match lastUpTo entries v.position with
  | none => .none
  | some e =>
    if e.position = v.position then .exact (e.value.getD v.value)
    else if e.position.rank ≠ v.position.rank then .none
    else if f.isMetric && markedSince e.position events then .none
    else
      match e.value? s with
      | some x => .nearby x
      | none => .none

end PlannedField

@[simp]
theorem visitsOf_append (events events' : List ScanEvent) :
    visitsOf (events ++ events') = visitsOf events ++ visitsOf events' := by
  induction events with
  | nil => rfl
  | cons event events ih => cases event <;> simp [visitsOf, ih]

/-- A visit after a history is no mark. -/
theorem markedSince_append_visit (p : Position) (events : List ScanEvent) (v : Visit) :
    markedSince p (events ++ [.visit v]) = markedSince p events := by
  induction events with
  | nil => simp [markedSince]
  | cons event events ih =>
    cases event with
    | visit u => simp [markedSince, ih]
    | mark => exact ih

/-- Before the scan has come to a position there is no mark since then. -/
theorem markedSince_eq_false {p : Position} {events : List ScanEvent}
    (h : ∀ u ∈ visitsOf events, u.position < p) : markedSince p events = false := by
  induction events with
  | nil => rfl
  | cons event events ih =>
    cases event with
    | visit u =>
      have hu : ¬ p ≤ u.position := not_le.mpr (h u (List.mem_cons_self ..))
      rw [markedSince, if_neg hu]
      exact ih fun u' hu' => h u' (List.mem_cons_of_mem _ hu')
    | mark => exact ih h

/-- After the scan has come to a position every mark counts. -/
theorem markedSince_append_mark {p : Position} {events : List ScanEvent} {u : Visit}
    (hu : u ∈ visitsOf events) (hp : p ≤ u.position) :
    markedSince p (events ++ [.mark]) = true := by
  induction events with
  | nil => cases hu
  | cons event events ih =>
    cases event with
    | visit u' =>
      rw [List.cons_append, markedSince]
      split_ifs with hreach
      · simp
      · rcases List.mem_cons.mp hu with rfl | hu
        · exact absurd hp hreach
        · exact ih hu
    | mark => exact ih hu

namespace PlannedField

variable {f : PlannedField} {s : Scan}

theorem follow_append (f : PlannedField) (s : Scan) (c : Cursor) (events events' : List ScanEvent) :
    f.follow s c (events ++ events') =
      ((f.follow s c events).1 ++ (f.follow s (f.follow s c events).2 events').1,
        (f.follow s (f.follow s c events).2 events').2) := by
  induction events generalizing c with
  | nil => rfl
  | cons event events ih =>
    cases event with
    | visit v => simp [follow, ih]
    | mark => exact ih c.markUsed

theorem MarksFollowValues.of_append {events events' : List ScanEvent}
    (h : f.MarksFollowValues s (events ++ events')) : f.MarksFollowValues s events := by
  intro before after heq
  refine h before (after ++ events') ?_
  rw [heq, List.append_assoc, List.cons_append]

/-- The position where the scan stands after a history. -/
def standsAt (events : List ScanEvent) : Option Position :=
  (visitsOf events).getLast?.map (·.position)

/-- What holds of a list field after a history: its cursor follows the scan, it is used if there was
a mark since the scan came to the entry last reached, and without such an entry the field has had no
value. -/
structure Followed (f : PlannedField) (s : Scan) (entries : List Entry) (events : List ScanEvent) :
    Prop where
  follows : (f.follow s .start events).2.Follows entries (standsAt events)
  used_eq : ∀ q ∈ standsAt events, ∀ e ∈ lastUpTo entries q,
    (f.follow s .start events).2.used = markedSince e.position events
  no_value : reachedBy entries (standsAt events) = 0 →
    ∀ r ∈ (f.follow s .start events).1, r.value? = none

/-- The scan has come no further than to where it stands. -/
theorem le_of_standsAt {events : List ScanEvent}
    (hinc : (visitsOf events).Pairwise fun u v => u.position < v.position) {q : Position}
    (hq : q ∈ standsAt events) {u : Visit} (hu : u ∈ visitsOf events) : u.position ≤ q := by
  obtain ⟨w, hw, rfl⟩ := Option.map_eq_some_iff.mp hq
  obtain ⟨us, hus⟩ := List.getLast?_eq_some_iff.mp hw
  rw [hus] at hinc hu
  rcases List.mem_append.mp hu with hu | hu
  · exact ((List.pairwise_append.mp hinc).2.2 u hu w (List.mem_singleton_self w)).le
  · rw [List.mem_singleton.mp hu]

theorem followed_nil (entries : List Entry) : f.Followed s entries [] where
  follows := Cursor.follows_start entries
  used_eq q hq := by cases hq
  no_value _ r hr := by cases hr

theorem resolve_list {entries : Array Entry} (hl : f.plan = .list entries) (v : Visit)
    (c : Cursor) : f.resolve s v c = f.resolveList s entries v c := by
  rw [resolve, hl]

theorem standsAt_append_visit (events : List ScanEvent) (v : Visit) :
    standsAt (events ++ [.visit v]) = some v.position := by
  simp [standsAt, visitsOf]

theorem standsAt_append_mark (events : List ScanEvent) :
    standsAt (events ++ [.mark]) = standsAt events := by
  simp [standsAt, visitsOf]

/-- A mark keeps the invariant, since an entry has been reached if the field has had a value. -/
theorem Followed.mark {entries : List Entry} {events : List ScanEvent}
    (h : f.Followed s entries events) (hmarks : f.MarksFollowValues s (events ++ [.mark])) :
    f.Followed s entries (events ++ [.mark]) := by
  have hcursor : (f.follow s .start (events ++ [.mark])).2 =
      (f.follow s .start events).2.markUsed := by
    rw [follow_append]
    rfl
  have hresults : (f.follow s .start (events ++ [.mark])).1 = (f.follow s .start events).1 := by
    rw [follow_append]
    exact List.append_nil _
  have hreached : reachedBy entries (standsAt events) ≠ 0 := by
    intro hzero
    obtain ⟨r, hr, hvalue⟩ := hmarks events [] rfl
    rw [h.no_value hzero r hr] at hvalue
    cases hvalue
  refine ⟨?_, ?_, ?_⟩
  · rw [hcursor, standsAt_append_mark]
    exact h.follows.markUsed hreached
  · intro q hq e he
    rw [standsAt_append_mark] at hq
    obtain ⟨u, hu, rfl⟩ := Option.map_eq_some_iff.mp hq
    rw [hcursor, markedSince_append_mark (List.mem_of_getLast? hu) (mem_of_lastUpTo he).2]
    rfl
  · intro hzero
    rw [standsAt_append_mark] at hzero
    exact absurd hzero hreached

/-- A visit keeps the invariant. -/
theorem Followed.visit {entries : Array Entry} (hl : f.plan = .list entries)
    (hsorted : EntriesSorted entries.toList) {events : List ScanEvent}
    (h : f.Followed s entries.toList events) {v : Visit}
    (hinc : (visitsOf events).Pairwise fun u v => u.position < v.position)
    (hlast : ∀ q ∈ standsAt events, q < v.position) (hv : s.Agrees v) :
    f.Followed s entries.toList (events ++ [.visit v]) := by
  have hstep := resolveList_eq_answer (f := f) hsorted h.follows hlast hv
  rw [← resolve_list hl] at hstep
  have hcursor : (f.follow s .start (events ++ [.visit v])).2 =
      (f.follow s .start events).2.advance entries.toList (standsAt events) v.position := by
    rw [follow_append, follow, hstep]
    rfl
  have hresults : (f.follow s .start (events ++ [.visit v])).1 =
      (f.follow s .start events).1 ++ [(f.resolve s v (f.follow s .start events).2).1] := by
    rw [follow_append]
    rfl
  refine ⟨?_, ?_, ?_⟩
  · rw [hcursor, standsAt_append_visit]
    exact h.follows.advance v.position
  · intro q hq e he
    rw [standsAt_append_visit, Option.mem_some_iff] at hq
    subst hq
    rw [hcursor, markedSince_append_visit, Cursor.advance]
    have hpos : reached entries.toList v.position ≠ 0 := by
      rw [Ne, ← lastUpTo_eq_none_iff, he]
      exact Option.some_ne_none e
    split_ifs with hsame
    · -- The entry last reached is the one from before the visit.
      cases hq : standsAt events with
      | none =>
        rw [hq] at hsame
        exact absurd hsame hpos
      | some q =>
        rw [hq] at hsame
        exact h.used_eq q hq e (lastUpTo_congr hsorted hsame ▸ he)
    · -- The scan comes to an entry that no visit had reached.
      symm
      refine markedSince_eq_false ?_
      intro u hu
      cases hq : standsAt events with
      | none =>
        rw [standsAt, Option.map_eq_none_iff, List.getLast?_eq_none_iff] at hq
        rw [hq] at hu
        cases hu
      | some q =>
        have hle := reachedBy_le entries.toList hlast
        rw [hq] at hsame hle
        exact (le_of_standsAt hinc hq hu).trans_lt
          (lt_of_lastUpTo hsorted (lt_of_le_of_ne hle (Ne.symm hsame)) he)
  · intro hzero r hr
    rw [standsAt_append_visit] at hzero
    have hle := reachedBy_le entries.toList hlast
    have hzero : reached entries.toList v.position = 0 := hzero
    rw [hresults, hstep, lastUpTo_eq_none_iff.mpr hzero] at hr
    rcases List.mem_append.mp hr with hr | hr
    · exact h.no_value (by omega) r hr
    · rw [List.mem_singleton.mp hr]
      rfl

/-- **Whole histories.**  A list field whose history has visits in scan order, to cells of the grid,
and marks after values only, keeps the invariant. -/
theorem followed {entries : Array Entry} (hl : f.plan = .list entries)
    (hsorted : EntriesSorted entries.toList) (events : List ScanEvent)
    (hinc : (visitsOf events).Pairwise fun u v => u.position < v.position)
    (hagree : ∀ u ∈ visitsOf events, s.Agrees u) (hmarks : f.MarksFollowValues s events) :
    f.Followed s entries.toList events := by
  induction events using List.reverseRecOn with
  | nil => exact followed_nil _
  | append_singleton events event ih =>
    rw [visitsOf_append] at hinc hagree
    have hinc' := (List.pairwise_append.mp hinc).1
    have h := ih hinc' (fun u hu => hagree u (List.mem_append_left _ hu)) hmarks.of_append
    cases event with
    | mark => exact h.mark hmarks
    | visit v =>
      refine h.visit hl hsorted hinc' ?_ (hagree v (by simp [visitsOf]))
      intro q hq
      obtain ⟨u, hu, rfl⟩ := Option.map_eq_some_iff.mp hq
      exact (List.pairwise_append.mp hinc).2.2 u (List.mem_of_getLast? hu) v (by simp [visitsOf])

/-- **A list field is looked up.**  At every moment of a scan that visits cells in order, and marks
the field only after it has had a value, the field contributes what the entry last reached and the
marks since then say, wherever its cursor has been. -/
theorem resolve_eq_lookup {field : Field} {f : PlannedField} {s : Scan} {entries : Array Entry}
    (hf : field.plan s.order = .ok f) (hl : f.plan = .list entries) {events : List ScanEvent}
    {v : Visit}
    (hinc : (visitsOf events ++ [v]).Pairwise fun u v => u.position < v.position)
    (hagree : ∀ u ∈ visitsOf events ++ [v], s.Agrees u) (hmarks : f.MarksFollowValues s events) :
    (f.resolve s v (f.follow s .start events).2).1 = f.lookup s entries.toList events v := by
  have hsorted : EntriesSorted entries.toList := by
    have := Field.isSorted_plan hf
    rwa [hl] at this
  have hinc' := (List.pairwise_append.mp hinc).1
  have h := followed hl hsorted events hinc' (fun u hu => hagree u (List.mem_append_left _ hu))
    hmarks
  have hlast : ∀ q ∈ standsAt events, q < v.position := by
    intro q hq
    obtain ⟨u, hu, rfl⟩ := Option.map_eq_some_iff.mp hq
    exact (List.pairwise_append.mp hinc).2.2 u (List.mem_of_getLast? hu) v
      (List.mem_singleton_self v)
  have hv : s.Agrees v := hagree v (by simp)
  -- Whether the value may be used is read off the cursor after the visit.
  have hnext := h.visit hl hsorted hinc' hlast hv
  have hstep := resolveList_eq_answer (f := f) hsorted h.follows hlast hv
  have hcursor : (f.follow s .start (events ++ [.visit v])).2 =
      (f.follow s .start events).2.advance entries.toList (standsAt events) v.position := by
    rw [follow_append, follow, resolve_list hl, hstep]
    rfl
  rw [resolve_list hl, hstep]
  unfold Scan.answer lookup
  cases he : lastUpTo entries.toList v.position with
  | none => rfl
  | some e =>
    have hused := hnext.used_eq v.position (standsAt_append_visit events v) e he
    rw [hcursor, markedSince_append_visit] at hused
    simp only [isSpent, hused]
    by_cases hrank : e.position.rank = v.position.rank
    · simp [hrank]
    · simp [hrank]

/-- A sheet with totals in its first and third row and a cell between them. -/
def totalsScan : Scan :=
  let cells := ((Store.empty.set ⟨0, 0⟩ (.boolean true)).set ⟨1, 0⟩ (.boolean false)).set ⟨2, 0⟩
    (.boolean true)
  ⟨Workbook.grid ⟨[⟨"Totals", cells⟩]⟩, .ofNames ["Totals"]⟩

/-- The field of the two totals. -/
def totalsField : Field :=
  { Field.named "total" with
    cells := [⟨none, ⟨0, 0⟩⟩, ⟨none, ⟨2, 0⟩⟩]
    type := .number }

/-- The entries of the two totals. -/
def totalsEntries : Array Entry :=
  #[⟨⟨.sheet 0, ⟨0, 0⟩⟩, none⟩, ⟨⟨.sheet 0, ⟨2, 0⟩⟩, none⟩]

/-- After the first total has gone into a record, the cell below it has no value. -/
theorem resolve_eq_lookup_below_total :
    let f : PlannedField := ⟨"total", true, none, .list totalsEntries⟩
    let events : List ScanEvent := [.visit ⟨⟨.sheet 0, ⟨0, 0⟩⟩, .boolean true⟩, .mark]
    let v : Visit := ⟨⟨.sheet 0, ⟨1, 0⟩⟩, .boolean false⟩
    (f.resolve totalsScan v (f.follow totalsScan .start events).2).1 =
        f.lookup totalsScan totalsEntries.toList events v ∧
      f.lookup totalsScan totalsEntries.toList events v = .none := by
  intro f events v
  have hf : totalsField.plan totalsScan.order = .ok f := by cbv
  have hagree : ∀ u ∈ visitsOf events ++ [v], totalsScan.Agrees u := by
    intro u hu x hx
    rcases List.mem_cons.mp hu with rfl | hu
    · have : totalsScan.value? ⟨.sheet 0, ⟨0, 0⟩⟩ = some (.boolean true) := by cbv
      exact (Option.some.inj (this.symm.trans hx)).symm
    · rw [List.mem_singleton.mp hu] at hx ⊢
      have : totalsScan.value? ⟨.sheet 0, ⟨1, 0⟩⟩ = some (.boolean false) := by cbv
      exact (Option.some.inj (this.symm.trans hx)).symm
  have hmarks : f.MarksFollowValues totalsScan events := by
    intro before after heq
    have hbefore : before = [.visit ⟨⟨.sheet 0, ⟨0, 0⟩⟩, .boolean true⟩] := by
      rcases before with _ | ⟨_, _ | ⟨_, _⟩⟩ <;> simp_all [events]
    have hresults : (f.follow totalsScan .start before).1 = [.exact (.boolean true)] := by
      rw [hbefore]
      cbv
    exact ⟨_, hresults ▸ List.mem_singleton_self _, rfl⟩
  refine ⟨resolve_eq_lookup hf rfl ?_ hagree hmarks, ?_⟩
  · decide
  · cbv

end PlannedField

end SheetRecords
