import SheetRecords.Proofs.Record.FirstSource
import SheetRecords.Proofs.Record.Isolation

/-!
# Values carried down the rows

A list field that goes with rows, and is not a metric, labels the rows below each of its entries.
`carried?` says what the records of a row have: the value of the first entry in the row, or else of
the last one above it on the sheet.  `Schema.get?_carried` states that this is what the records of
an extraction have, provided that the cells of the entries hold something.

In a row with an entry this is the first source of the row (`Prepared.eq_of_mem_given_row`).  In any
other row all cells have the same answer (`Scan.answer_of_unlisted`).  The slot, which is empty when
the scan comes to the row, takes the answer at the first cell and keeps it
(`Track.slotAt_after_row`).

A row with several entries has the value of the first one itself, and hands down that of the last
one (`carrier?_below`).  The two are the same if there is one entry at most (`carrier?_of_le`).
-/

namespace SheetRecords

open Cell

/-! ### First and last entries -/

namespace EntriesSorted

variable {entries : List Entry} {e : Entry}

/-- The first entry lies before all others. -/
theorem le_of_head? (h : EntriesSorted entries) (he : entries.head? = some e) {e' : Entry}
    (he' : e' ∈ entries) : e.position ≤ e'.position := by
  obtain ⟨rest, rfl⟩ := List.head?_eq_some_iff.mp he
  rcases List.mem_cons.mp he' with rfl | he'
  · exact le_rfl
  · exact ((List.pairwise_cons.mp h).1 e' he').le

/-- The last entry is the one that lies after all others. -/
theorem getLast?_eq_some_iff (h : EntriesSorted entries) :
    entries.getLast? = some e ↔ e ∈ entries ∧ ∀ e' ∈ entries, e'.position ≤ e.position := by
  constructor
  · intro he
    obtain ⟨before, rfl⟩ := List.getLast?_eq_some_iff.mp he
    refine ⟨List.mem_append_right _ (List.mem_singleton_self e), fun e' he' => ?_⟩
    rcases List.mem_append.mp he' with he' | he'
    · exact ((List.pairwise_append.mp h).2.2 e' he' e (List.mem_singleton_self e)).le
    · rw [List.mem_singleton.mp he']
  · rintro ⟨hmem, hle⟩
    obtain ⟨before, last, rfl⟩ := (List.eq_nil_or_concat entries).resolve_left
      (List.ne_nil_of_mem hmem)
    rw [List.concat_eq_append] at *
    rw [List.getLast?_concat]
    rcases List.mem_append.mp hmem with he | he
    · -- An entry before the last one does not lie after it.
      have hlt := (List.pairwise_append.mp h).2.2 e he last (List.mem_singleton_self last)
      have hge := hle last (List.mem_append_right _ (List.mem_singleton_self last))
      exact absurd hlt (not_lt.mpr hge)
    · rw [List.mem_singleton.mp he]

end EntriesSorted

/-- No entry that is reached lies after the one last reached. -/
theorem le_of_lastUpTo {entries : List Entry} (hsorted : EntriesSorted entries) {q : Position}
    {e e' : Entry} (h : lastUpTo entries q = some e) (he' : e' ∈ entries)
    (hle : e'.position ≤ q) : e'.position ≤ e.position := by
  have hfilter : EntriesSorted (entries.filter fun e => e.position ≤ q) := hsorted.filter _
  have hmem : e' ∈ entries.filter fun e => e.position ≤ q :=
    List.mem_filter.mpr ⟨he', decide_eq_true hle⟩
  exact (hfilter.getLast?_eq_some_iff.mp h).2 e' hmem

/-- An entry whose cell holds something has a value in any case. -/
theorem Entry.value?_of_cell {s : Scan} {e : Entry} {z : Value}
    (h : s.value? e.position = some z) : e.value? s = some (e.value.getD z) := by
  unfold Entry.value?
  rw [h]
  cases e.value <;> rfl

/-! ### Entries in rows -/

/-- The entries on the `i`-th sheet in rows of some kind. -/
def entriesOn (entries : List Entry) (i : Nat) (inRows : Nat → Bool) : List Entry :=
  entries.filter fun e => e.position.rank = .sheet i && inRows e.position.address.row

/-- The entry whose value the records of a row have: the first one in the row, or else the last one
in the rows above. -/
def carrier? (entries : List Entry) (i r : Nat) : Option Entry :=
  (entriesOn entries i (· = r)).head?.or (entriesOn entries i (· < r)).getLast?

/-- The value that is carried down to the records of a row. -/
def carried? (s : Scan) (entries : List Entry) (i r : Nat) : Option Value :=
  (carrier? entries i r).bind (·.value? s)

section Rows

variable {entries : List Entry} {i r : Nat} {e : Entry}

theorem mem_entriesOn_iff {inRows : Nat → Bool} :
    e ∈ entriesOn entries i inRows ↔
      e ∈ entries ∧ e.position.rank = .sheet i ∧ inRows e.position.address.row = true := by
  rw [entriesOn, List.mem_filter, Bool.and_eq_true, decide_eq_true_eq]

theorem entriesOn_eq_nil_iff {inRows : Nat → Bool} :
    entriesOn entries i inRows = [] ↔
      ∀ e ∈ entries, e.position.rank = .sheet i → inRows e.position.address.row = false := by
  rw [List.eq_nil_iff_forall_not_mem]
  simp only [mem_entriesOn_iff, not_and, Bool.not_eq_true]

theorem entriesOn_congr {inRows inRows' : Nat → Prop} [DecidablePred inRows]
    [DecidablePred inRows'] (h : ∀ e ∈ entries, e.position.rank = .sheet i →
      (inRows e.position.address.row ↔ inRows' e.position.address.row)) :
    entriesOn entries i (inRows ·) = entriesOn entries i (inRows' ·) := by
  refine List.filter_congr fun e he => ?_
  by_cases hrank : e.position.rank = .sheet i
  · simp [h e he hrank]
  · simp [hrank]

theorem sorted_entriesOn (hsorted : EntriesSorted entries) (inRows : Nat → Bool) :
    EntriesSorted (entriesOn entries i inRows) :=
  hsorted.filter _

/-- The value that is carried is one of the sheet, from the row or from above. -/
theorem mem_of_carrier? (h : carrier? entries i r = some e) :
    e ∈ entries ∧ e.position.rank = .sheet i ∧ e.position.address.row ≤ r := by
  rcases Option.or_eq_some_iff.mp h with he | ⟨-, he⟩
  · obtain ⟨hmem, hrank, hrow⟩ := mem_entriesOn_iff.mp (List.mem_of_head? he)
    exact ⟨hmem, hrank, (of_decide_eq_true hrow).le⟩
  · obtain ⟨hmem, hrank, hrow⟩ := mem_entriesOn_iff.mp (List.mem_of_getLast? he)
    exact ⟨hmem, hrank, (of_decide_eq_true hrow).le⟩

/-- Nothing is carried as long as no entry is reached. -/
theorem carrier?_eq_none_iff :
    carrier? entries i r = none ↔
      ∀ e ∈ entries, e.position.rank = .sheet i → r < e.position.address.row := by
  rw [carrier?, Option.or_eq_none_iff, List.head?_eq_none_iff, List.getLast?_eq_none_iff,
    entriesOn_eq_nil_iff, entriesOn_eq_nil_iff]
  simp only [decide_eq_false_iff_not]
  constructor
  · rintro ⟨hrow, habove⟩ e he hrank
    have hne := hrow e he hrank
    have hge := habove e he hrank
    omega
  · intro h
    refine ⟨fun e he hrank => ?_, fun e he hrank => ?_⟩
    · have hlt := h e he hrank
      omega
    · have hlt := h e he hrank
      omega

/-- In a row without entries the last one above is carried. -/
theorem carrier?_of_unlisted (h : entriesOn entries i (· = r) = []) :
    carrier? entries i r = (entriesOn entries i (· < r)).getLast? := by
  rw [carrier?, h]
  rfl

/-- Down to the next row with entries, the last entry of the rows down to this one is carried. -/
theorem carrier?_below {r' : Nat} (hlt : r < r')
    (hbetween : ∀ e ∈ entries, e.position.rank = .sheet i → r < e.position.address.row →
      r' < e.position.address.row) :
    carrier? entries i r' = (entriesOn entries i (· ≤ r)).getLast? := by
  have hunlisted : entriesOn entries i (· = r') = [] := by
    rw [entriesOn_eq_nil_iff]
    intro e he hrank
    have hnot := hbetween e he hrank
    simp only [decide_eq_false_iff_not]
    omega
  rw [carrier?_of_unlisted hunlisted]
  refine congrArg List.getLast? (entriesOn_congr fun e he hrank => ?_)
  have hnot := hbetween e he hrank
  omega

/-- In a row with one entry at most, the last entry of the rows down to it is carried. -/
theorem carrier?_of_length_le_one (hsorted : EntriesSorted entries)
    (hrow : (entriesOn entries i (· = r)).length ≤ 1) :
    carrier? entries i r = (entriesOn entries i (· ≤ r)).getLast? := by
  by_cases hempty : entriesOn entries i (· = r) = []
  · rw [carrier?_of_unlisted hempty]
    refine congrArg List.getLast? (entriesOn_congr fun e he hrank => ?_)
    have hne := entriesOn_eq_nil_iff.mp hempty e he hrank
    simp only [decide_eq_false_iff_not] at hne
    omega
  · -- The one entry of the row lies after those above.
    obtain ⟨e, hone⟩ : ∃ e, entriesOn entries i (· = r) = [e] := by
      have hpos := List.length_pos_iff.mpr hempty
      exact List.length_eq_one_iff.mp (by omega)
    have hmem : e ∈ entriesOn entries i (· = r) := by
      rw [hone]
      exact List.mem_singleton_self e
    obtain ⟨he, hrank, hr⟩ := mem_entriesOn_iff.mp hmem
    have hr : e.position.address.row = r := of_decide_eq_true hr
    have hlast : (entriesOn entries i (· ≤ r)).getLast? = some e := by
      rw [(sorted_entriesOn hsorted _).getLast?_eq_some_iff]
      refine ⟨mem_entriesOn_iff.mpr ⟨he, hrank, decide_eq_true hr.le⟩, fun e' he' => ?_⟩
      obtain ⟨he', hrank', hr'⟩ := mem_entriesOn_iff.mp he'
      rcases (of_decide_eq_true hr').eq_or_lt with heq | hlt
      · have hmem' : e' ∈ entriesOn entries i (· = r) :=
          mem_entriesOn_iff.mpr ⟨he', hrank', decide_eq_true heq⟩
        rw [hone, List.mem_singleton] at hmem'
        rw [hmem']
      · have hbefore : e'.position < e.position :=
          Position.lt_iff.mpr (.inr ⟨hrank'.trans hrank.symm, Address.lt_iff.mpr (.inl (by omega))⟩)
        exact hbefore.le
    rw [hlast, carrier?, hone]
    rfl

/-- From a row with one entry at most, the same one is carried down to the next row with
entries. -/
theorem carrier?_of_le (hsorted : EntriesSorted entries) {r' : Nat} (hle : r ≤ r')
    (hrow : r' = r ∨ (entriesOn entries i (· = r)).length ≤ 1)
    (hbetween : ∀ e ∈ entries, e.position.rank = .sheet i → r < e.position.address.row →
      r' < e.position.address.row) :
    carrier? entries i r' = carrier? entries i r := by
  rcases hle.eq_or_lt with rfl | hlt
  · rfl
  · rw [carrier?_below hlt hbetween,
      carrier?_of_length_le_one hsorted (hrow.resolve_left hlt.ne')]

end Rows

/-! ### Rows without entries -/

/-- **All cells of a row without entries have the same answer**, which is near the last entry above
on the sheet. -/
theorem Scan.answer_of_unlisted {s : Scan} {entries : List Entry} (hsorted : EntriesSorted entries)
    {i r : Nat} (hunlisted : entriesOn entries i (· = r) = []) {v : Visit}
    (hrank : v.position.rank = .sheet i) (hr : v.position.address.row = r) :
    s.answer (lastUpTo entries v.position) false v =
      (carried? s entries i r).elim .none .nearby := by
  rw [carried?, carrier?_of_unlisted hunlisted]
  -- What lies above the row on the sheet has been reached.
  have hreached : ∀ e ∈ entriesOn entries i (· < r), e ∈ entries ∧ e.position.rank = .sheet i ∧
      e.position ≤ v.position := by
    intro e he
    obtain ⟨he, hrank', hrow⟩ := mem_entriesOn_iff.mp he
    have hlt : e.position.address.row < v.position.address.row := by
      rw [hr]
      exact of_decide_eq_true hrow
    have hbefore : e.position < v.position :=
      Position.lt_iff.mpr (.inr ⟨hrank'.trans hrank.symm, Address.lt_iff.mpr (.inl hlt)⟩)
    exact ⟨he, hrank', hbefore.le⟩
  cases hlast : lastUpTo entries v.position with
  | none =>
    have hnone : entriesOn entries i (· < r) = [] := by
      refine List.eq_nil_iff_forall_not_mem.mpr fun e he => ?_
      obtain ⟨he, -, hle⟩ := hreached e he
      have hfilter := List.filter_eq_nil_iff.mp (List.getLast?_eq_none_iff.mp hlast) e he
      exact hfilter (decide_eq_true hle)
    rw [hnone]
    rfl
  | some e =>
    obtain ⟨he, hle⟩ := mem_of_lastUpTo hlast
    by_cases hsame : e.position.rank = .sheet i
    · -- The last entry reached lies above the row on the sheet.
      have hne : e.position.address.row ≠ r := by
        have hnot := entriesOn_eq_nil_iff.mp hunlisted e he hsame
        simpa using hnot
      have hrow : e.position.address.row < r := by
        have hnot : ¬ v.position < e.position := not_lt.mpr hle
        rw [Position.lt_iff, Address.lt_iff, hrank, hsame, hr] at hnot
        simp only [lt_irrefl, true_and, false_or, not_or] at hnot
        omega
      have hlast' : (entriesOn entries i (· < r)).getLast? = some e := by
        rw [(sorted_entriesOn hsorted _).getLast?_eq_some_iff]
        refine ⟨mem_entriesOn_iff.mpr ⟨he, hsame, decide_eq_true hrow⟩, fun e' he' => ?_⟩
        obtain ⟨he', -, hle'⟩ := hreached e' he'
        exact le_of_lastUpTo hsorted hlast he' hle'
      have hposition : e.position ≠ v.position := by
        intro heq
        rw [heq] at hne
        exact hne hr
      rw [hlast', Option.bind_some]
      unfold Scan.answer
      simp only [if_neg hposition, hsame, hrank]
      cases e.value? s <;> simp
    · -- It lies on an earlier sheet, and this one has none above the row.
      have hnone : entriesOn entries i (· < r) = [] := by
        refine List.eq_nil_iff_forall_not_mem.mpr fun e' he' => ?_
        obtain ⟨he', hrank', hle'⟩ := hreached e' he'
        have hbefore := le_of_lastUpTo hsorted hlast he' hle'
        have hrankle : e.position.rank ≤ .sheet i := by
          rw [← hrank]
          exact Position.rank_le_of_le hle
        have hrankge : .sheet i ≤ e.position.rank := by
          rw [← hrank']
          exact Position.rank_le_of_le hbefore
        exact hsame (le_antisymm hrankle hrankge)
      have hother : e.position.rank ≠ v.position.rank := by
        rw [hrank]
        exact hsame
      have hposition : e.position ≠ v.position := fun heq => hother (congrArg _ heq)
      rw [hnone]
      unfold Scan.answer
      simp [hposition, hother]

/-! ### The slot for a row -/

namespace Track

variable {s : Scan} {f : PlannedField} {entries : Array Entry} {acts : List Act}

/-- Unless a list is a metric, it answers whatever was used before. -/
theorem resolve_after_eq_answer (hplan : f.plan = .list entries)
    (hsorted : EntriesSorted entries.toList) (hmetric : f.isMetric = false) (role : Role)
    {v : Visit} (horder : Act.InOrder s (acts ++ [.observe v])) :
    (f.resolve s v ((start f role).after s acts).cursor).1 =
      s.answer (lastUpTo entries.toList v.position) false v := by
  have hunspent : ∀ c, f.isSpent c = false := by
    intro c
    rw [PlannedField.isSpent, hmetric]
    rfl
  rw [resolve_after hplan hsorted role horder, hunspent]

/-- If all cells of a row have the same answer, the first one leaves it in the slot, where it
stays. -/
theorem slotAt_after_row (hplan : f.plan = .list entries)
    (hsorted : EntriesSorted entries.toList) (hmetric : f.isMetric = false)
    (hempty : ((start f .row).after s acts).slotAt none = .empty) {row : List Visit}
    (horder : Act.InOrder s (acts ++ row.map .observe)) {answer : Resolution}
    (hanswer : ∀ v ∈ row, s.answer (lastUpTo entries.toList v.position) false v = answer) :
    ((start f .row).after s (acts ++ row.map .observe)).slotAt none =
      if row = [] then .empty else .ofResolution answer := by
  -- From the right, since what an observation does depends on the slot before it.
  induction row using List.reverseRecOn with
  | nil => simpa using hempty
  | append_singleton row v ih =>
    rw [List.map_append, ← List.append_assoc] at horder ⊢
    have hslot := ih horder.of_append fun u hu => hanswer u (List.mem_append_left _ hu)
    have hresolve := resolve_after_eq_answer hplan hsorted hmetric .row horder
    rw [hanswer v (List.mem_append_right _ (List.mem_singleton_self v))] at hresolve
    rw [after_append]
    generalize ht : (start f .row).after s (acts ++ row.map .observe) = t at hslot hresolve ⊢
    have hfield : t.field = f := by rw [← ht, after_field]; rfl
    have hintake : t.intake v.position.address.column = some none := by
      have hrole : t.role = .row := by rw [← ht, after_role]; rfl
      rw [intake, hrole]
    have hne : row ++ [v] ≠ [] := by simp
    show (t.act s (.observe v)).slotAt none = _
    rw [Track.act, slotAt_takeIn, if_pos hintake, hfield, hresolve, hslot, if_neg hne]
    split_ifs
    · exact Slot.getD_offer?_empty answer
    · exact Slot.getD_offer?_ofResolution answer

/-- Records leave the slots as they are, unless the field is a metric. -/
theorem slotAt_after_emissions_of_not_metric {t : Track} (hmetric : t.field.isMetric = false)
    (ofRow : Bool) (columns : List (Option Nat)) (origin : Option Nat → Origin) (k : Option Nat) :
    (t.after s (columns.map fun column => .emit ofRow column (origin column))).slotAt k =
      t.slotAt k := by
  induction columns generalizing t with
  | nil => rfl
  | cons column columns ih =>
    have hslot : (t.act s (.emit ofRow column (origin column))).slotAt k = t.slotAt k := by
      rw [Track.act, slotAt_emit, hmetric, if_neg fun h => Bool.false_ne_true h.1]
    rw [← hslot]
    refine ih (t := t.act s (.emit ofRow column (origin column))) ?_
    rw [act_field]
    exact hmetric

end Track

namespace Prepared

variable {p : Prepared} {f : PlannedField} {entries : Array Entry} {i r : Nat} {name : String}

/-- The first entry in a row is the first source of the row, if its cell holds something. -/
theorem firstOf_sourceAt?_of_head? (hplan : f.plan = .list entries)
    (hsorted : EntriesSorted entries.toList) (hname : p.scan.order.names[i]? = some name)
    {e : Entry} (he : (entriesOn entries.toList i (· = r)).head? = some e)
    (hcell : (p.scan.value? e.position).isSome = true) :
    ∃ y, e.value? p.scan = some y ∧ FirstOf (fun c => p.sourceAt? f i name ⟨r, c⟩) y := by
  obtain ⟨hmem, hrank, hrow⟩ := mem_entriesOn_iff.mp (List.mem_of_head? he)
  have hrow : e.position.address.row = r := of_decide_eq_true hrow
  have hposition : e.position = ⟨.sheet i, ⟨r, e.position.address.column⟩⟩ := by
    rw [← hrank, ← hrow]
  obtain ⟨z, hz⟩ := Option.isSome_iff_exists.mp hcell
  have hgrid : p.scan.grid.value? name ⟨r, e.position.address.column⟩ = some z := by
    rw [hposition, Scan.value?, SheetOrder.name?, Rank.index?, Option.bind_some, hname] at hz
    exact hz
  have hfind : entries.find? (·.position = e.position) = some e := by
    rw [find?_eq_lastUpTo hsorted, lastUpTo_position hsorted hmem, Option.filter_some,
      if_pos (by simp)]
  refine ⟨e.value.getD z, Entry.value?_of_cell hz, e.position.address.column, ?_, ?_⟩
  · show p.sourceAt? f i name ⟨r, e.position.address.column⟩ = some (e.value.getD z)
    rw [sourceAt?, hgrid, Option.bind_some, hplan, Plan.sourceValue?, ← hposition, hfind]
    rfl
  · intro m hm
    show p.sourceAt? f i name ⟨r, m⟩ = none
    cases hsource : p.sourceAt? f i name ⟨r, m⟩ with
    | none => rfl
    | some y =>
      -- An entry further left would come before the first one.
      obtain ⟨z', -, hvalue⟩ := Option.bind_eq_some_iff.mp hsource
      rw [hplan, Plan.sourceValue?] at hvalue
      obtain ⟨e', hfind', -⟩ := Option.map_eq_some_iff.mp hvalue
      have hposition' : e'.position = ⟨.sheet i, ⟨r, m⟩⟩ := by simpa using Array.find?_some hfind'
      have hmem' : e' ∈ entriesOn entries.toList i (· = r) := by
        refine mem_entriesOn_iff.mpr ⟨Array.mem_def.mp (Array.mem_of_find?_eq_some hfind'), ?_, ?_⟩
        · rw [hposition']
        · rw [hposition']
          exact decide_eq_true rfl
      have hle := (sorted_entriesOn hsorted _).le_of_head? he hmem'
      have hlt : e'.position < e.position := by
        rw [hposition', hposition]
        exact Position.lt_iff.mpr (.inr ⟨rfl, Address.lt_iff.mpr (.inr ⟨rfl, hm⟩)⟩)
      exact absurd hlt (not_lt.mpr hle)

/-- In a row with an entry a record has the value of the first one. -/
theorem eq_carried?_of_listed (hp : p.IsLawful) (hf : f ∈ p.fields) (hrole : p.role f = .row)
    (hplan : f.plan = .list entries) (hmetric : f.isMetric = false)
    (hcells : ∀ e ∈ entries, e.position.rank.isReachable = true →
      (p.scan.value? e.position).isSome = true)
    (hname : p.scan.order.names[i]? = some name)
    (hlisted : entriesOn entries.toList i (· = r) ≠ []) {c : Option Nat} {x : Option Value}
    (h : (⟨some name, some r, c⟩, x) ∈ (Track.start f (p.role f)).given p.scan p.schedule) :
    x = carried? p.scan entries.toList i r := by
  have hsorted := (hp.plans f hf).entries hplan
  obtain ⟨e, rest, hentries⟩ := List.exists_cons_of_ne_nil hlisted
  have he : (entriesOn entries.toList i (· = r)).head? = some e := by
    rw [hentries]
    rfl
  obtain ⟨hmem, hrank, -⟩ := mem_entriesOn_iff.mp (List.mem_of_head? he)
  have hcell := hcells e (Array.mem_def.mpr hmem) (by rw [hrank]; rfl)
  obtain ⟨y, hy, hfirst⟩ := firstOf_sourceAt?_of_head? hplan hsorted hname he hcell
  have hsource : ∃ c, (p.sourceAt? f i name ⟨r, c⟩).isSome := by
    obtain ⟨c, hc, -⟩ := hfirst
    exact ⟨c, Option.isSome_iff_exists.mpr ⟨y, hc⟩⟩
  obtain ⟨row, before, after, y', -, -, hfirst', hx⟩ :=
    eq_of_mem_given_row hp hf hrole hname h hsource
  rw [hx, hmetric, if_neg fun h => Bool.false_ne_true h.1, carried?, carrier?, he, Option.some_or,
    Option.bind_some, hy, hfirst'.unique hfirst]

/-- In a row without entries a record has the value of the last one above. -/
theorem eq_carried?_of_unlisted (hp : p.IsLawful) (hf : f ∈ p.fields) (hrole : p.role f = .row)
    (hplan : f.plan = .list entries) (hmetric : f.isMetric = false)
    (hname : p.scan.order.names[i]? = some name)
    (hunlisted : entriesOn entries.toList i (· = r) = []) {c : Option Nat} {x : Option Value}
    (h : (⟨some name, some r, c⟩, x) ∈ (Track.start f (p.role f)).given p.scan p.schedule) :
    x = carried? p.scan entries.toList i r := by
  have hsorted := (hp.plans f hf).entries hplan
  obtain ⟨sheets, above, row, below, before, after, hrows, -, horder, hx⟩ :=
    exists_row_of_mem_given hp hname h
  have hrow : (r, row) ∈ rowsOf (p.scan.sheetVisits i name) := by
    rw [hrows]
    exact List.mem_append_right _ (List.mem_cons_self ..)
  have hanswer : ∀ v ∈ row, p.scan.answer (lastUpTo entries.toList v.position) false v =
      (carried? p.scan entries.toList i r).elim .none .nearby := by
    intro v hv
    obtain ⟨hvisit, hr⟩ := (mem_row_iff (hp.rowsOf_sorted i name) hrow).mp hv
    exact Scan.answer_of_unlisted hsorted hunlisted (Scan.mem_sheetVisits_iff.mp hvisit).1 hr
  rw [hrole] at hx
  -- The slot is empty as the scan comes to the row,
  have hempty : ((Track.start f .row).after p.scan
      (p.actsOfSheets sheets ++ above.flatMap (p.rowActs name))).slotAt none = .empty := by
    rw [Track.after_append]
    refine slotAt_after_rows ?_ name above ?_
    · rw [Track.after_role]
      rfl
    · rw [← hrole]
      exact slotAt_after_sheets (isConstant_of_role (.inl hrole)) sheets none
  -- has the common answer of its cells after the visits,
  have hslot := Track.slotAt_after_row hplan hsorted hmetric hempty horder.of_append hanswer
  rw [if_neg (of_mem_rowsOf hrow).1] at hslot
  -- and keeps it as records are put together.
  have hvalue : x = (((Track.start f .row).after p.scan
      (p.actsBefore sheets name above (r, row) before)).slotAt none).value? := by
    rw [hx, Track.value?_eq_slotAt, Track.outlet, Track.after_role]
    rfl
  rw [hvalue, actsBefore, Track.after_append, Track.slotAt_after_emissions_of_not_metric]
  · show (((Track.start f .row).after p.scan (p.actsOfSheets sheets ++
      above.flatMap (p.rowActs name) ++ row.map .observe)).slotAt none).value? = _
    rw [hslot, Slot.value?_ofResolution]
    cases carried? p.scan entries.toList i r <;> rfl
  · rw [Track.after_field]
    exact hmetric

/-- A field that goes with rows has records put together row by row. -/
theorem grouping_of_role_row (hf : f ∈ p.fields) (hrole : p.role f = .row) :
    p.grouping = .rows ∨ p.grouping = .nested := by
  have hrow : (roles p.fields).contains .row = true :=
    List.contains_iff_mem.mpr (List.mem_map.mpr ⟨f, hf, hrole⟩)
  unfold grouping Grouping.ofRoles
  rw [hrow]
  cases (roles p.fields).contains .column with
  | true => exact .inr rfl
  | false => exact .inl rfl

/-- Where records are put together row by row, each belongs to a row of a scanned sheet. -/
theorem exists_row_of_mem_origins (hp : p.IsLawful)
    (hgrouping : p.grouping = .rows ∨ p.grouping = .nested) {o : Origin} (ho : o ∈ p.origins) :
    ∃ (i : Nat) (name : String) (r : Nat) (c : Option Nat),
      p.scan.order.names[i]? = some name ∧ o = ⟨some name, some r, c⟩ := by
  have hcolumns : ∀ vs, p.sheetColumns vs = [] := by
    intro vs
    rw [sheetColumns, if_neg]
    rcases hgrouping with h | h <;> simp [h]
  rcases exists_sheet_of_mem_origins hp ho with ⟨i, name, hname, ho⟩ | ⟨hdocument, -⟩
  · rw [filterMap_origin?_sheetActs, hcolumns, List.map_nil, List.append_nil] at ho
    obtain ⟨⟨r, row⟩, -, ho⟩ := List.mem_flatMap.mp ho
    obtain ⟨c, -, rfl⟩ := List.mem_map.mp ho
    exact ⟨i, name, r, c, hname, rfl⟩
  · rcases hgrouping with h | h
    · rw [h] at hdocument
      cases hdocument
    · rw [h] at hdocument
      cases hdocument

end Prepared

/-- **Values are carried down.**  Let a list field go with rows, not be a metric, and have its
entries on cells that hold something, as far as their sheets are scanned.  Each record belongs to a
row of a scanned sheet.  It has the value of the first entry in the row, or else of the last one
above on the sheet, and none if the sheet has no entry down to the row; the value never comes from
another sheet or from further down.  All records of the row have it.  Those of the rows below, down
to the next one with entries, have the value of the last entry down to this row, which is the same
one if the row has one entry at most. -/
theorem Schema.get?_carried {schema : Schema} {w : Workbook} {e : Extraction}
    (h : schema.extract w = .ok e) :
    ∃ p, schema.prepare w = .ok p ∧
      ∀ f ∈ p.fields, ∀ entries, p.role f = .row → f.isMetric = false → f.plan = .list entries →
        (∀ x ∈ entries, x.position.rank.isReachable = true →
          (p.scan.value? x.position).isSome = true) →
        EntriesSorted entries.toList ∧
          ∀ record ∈ e.records, ∃ i name r, p.scan.order.names[i]? = some name ∧
            record.origin.sheet = some name ∧ record.origin.row = some r ∧
            record.get? f.name = carried? p.scan entries.toList i r ∧
            (record.get? f.name = none ↔
              ∀ x ∈ entries, x.position.rank = .sheet i → r < x.position.address.row) ∧
            (∀ y, record.get? f.name = some y → ∃ x ∈ entries, x.position.rank = .sheet i ∧
              x.position.address.row ≤ r ∧ x.value? p.scan = some y) ∧
            ∀ record' ∈ e.records, ∀ r' ≥ r, record'.origin.sheet = some name →
              record'.origin.row = some r' →
              (∀ x ∈ entries, x.position.rank = .sheet i → r < x.position.address.row →
                r' < x.position.address.row) →
              (r' = r ∨ (entriesOn entries.toList i (· = r)).length ≤ 1 →
                record'.get? f.name = record.get? f.name) ∧
              (r < r' → record'.get? f.name =
                (entriesOn entries.toList i (· ≤ r)).getLast?.bind (·.value? p.scan)) := by
  obtain ⟨p, hprepare, hp, hprefix⟩ := Schema.isPrefix_recordsOf w.isLawful_grid h
  refine ⟨p, hprepare, ?_⟩
  intro f hf entries hrole hmetric hplan hcells
  have hsorted := (hp.plans f hf).entries hplan
  have hvalue : ∀ record ∈ e.records, ∃ i name r, p.scan.order.names[i]? = some name ∧
      record.origin.sheet = some name ∧ record.origin.row = some r ∧
      record.get? f.name = carried? p.scan entries.toList i r := by
    intro record hrecord
    have hmem := hprefix.subset hrecord
    have horigin : record.origin ∈ p.origins := by
      rw [← Prepared.filterMap_origin?_schedule hp, ← origin_recordsOf p.scan p.names p.tracks]
      exact List.mem_map.mpr ⟨record, hmem, rfl⟩
    obtain ⟨i, name, r, c, hname, horigin⟩ :=
      Prepared.exists_row_of_mem_origins hp (Prepared.grouping_of_role_row hf hrole) horigin
    have hgiven := Prepared.mem_given_of_mem_recordsOf hp hf hmem
    rw [horigin] at hgiven
    refine ⟨i, name, r, hname, by rw [horigin], by rw [horigin], ?_⟩
    by_cases hlisted : entriesOn entries.toList i (· = r) = []
    · exact Prepared.eq_carried?_of_unlisted hp hf hrole hplan hmetric hname hlisted hgiven
    · exact Prepared.eq_carried?_of_listed hp hf hrole hplan hmetric hcells hname hlisted hgiven
  refine ⟨hsorted, ?_⟩
  intro record hrecord
  obtain ⟨i, name, r, hname, hsheet, hrow, hget⟩ := hvalue record hrecord
  refine ⟨i, name, r, hname, hsheet, hrow, hget, ?_, ?_, ?_⟩
  · rw [hget]
    constructor
    · intro hnone x hx
      refine carrier?_eq_none_iff.mp ?_ x (Array.mem_def.mp hx)
      cases hcarrier : carrier? entries.toList i r with
      | none => rfl
      | some x =>
        obtain ⟨hmem, hrank, -⟩ := mem_of_carrier? hcarrier
        have hcell := hcells x (Array.mem_def.mpr hmem) (by rw [hrank]; rfl)
        obtain ⟨z, hz⟩ := Option.isSome_iff_exists.mp hcell
        rw [carried?, hcarrier, Option.bind_some, Entry.value?_of_cell hz] at hnone
        cases hnone
    · intro hbelow
      have hnone : carrier? entries.toList i r = none :=
        carrier?_eq_none_iff.mpr fun x hx => hbelow x (Array.mem_def.mpr hx)
      rw [carried?, hnone]
      rfl
  · intro y hy
    rw [hget] at hy
    obtain ⟨x, hcarrier, hx⟩ := Option.bind_eq_some_iff.mp hy
    obtain ⟨hmem, hrank, hle⟩ := mem_of_carrier? hcarrier
    exact ⟨x, Array.mem_def.mpr hmem, hrank, hle, hx⟩
  · intro record' hrecord' r' hle hsheet' hrow' hbetween
    obtain ⟨j, name', r'', hname', hsheet'', hrow'', hget'⟩ := hvalue record' hrecord'
    obtain rfl : name = name' := Option.some.inj (hsheet'.symm.trans hsheet'')
    obtain rfl : r' = r'' := Option.some.inj (hrow'.symm.trans hrow'')
    obtain rfl : i = j := p.scan.order.index_unique hname hname'
    have hbetween : ∀ x ∈ entries.toList, x.position.rank = .sheet i →
        r < x.position.address.row → r' < x.position.address.row :=
      fun x hx => hbetween x (Array.mem_def.mpr hx)
    refine ⟨fun hone => ?_, fun hlt => ?_⟩
    · rw [hget, hget', carried?, carried?, carrier?_of_le hsorted hle hone hbetween]
    · rw [hget', carried?, carrier?_below hlt hbetween]

/-- A table of four items, with one heading for the first two and two in the row of the third. -/
def sectionTable : Workbook :=
  ⟨[⟨"Sections", ((((((Store.empty.set ⟨0, 0⟩ (.boolean true)).set ⟨0, 2⟩ (.boolean true)).set
    ⟨1, 2⟩ (.boolean true)).set ⟨2, 0⟩ (.boolean false)).set ⟨2, 1⟩ (.boolean true)).set
    ⟨2, 2⟩ (.boolean true)).set ⟨3, 2⟩ (.boolean true)⟩]⟩

/-- The headings, and a field down the items. -/
def sectionSchema : Schema :=
  ⟨[{ Field.named "section" with cells := [⟨none, ⟨0, 0⟩⟩, ⟨none, ⟨2, 0⟩⟩, ⟨none, ⟨2, 1⟩⟩] },
    { Field.named "item" with column := some 2 }], .default⟩

/-- The headings as entries of a list. -/
def sectionEntries : Array Entry :=
  #[⟨⟨.sheet 0, ⟨0, 0⟩⟩, none⟩, ⟨⟨.sheet 0, ⟨2, 0⟩⟩, none⟩, ⟨⟨.sheet 0, ⟨2, 1⟩⟩, none⟩]

/-- The field of the headings. -/
def sectionField : PlannedField :=
  ⟨"section", false, none, .list sectionEntries⟩

/-- The schema made ready for the table. -/
def sectionPrepared : Prepared :=
  ⟨⟨sectionTable, .ofNames ["Sections"]⟩,
    [sectionField, ⟨"item", false, none, .columnScan none 2 0⟩]⟩

/-- A record of the table. -/
def sectionRecord (row : Nat) (heading : Bool) : Record :=
  ⟨["section", "item"], [some (.boolean heading), some (.boolean true)],
    ⟨some "Sections", some row, none⟩⟩

theorem records_sectionTable : (Extraction.start sectionPrepared none).records =
    [sectionRecord 0 true, sectionRecord 1 true, sectionRecord 2 false, sectionRecord 3 true] := by
  cbv

theorem extract_sectionTable :
    sectionSchema.extract sectionTable = .ok (.start sectionPrepared none) := by
  cbv

/-- The second row has the heading of the first one, the third row its own first heading, and the
last row the second one of the third row. -/
theorem Schema.get?_carried_sectionTable :
    sectionSchema.extract sectionTable = .ok (.start sectionPrepared none) ∧
      [sectionRecord 0 true, sectionRecord 1 true, sectionRecord 2 false, sectionRecord 3 true] =
        (Extraction.start sectionPrepared none).records ∧
      (sectionRecord 1 true).get? "section" = (sectionRecord 0 true).get? "section" ∧
      (sectionRecord 2 false).get? "section" =
        carried? sectionPrepared.scan sectionEntries.toList 0 2 ∧
      (sectionRecord 3 true).get? "section" =
        (entriesOn sectionEntries.toList 0 (· ≤ 2)).getLast?.bind
          (·.value? sectionPrepared.scan) := by
  obtain ⟨p, hprepare, hfields⟩ := Schema.get?_carried extract_sectionTable
  have hprepare' : sectionSchema.prepare sectionTable = .ok sectionPrepared := by
    cbv
  obtain rfl : sectionPrepared = p := Except.ok.inj (hprepare'.symm.trans hprepare)
  have hcells : ∀ x ∈ sectionEntries, x.position.rank.isReachable = true →
      (sectionPrepared.scan.value? x.position).isSome = true := by
    decide +kernel
  obtain ⟨-, hrecords⟩ := hfields sectionField (List.mem_cons_self ..) sectionEntries rfl rfl rfl
    hcells
  rw [records_sectionTable] at hrecords
  refine ⟨extract_sectionTable, records_sectionTable.symm, ?_, ?_⟩
  · obtain ⟨i, name, r, hname, hsheet, hrow, -, -, -, hbelow⟩ :=
      hrecords (sectionRecord 0 true) (by simp)
    obtain rfl : "Sections" = name := Option.some.inj hsheet
    obtain rfl : 0 = r := Option.some.inj hrow
    obtain rfl : i = 0 := sectionPrepared.scan.order.index_unique hname rfl
    have hnext := hbelow (sectionRecord 1 true) (by simp) 1 (by decide) rfl rfl (by decide)
    exact hnext.1 (.inr (by decide))
  · obtain ⟨i, name, r, hname, hsheet, hrow, hget, -, -, hbelow⟩ :=
      hrecords (sectionRecord 2 false) (by simp)
    obtain rfl : "Sections" = name := Option.some.inj hsheet
    obtain rfl : 2 = r := Option.some.inj hrow
    obtain rfl : i = 0 := sectionPrepared.scan.order.index_unique hname rfl
    have hnext := hbelow (sectionRecord 3 true) (by simp) 3 (by decide) rfl rfl (by decide)
    exact ⟨hget, hnext.2 (by decide)⟩

/-- A row with several entries does not hand down the value that its own records have: the last row
of the table has no entry, and its record not the value of the one before. -/
theorem Schema.get?_carried_ne_repeated :
    sectionSchema.extract sectionTable = .ok (.start sectionPrepared none) ∧
      sectionPrepared.grouping = .rows ∧
      (∃ f ∈ sectionPrepared.fields, f.name = "section" ∧ sectionPrepared.role f = .row ∧
        f.isMetric = false ∧ f.plan = .list sectionEntries) ∧
      (∀ x ∈ sectionEntries, (sectionPrepared.scan.value? x.position).isSome = true) ∧
      (∀ x ∈ sectionEntries, x.position.address.row ≤ 2) ∧
      sectionRecord 2 false ∈ (Extraction.start sectionPrepared none).records ∧
      sectionRecord 3 true ∈ (Extraction.start sectionPrepared none).records ∧
      (sectionRecord 2 false).origin = ⟨some "Sections", some 2, none⟩ ∧
      (sectionRecord 3 true).origin = ⟨some "Sections", some 3, none⟩ ∧
      (sectionRecord 2 false).get? "section" = some (.boolean false) ∧
      (sectionRecord 3 true).get? "section" = some (.boolean true) := by
  rw [records_sectionTable]
  refine ⟨extract_sectionTable, rfl, ?_, by decide +kernel, by decide, by simp, by simp, rfl, rfl,
    rfl, rfl⟩
  exact ⟨sectionField, List.mem_cons_self .., rfl, rfl, rfl, rfl⟩

end SheetRecords
