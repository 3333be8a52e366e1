import SheetRecords.Proofs.Record.Boundaries
import SheetRecords.Proofs.Record.Metrics

/-!
# Constants in records

Constants are read again with every visit, and once more at the end of a document.  The first act of
an extraction, if there is one, is such a reading (`Prepared.reads_of_mem_head?_schedule`), and puts
the value into the slot of the track (`Track.carries_of_reads`).

From then on the track carries the constant (`Track.Carries`): later readings change nothing, since
the slot is full, and each record is given the value.  A metric one leaves the slot with the first
record.  It is used then and its cursor never moves, so that later readings bring nothing
(`Track.HasGiven`).
-/

namespace SheetRecords

open Cell

/-- Whether constants are read in an act. -/
def Act.reads : Act → Bool
  | .observe _ => true
  | .readConstants => true
  | _ => false

/-- What a constant contributes unless it is spent. -/
def ConstantSource.resolution (s : Scan) (source : ConstantSource) : Resolution :=
  (source.value? s).elim .none .exact

@[simp]
theorem ConstantSource.value?_resolution (s : Scan) (source : ConstantSource) :
    (source.resolution s).value? = source.value? s := by
  unfold resolution
  cases source.value? s <;> rfl

namespace Track

variable {s : Scan} {t : Track} {source : ConstantSource}

/-! ### Reading -/

/-- The track of a constant, which goes with the whole document. -/
structure IsConstant (source : ConstantSource) (t : Track) : Prop where
  role_eq : t.role = .document
  plan_eq : t.field.plan = .constant source

theorem IsConstant.act (h : t.IsConstant source) (act : Act) :
    (t.act s act).IsConstant source := by
  constructor
  · rw [act_role]
    exact h.role_eq
  · rw [act_field]
    exact h.plan_eq

/-- What a reading does to the slot, whatever cell is visited. -/
theorem IsConstant.act_of_reads (h : t.IsConstant source) {act : Act} (hact : act.reads = true) :
    t.act s act =
      { t with
        slot := (t.slot.offer? (t.field.resolveConstant s source t.cursor)).getD t.slot } := by
  have hobserve : ∀ (column : Nat) (r : Resolution),
      t.observe column r = { t with slot := (t.slot.offer? r).getD t.slot } := by
    intro column r
    unfold observe
    rw [h.role_eq]
  cases act with
  | observe v =>
    have hresolve : t.field.resolve s v t.cursor =
        (t.field.resolveConstant s source t.cursor, t.cursor) := by
      rw [PlannedField.resolve, h.plan_eq]
    rw [Track.act, hresolve]
    exact hobserve ..
  | readConstants =>
    have hresolve : t.readConstant s =
        (t.field.resolveConstant s source t.cursor, t.cursor) := by
      rw [readConstant, h.plan_eq]
    rw [Track.act, hresolve]
    exact hobserve ..
  | _ => cases hact

/-- The constant is in the slot, and a metric one has not been used. -/
structure Carries (s : Scan) (source : ConstantSource) (t : Track) : Prop
    extends t.IsConstant source where
  slot_eq : t.slot = .ofResolution (source.resolution s)
  unused : t.field.isMetric = true → t.cursor.used = false

/-- A record has been given the metric constant. -/
structure HasGiven (s : Scan) (source : ConstantSource) (t : Track) : Prop
    extends t.IsConstant source where
  isMetric : t.field.isMetric = true
  slot_eq : t.slot = .empty
  used : ∀ x ∈ source.value? s, t.cursor.used = true

/-- A constant that is not spent contributes its value. -/
theorem resolveConstant_of_unspent (h : t.field.isMetric = true → t.cursor.used = false) :
    t.field.resolveConstant s source t.cursor = source.resolution s := by
  have hspent : t.field.isSpent t.cursor = false := by
    unfold PlannedField.isSpent
    cases hmetric : t.field.isMetric with
    | false => rfl
    | true => exact h hmetric
  rw [PlannedField.resolveConstant_eq, hspent, ConstantSource.resolution]
  cases source.value? s <;> rfl

/-- The first reading puts the constant into the slot. -/
theorem carries_of_reads {field : PlannedField} (hplan : field.plan = .constant source) {act : Act}
    (hact : act.reads = true) : ((start field .document).act s act).Carries s source := by
  have hstart : (start field .document).IsConstant source := ⟨rfl, hplan⟩
  have hresolve : field.resolveConstant s source .start = source.resolution s :=
    resolveConstant_of_unspent (t := start field .document) fun _ => rfl
  refine ⟨hstart.act act, ?_, ?_⟩
  · rw [hstart.act_of_reads hact]
    show (Slot.empty.offer? (field.resolveConstant s source .start)).getD .empty = _
    rw [hresolve, Slot.getD_offer?_empty]
  · intro _
    rw [hstart.act_of_reads hact]
    rfl

/-- Later readings do not change a full slot. -/
theorem Carries.act_of_reads (h : t.Carries s source) {act : Act} (hact : act.reads = true) :
    t.act s act = t := by
  have hslot : (t.slot.offer? (t.field.resolveConstant s source t.cursor)).getD t.slot =
      t.slot := by
    rw [resolveConstant_of_unspent h.unused, h.slot_eq, Slot.getD_offer?_ofResolution]
  rw [h.toIsConstant.act_of_reads hact, hslot]

/-- Nor do they fill a slot again that has given its value. -/
theorem HasGiven.act_of_reads (h : t.HasGiven s source) {act : Act} (hact : act.reads = true) :
    t.act s act = t := by
  have hnone : t.field.resolveConstant s source t.cursor = .none := by
    rw [PlannedField.resolveConstant_eq]
    cases hvalue : source.value? s with
    | none => rfl
    | some x =>
      have hspent : t.field.isSpent t.cursor = true := by
        rw [PlannedField.isSpent, h.isMetric, h.used x hvalue]
        rfl
      simp only [hspent, if_true]
  have hslot : (t.slot.offer? (t.field.resolveConstant s source t.cursor)).getD t.slot =
      t.slot := by
    rw [hnone, h.slot_eq]
    rfl
  rw [h.toIsConstant.act_of_reads hact, hslot]

/-! ### Giving -/

theorem IsConstant.value?_eq (h : t.IsConstant source) (ofRow : Bool) (column : Option Nat) :
    t.value? ofRow column = t.slot.value? := by
  unfold value?
  rw [h.role_eq]

/-- Only metric constants leave the slot with a record. -/
theorem IsConstant.slot_emit (h : t.IsConstant source) (ofRow : Bool) (column : Option Nat) :
    (t.emit ofRow column).2.slot = if t.field.isMetric then .empty else t.slot := by
  have hslot := slotAt_emit t ofRow column none
  have houtlet : t.outlet ofRow column = some none := by
    unfold outlet
    rw [h.role_eq]
  rw [houtlet] at hslot
  simpa [slotAt] using hslot

/-- A constant that is no metric stays as it is given. -/
theorem Carries.emit (h : t.Carries s source) (hmetric : t.field.isMetric = false) (ofRow : Bool)
    (column : Option Nat) (origin : Origin) :
    (t.act s (.emit ofRow column origin)).Carries s source := by
  refine ⟨h.toIsConstant.act _, ?_, ?_⟩
  · show (t.emit ofRow column).2.slot = _
    rw [h.slot_emit, hmetric]
    exact h.slot_eq
  · intro hmetric'
    rw [act_field, hmetric] at hmetric'
    cases hmetric'

/-- A metric constant is given away, and used thereby if it has a value. -/
theorem Carries.hasGiven (h : t.Carries s source) (hmetric : t.field.isMetric = true)
    (ofRow : Bool) (column : Option Nat) (origin : Origin) :
    (t.act s (.emit ofRow column origin)).HasGiven s source := by
  refine ⟨h.toIsConstant.act _, ?_, ?_, ?_⟩
  · rw [act_field]
    exact hmetric
  · show (t.emit ofRow column).2.slot = _
    rw [h.slot_emit, hmetric]
    rfl
  · intro x hx
    have hvalue : (t.value? ofRow column).isSome = true := by
      rw [h.value?_eq, h.slot_eq, Slot.value?_ofResolution, ConstantSource.value?_resolution, hx]
      rfl
    show (t.emit ofRow column).2.cursor.used = true
    rw [cursor_emit, if_pos hvalue]
    rfl

/-- With nothing left to give, giving changes nothing that matters. -/
theorem HasGiven.emit (h : t.HasGiven s source) (ofRow : Bool) (column : Option Nat)
    (origin : Origin) : (t.act s (.emit ofRow column origin)).HasGiven s source := by
  refine ⟨h.toIsConstant.act _, ?_, ?_, ?_⟩
  · rw [act_field]
    exact h.isMetric
  · show (t.emit ofRow column).2.slot = _
    rw [h.slot_emit, h.isMetric]
    rfl
  · intro x hx
    have hvalue : (t.value? ofRow column).isSome = false := by
      rw [h.value?_eq, h.slot_eq]
      rfl
    show (t.emit ofRow column).2.cursor.used = true
    rw [cursor_emit, hvalue]
    exact h.used x hx

/-- **One act** other than the giving of a metric constant. -/
theorem Carries.act (h : t.Carries s source) {act : Act}
    (hact : t.field.isMetric = true → act.origin? = none) : (t.act s act).Carries s source := by
  cases act with
  | observe v =>
    rw [h.act_of_reads rfl]
    exact h
  | readConstants =>
    rw [h.act_of_reads rfl]
    exact h
  | emit ofRow column origin =>
    refine h.emit ?_ ofRow column origin
    cases hmetric : t.field.isMetric with
    | false => rfl
    | true => cases hact hmetric
  | closeRow =>
    have hstays : t.closeRow = t := by simp [Track.closeRow, h.role_eq]
    rw [Track.act, hstays]
    exact h
  | closeSheet => exact ⟨h.toIsConstant.act _, h.slot_eq, h.unused⟩

theorem HasGiven.act (h : t.HasGiven s source) (act : Act) : (t.act s act).HasGiven s source := by
  cases act with
  | observe v =>
    rw [h.act_of_reads rfl]
    exact h
  | readConstants =>
    rw [h.act_of_reads rfl]
    exact h
  | emit ofRow column origin => exact h.emit ofRow column origin
  | closeRow =>
    have hstays : t.closeRow = t := by simp [Track.closeRow, h.role_eq]
    rw [Track.act, hstays]
    exact h
  | closeSheet => exact ⟨h.toIsConstant.act _, h.isMetric, h.slot_eq, h.used⟩

/-- **Whole runs.**  After a metric constant has been given, no record is given it any more. -/
theorem HasGiven.eq_none_of_mem_given (h : t.HasGiven s source) {acts : List Act} {o : Origin}
    {x : Option Value} (hx : (o, x) ∈ t.given s acts) : x = none := by
  induction acts generalizing t with
  | nil => cases hx
  | cons act acts ih =>
    have hnext := h.act act
    cases act with
    | emit ofRow column origin =>
      rcases List.mem_cons.mp hx with heq | hx
      · rw [(Prod.mk.inj heq).2, h.value?_eq, h.slot_eq]
        rfl
      · exact ih hnext hx
    | _ => exact ih hnext hx

/-- A constant that is carried is given to the next record, and unless it is a metric to all. -/
theorem Carries.eq_of_getElem?_given (h : t.Carries s source) {acts : List Act} {i : Nat}
    {o : Origin} {x : Option Value} (hx : (t.given s acts)[i]? = some (o, x)) :
    x = if t.field.isMetric = true ∧ i ≠ 0 then none else source.value? s := by
  induction acts generalizing t i with
  | nil => cases hx
  | cons act acts ih =>
    cases act with
    | emit ofRow column origin =>
      rw [given] at hx
      cases i with
      | zero =>
        obtain ⟨-, rfl⟩ := Prod.mk.inj (Option.some.inj hx)
        rw [h.value?_eq, h.slot_eq, Slot.value?_ofResolution, ConstantSource.value?_resolution,
          if_neg fun hne => hne.2 rfl]
      | succ i =>
        rw [List.getElem?_cons_succ] at hx
        by_cases hmetric : t.field.isMetric = true
        · -- The first record has taken the constant along.
          have hgiven := h.hasGiven hmetric ofRow column origin
          rw [if_pos ⟨hmetric, i.succ_ne_zero⟩]
          exact hgiven.eq_none_of_mem_given (List.mem_of_getElem? hx)
        · have hnext := h.emit (Bool.not_eq_true _ ▸ hmetric) ofRow column origin
          have hrest := ih hnext hx
          rw [act_field, if_neg fun hne => hmetric hne.1] at hrest
          rw [if_neg fun hne => hmetric hne.1]
          exact hrest
    | _ =>
      have hrest := ih (h.act fun _ => rfl) hx
      rwa [act_field] at hrest

end Track

/-! ### Reading comes first -/

theorem rowsOf_ne_nil {vs : List Visit} (h : vs ≠ []) : rowsOf vs ≠ [] := by
  intro hnil
  have hflat := flatMap_rowsOf vs
  rw [hnil] at hflat
  exact h hflat.symm

namespace Prepared

variable {p : Prepared}

/-- A sheet begins with the visit of its first cell. -/
theorem exists_head?_sheetActs (name : String) {vs : List Visit} (h : vs ≠ []) :
    ∃ v, (p.sheetActs name vs).head? = some (.observe v) := by
  obtain ⟨⟨r, row⟩, rows, hrows⟩ := List.exists_cons_of_ne_nil (rowsOf_ne_nil h)
  have hmem : (r, row) ∈ rowsOf vs := by
    rw [hrows]
    exact List.mem_cons_self ..
  obtain ⟨v, row, rfl⟩ := List.exists_cons_of_ne_nil (of_mem_rowsOf hmem).1
  refine ⟨v, ?_⟩
  rw [sheetActs, if_neg h, hrows, List.flatMap_cons]
  rfl

/-- **Reading comes first.**  Nothing is done before constants are read. -/
theorem reads_of_mem_head?_schedule {act : Act} (h : act ∈ p.schedule.head?) :
    act.reads = true := by
  rw [schedule, List.head?_append, List.head?_flatMap, Option.mem_def,
    Option.or_eq_some_iff] at h
  rcases h with h | ⟨-, h⟩
  · obtain ⟨sheet, -, hsheet⟩ := List.exists_of_findSome?_eq_some h
    by_cases hvs : p.scan.sheetVisits sheet.2 sheet.1 = []
    · rw [sheetActs, if_pos hvs] at hsheet
      cases hsheet
    · obtain ⟨v, hv⟩ := exists_head?_sheetActs (p := p) sheet.1 hvs
      rw [hv] at hsheet
      cases hsheet
      rfl
  · unfold endActs at h
    split_ifs at h
    · cases h
      rfl
    · cases h

/-- **What the records are given of a constant.** -/
theorem eq_of_getElem?_given_constant {f : PlannedField} {source : ConstantSource}
    (hplan : f.plan = .constant source) {i : Nat} {o : Origin} {x : Option Value}
    (hx : ((Track.start f .document).given p.scan p.schedule)[i]? = some (o, x)) :
    x = if f.isMetric = true ∧ i ≠ 0 then none else source.value? p.scan := by
  cases hschedule : p.schedule with
  | nil =>
    rw [hschedule] at hx
    cases hx
  | cons act acts =>
    have hreads : act.reads = true := reads_of_mem_head?_schedule (by rw [hschedule]; rfl)
    have hcarries : ((Track.start f .document).act p.scan act).Carries p.scan source :=
      Track.carries_of_reads hplan hreads
    have hgiven : (Track.start f .document).given p.scan p.schedule =
        ((Track.start f .document).act p.scan act).given p.scan acts := by
      rw [hschedule]
      cases act with
      | emit ofRow column origin => cases hreads
      | _ => rfl
    rw [hgiven] at hx
    have hx := hcarries.eq_of_getElem?_given hx
    rwa [Track.act_field] at hx

end Prepared

/-! ### Extractions -/

/-- The value of a constant: the one known beforehand, or else that of its cell, which is empty if
the cell is blank, and absent if its sheet is not scanned. -/
def Scan.constant? (s : Scan) (q : Position) (value : Option Value) : Option Value :=
  value.or (if q.rank.isReachable then some ((s.value? q).getD .empty) else none)

/-- The plan of a constant has its value. -/
theorem Addressing.exists_plan_constant {o : SheetOrder} {place : Place} {value : Option Value}
    {plan : Plan} (h : (Addressing.constant place value).plan o = .ok plan) :
    ∃ q source, o.locate place = .ok q ∧ plan = .constant source ∧
      ∀ g, source.value? ⟨g, o⟩ = Scan.constant? ⟨g, o⟩ q value := by
  obtain ⟨q, hq, hplan⟩ := exists_of_bind_eq_ok h
  refine ⟨q, _, hq, (Except.ok.inj hplan).symm, fun g => ?_⟩
  cases value <;> rfl

/-- **Constants in records.**  The value of a constant is in every record, or for a metric field in
the first record and in no other.  It does not matter which cells are visited, nor whether any are: a
document of constants has its one record in any case. -/
theorem Schema.get?_constant {schema : Schema} {w : Workbook} {e : Extraction}
    (h : schema.extract w = .ok e) :
    ∃ p, schema.prepare w = .ok p ∧
      (∀ field ∈ schema.fields, ∀ place value, field.addressing = .ok (.constant place value) →
        ∃ q, p.scan.order.locate place = .ok q ∧
          ∀ i record, e.records[i]? = some record →
            record.get? field.name =
              if field.isMetric = true ∧ i ≠ 0 then none else p.scan.constant? q value) ∧
      (p.grouping = .document → schema.options.recordLimit ≠ some 0 →
        ∃ record, e.records = [record]) := by
  obtain ⟨p, hprepare, hp, hrecords⟩ := Schema.records_extract w.isLawful_grid h
  obtain ⟨-, -, -, hfields⟩ := Schema.of_prepare_eq_ok hprepare
  have hprefix : e.records <+: recordsOf p.scan p.names p.tracks p.schedule := by
    rw [hrecords]
    split
    · exact List.prefix_rfl
    · exact List.take_prefix _ _
  refine ⟨p, hprepare, ?_, ?_⟩
  · intro field hfield place value haddressing
    obtain ⟨f, hf, hplan⟩ := exists_of_mem_forall₂ (planFields_eq_ok_iff.mp hfields) hfield
    obtain ⟨q, source, hq, hsource, hvalue⟩ :=
      Addressing.exists_plan_constant (Field.addressing_plan hplan haddressing)
    have hname : f.name = field.name := Field.name_plan hplan
    have hmetric : f.isMetric = field.isMetric := Field.isMetric_plan hplan
    have hrole : p.role f = .document := by
      simp [Prepared.role, PlannedField.role, PlannedField.axis, hsource, Plan.axis]
    refine ⟨q, hq, ?_⟩
    intro i record hrecord
    have hgiven : ((Track.start f .document).given p.scan p.schedule)[i]? =
        some (record.origin, record.get? f.name) := by
      have hi : (recordsOf p.scan p.names p.tracks p.schedule)[i]? = some record := by
        obtain ⟨hlt, -⟩ := List.getElem?_eq_some_iff.mp hrecord
        obtain ⟨rest, hrest⟩ := hprefix
        rw [← hrest, List.getElem?_append_left hlt, hrecord]
      rw [← hrole, ← Prepared.get?_recordsOf hp hf, List.getElem?_map, hi]
      rfl
    have hx := Prepared.eq_of_getElem?_given_constant hsource hgiven
    rw [← hname, ← hmetric, hx]
    exact if_congr Iff.rfl rfl (hvalue p.scan.grid)
  · intro hgrouping hlimit
    have horigins : (recordsOf p.scan p.names p.tracks p.schedule).map (·.origin) =
        [⟨none, none, none⟩] := by
      rw [origin_recordsOf, Prepared.filterMap_origin?_schedule hp, Prepared.origins, hgrouping]
    obtain ⟨record, hrecord⟩ : ∃ record,
        recordsOf p.scan p.names p.tracks p.schedule = [record] := by
      have hlength := congrArg List.length horigins
      rw [List.length_map] at hlength
      exact List.length_eq_one_iff.mp hlength
    refine ⟨record, ?_⟩
    rw [hrecords, hrecord]
    cases hn : schema.options.recordLimit with
    | none => rfl
    | some n =>
      cases n with
      | zero => exact absurd hn hlimit
      | succ n => simp

/-- A table of two cells next to each other. -/
def rateTable : Workbook :=
  ⟨[⟨"Rates", (Store.empty.set ⟨0, 1⟩ (.boolean true)).set ⟨0, 2⟩ (.boolean false)⟩]⟩

/-- A blank cell as a metric. -/
def rateField : Field :=
  { Field.named "rate" with row := some 3, column := some 3, type := .number }

/-- The first cell. -/
def unitField : Field :=
  { Field.named "unit" with row := some 0, column := some 1 }

/-- The two constants, with a field down a column and one along the row. -/
def rateSchema : Schema :=
  ⟨[{ Field.named "label" with column := some 1 }, { Field.named "body" with row := some 0 },
    rateField, unitField], .default⟩

/-- The schema made ready for the table. -/
def ratePrepared : Prepared :=
  ⟨⟨rateTable, .ofNames ["Rates"]⟩,
    [⟨"label", false, none, .columnScan none 1 0⟩, ⟨"body", false, none, .rowScan none 0⟩,
      ⟨"rate", true, none, .constant (.cell ⟨.sheet 0, ⟨3, 3⟩⟩)⟩,
      ⟨"unit", false, none, .constant (.cell ⟨.sheet 0, ⟨0, 1⟩⟩)⟩]⟩

/-- The row has two records, which are put together at once.  The first one has the empty value of
the blank cell, and both have the value of the other. -/
theorem Schema.get?_constant_rateTable :
    rateSchema.extract rateTable = .ok (.start ratePrepared none) ∧
      (Extraction.start ratePrepared none).records.length = 2 ∧
      ∀ i record, (Extraction.start ratePrepared none).records[i]? = some record →
        record.get? "rate" = (if i = 0 then some .empty else none) ∧
          record.get? "unit" = some (.boolean true) := by
  have hextract : rateSchema.extract rateTable = .ok (.start ratePrepared none) := rfl
  refine ⟨hextract, by decide +kernel, ?_⟩
  obtain ⟨p, hprepare, hconstants, -⟩ := Schema.get?_constant hextract
  have hprepare' : rateSchema.prepare rateTable = .ok ratePrepared := rfl
  obtain rfl : ratePrepared = p := Except.ok.inj (hprepare'.symm.trans hprepare)
  obtain ⟨q, hq, hrate⟩ := hconstants rateField (by simp [rateSchema]) ⟨none, ⟨3, 3⟩⟩ none rfl
  obtain ⟨q', hq', hunit⟩ := hconstants unitField (by simp [rateSchema]) ⟨none, ⟨0, 1⟩⟩ none rfl
  obtain rfl : ⟨.sheet 0, ⟨3, 3⟩⟩ = q := Except.ok.inj hq
  obtain rfl : ⟨.sheet 0, ⟨0, 1⟩⟩ = q' := Except.ok.inj hq'
  intro i record hrecord
  constructor
  · refine (hrate i record hrecord).trans ?_
    by_cases hi : i = 0
    · rw [if_neg fun h => h.2 hi, if_pos hi]
      rfl
    · rw [if_pos ⟨rfl, hi⟩, if_neg hi]
  · refine (hunit i record hrecord).trans ?_
    rw [if_neg fun h => Bool.false_ne_true h.1]
    rfl

end SheetRecords
