import SheetRecords.Proofs.Record.Scanned
import SheetRecords.Proofs.Record.Select

/-!
# Sheets that are not scanned

A field that is addressed on sheets outside the scan finds nothing there, but what it lists or scans
there still counts for its axis, and the axes of all fields together settle their roles.  Leaving
that part of its addressing out keeps the records as long as it keeps the roles
(`Schema.extract_unscanned`), and may lead to others if it does not
(`Schema.records_ne_of_unscanned`).
-/

namespace SheetRecords

open Cell

/-! ### Fields that find nothing -/

/-- A plan that leads to no cell within reach: none at all, or a scan of a sheet that is out of
reach. -/
def Plan.IsSilent : Plan → Prop
  | .columnScan sheet _ _ => sheet = some .unreachable
  | .rowScan sheet _ => sheet = some .unreachable
  | .void => True
  | _ => False

namespace Plan.IsSilent

variable {plan : Plan}

theorem isConstant_eq_false (h : plan.IsSilent) : plan.isConstant = false := by
  cases plan with
  | constant source => cases h
  | _ => rfl

/-- It addresses no cell within reach. -/
theorem addresses_eq_false (h : plan.IsSilent) {p : Position} (hp : p.rank.isReachable = true) :
    plan.addresses p = false := by
  have hne : Rank.unreachable ≠ p.rank := by
    rintro heq
    rw [← heq] at hp
    cases hp
  cases plan with
  | constant source => cases h
  | columnScan sheet column firstRow =>
    obtain rfl : sheet = some .unreachable := h
    simp [addresses, hne]
  | rowScan sheet row =>
    obtain rfl : sheet = some .unreachable := h
    simp [addresses, hne]
  | list entries => cases h
  | void => rfl

/-- It contributes nothing where a scan can come. -/
theorem resolve_eq_none {f : PlannedField} (h : f.plan.IsSilent) {s : Scan} {v : Visit}
    (hv : v.position.rank.isReachable = true) (c : Cursor) : (f.resolve s v c).1 = .none := by
  have haddresses := h.addresses_eq_false hv
  cases hplan : f.plan with
  | constant source =>
    rw [hplan] at h
    cases h
  | columnScan sheet column firstRow =>
    rw [hplan] at haddresses
    rw [PlannedField.resolve_columnScan hplan, haddresses]
    rfl
  | rowScan sheet row =>
    rw [hplan] at haddresses
    rw [PlannedField.resolve_rowScan hplan, haddresses]
    rfl
  | list entries =>
    rw [hplan] at h
    cases h
  | void => rw [PlannedField.resolve, hplan]

end Plan.IsSilent

/-- A track that is offered nothing gives no values. -/
theorem Track.given_of_silent {s : Scan} {t : Track} (hsilent : t.field.plan.IsSilent)
    {acts : List Act} (hreachable : ∀ v ∈ Act.visits acts, v.position.rank.isReachable = true)
    (hempty : ∀ k, t.slotAt k = .empty) :
    t.given s acts = (acts.filterMap Act.origin?).map fun origin => (origin, none) := by
  induction acts generalizing t with
  | nil => rfl
  | cons act acts ih =>
    rw [← List.singleton_append, Act.visits_append] at hreachable
    have hstep : ∀ k, (t.act s act).slotAt k = .empty := by
      intro k
      refine slotAt_act_eq_empty hsilent.isConstant_eq_false (hempty k) ?_
      rintro v rfl - c
      refine hsilent.resolve_eq_none (hreachable v (List.mem_append_left _ ?_)) c
      exact List.mem_singleton_self _
    have hrest := ih (t := t.act s act) (by rwa [act_field])
      (fun v hv => hreachable v (List.mem_append_right _ hv)) hstep
    cases act with
    | emit ofRow column origin =>
      have hnone : t.value? ofRow column = none := by
        rw [value?_eq_slotAt]
        cases t.outlet ofRow column with
        | none => rfl
        | some k => rw [Option.bind_some, hempty k]; rfl
      rw [given, hnone, hrest]
      rfl
    | _ => exact hrest

/-! ### One field in the place of another -/

namespace Prepared

/-- Two extractions of one scan that differ in one field, with the same name in both. -/
structure Replaces (p p' : Prepared) (before after : List PlannedField) (g g' : PlannedField) :
    Prop where
  scan : p'.scan = p.scan
  fields : p.fields = before ++ g :: after
  fields' : p'.fields = before ++ g' :: after
  name : g'.name = g.name

namespace Replaces

variable {p p' : Prepared} {before after : List PlannedField} {g g' : PlannedField}

theorem mem_fields_iff (h : p.Replaces p' before after g g') {f : PlannedField} :
    f ∈ p.fields ↔ f = g ∨ f ∈ before ++ after := by
  rw [h.fields, List.perm_middle.mem_iff, List.mem_cons]

theorem mem_fields_iff' (h : p.Replaces p' before after g g') {f : PlannedField} :
    f ∈ p'.fields ↔ f = g' ∨ f ∈ before ++ after := by
  rw [h.fields', List.perm_middle.mem_iff, List.mem_cons]

theorem names (h : p.Replaces p' before after g g') : p'.names = p.names := by
  unfold Prepared.names
  rw [h.fields, h.fields', List.map_append, List.map_append, List.map_cons, List.map_cons, h.name]

/-- If the other fields keep their roles and the two fields have the same sources, the acts are the
same. -/
theorem schedule_eq (h : p.Replaces p' before after g g') (hgrouping : p'.grouping = p.grouping)
    (hroles : ∀ f ∈ before ++ after, p'.role f = p.role f)
    (hsources : ∀ v ∈ p.scan.visits, ∀ role,
      (p'.role g' = role && g'.plan.addresses v.position) =
        (p.role g = role && g.plan.addresses v.position)) :
    p'.schedule = p.schedule := by
  refine schedule_congr h.scan hgrouping fun role v hv => ?_
  have hothers : ∀ fields : List PlannedField, (∀ f ∈ fields, f ∈ before ++ after) →
      (fields.any fun f => p'.role f = role && f.plan.addresses v.position) =
        fields.any fun f => p.role f = role && f.plan.addresses v.position :=
    fun fields hfields => any_congr_of_mem fun f hf => by rw [hroles f (hfields f hf)]
  unfold isSource
  rw [h.fields, h.fields', List.any_append, List.any_append, List.any_cons, List.any_cons,
    hothers before fun f hf => List.mem_append_left _ hf,
    hothers after fun f hf => List.mem_append_right _ hf, hsources v hv role]

/-- If in addition the two fields give the same values, the records are the same. -/
theorem recordsOf_eq (h : p.Replaces p' before after g g') (hp : p.IsLawful) (hp' : p'.IsLawful)
    (hroles : ∀ f ∈ before ++ after, p'.role f = p.role f) (hschedule : p'.schedule = p.schedule)
    (hgiven : (Track.start g' (p'.role g')).given p.scan p.schedule =
      (Track.start g (p.role g)).given p.scan p.schedule) :
    recordsOf p'.scan p'.names p'.tracks p'.schedule =
      recordsOf p.scan p.names p.tracks p.schedule := by
  have hselect : (recordsOf p'.scan p'.names p'.tracks p'.schedule).map (·.select p.names) =
      recordsOf p'.scan p'.names p'.tracks p'.schedule := by
    rw [← h.names, map_select_names hp']
  rw [← hselect, ← map_select_names hp]
  refine map_select_eq hp' hp (by rw [hschedule]) fun n hn => ?_
  obtain ⟨f, hf, rfl⟩ := List.mem_map.mp hn
  rw [h.scan, hschedule]
  by_cases hother : f ∈ before ++ after
  · exact ⟨f, h.mem_fields_iff'.mpr (.inr hother), f, hf, rfl, rfl, by rw [hroles f hother]⟩
  · obtain rfl : f = g := (h.mem_fields_iff.mp hf).resolve_right hother
    exact ⟨g', h.mem_fields_iff'.mpr (.inl rfl), f, hf, h.name, rfl, hgiven⟩

/-! #### A list without the entries out of reach -/

/-- Fields keep their roles one by one if they keep them as a whole. -/
theorem of_roles_eq (h : p.Replaces p' before after g g')
    (hroles : roles p'.fields = roles p.fields) :
    (∀ f ∈ before ++ after, p'.role f = p.role f) ∧ p'.role g' = p.role g := by
  have hmap : (before ++ g' :: after).map p'.role = (before ++ g :: after).map p.role := by
    rw [← h.fields, ← h.fields']
    exact hroles
  rw [List.map_append, List.map_append, List.map_cons, List.map_cons] at hmap
  obtain ⟨hbefore, hrest⟩ := List.append_inj hmap (by rw [List.length_map, List.length_map])
  obtain ⟨hg, hafter⟩ := List.cons.inj hrest
  refine ⟨fun f hf => ?_, hg⟩
  rcases List.mem_append.mp hf with hf | hf
  · exact List.map_inj_left.mp hbefore f hf
  · exact List.map_inj_left.mp hafter f hf

/-- The records stay if all fields keep their roles. -/
theorem recordsOf_eq_of_list {entries : Array Entry}
    (h : p.Replaces p' before after g
      { g with plan := .list (scannedEntries entries.toList).toArray })
    (hl : g.plan = .list entries) (hp : p.IsLawful) (hp' : p'.IsLawful)
    (hroles : roles p'.fields = roles p.fields) :
    recordsOf p'.scan p'.names p'.tracks p'.schedule =
      recordsOf p.scan p.names p.tracks p.schedule := by
  obtain ⟨hothers, hg⟩ := h.of_roles_eq hroles
  have hplan := hp.plans g (h.mem_fields_iff.mpr (.inl rfl))
  have hplan' := hp'.plans _ (h.mem_fields_iff'.mpr (.inl rfl))
  have hschedule : p'.schedule = p.schedule := by
    refine h.schedule_eq (by rw [grouping, grouping, hroles]) hothers fun v hv role => ?_
    rw [hg, hl, Plan.addresses_scannedEntries entries (Scan.isReachable_of_mem_visits hv)]
  refine h.recordsOf_eq hp hp' hothers hschedule ?_
  rw [hg]
  exact Track.given_of_like (PlannedField.like_scanned hl) _ hplan hplan' (by rw [hl]; rfl)
    hp.inOrder_schedule fun _ hv => isReachable_of_mem_schedule hv

/-! #### A field that finds nothing -/

/-- The records stay if the grouping and the roles of the other fields do. -/
theorem recordsOf_eq_of_silent (h : p.Replaces p' before after g g') (hsilent : g.plan.IsSilent)
    (hsilent' : g'.plan.IsSilent) (hp : p.IsLawful) (hp' : p'.IsLawful)
    (hgrouping : p'.grouping = p.grouping)
    (hroles : ∀ f ∈ before ++ after, p'.role f = p.role f) :
    recordsOf p'.scan p'.names p'.tracks p'.schedule =
      recordsOf p.scan p.names p.tracks p.schedule := by
  have hreachable : ∀ v ∈ Act.visits p.schedule, v.position.rank.isReachable = true :=
    fun _ hv => isReachable_of_mem_schedule hv
  have hschedule : p'.schedule = p.schedule := by
    refine h.schedule_eq hgrouping hroles fun v hv role => ?_
    have hv := Scan.isReachable_of_mem_visits hv
    rw [hsilent.addresses_eq_false hv, hsilent'.addresses_eq_false hv, Bool.and_false,
      Bool.and_false]
  refine h.recordsOf_eq hp hp' hroles hschedule ?_
  rw [Track.given_of_silent hsilent hreachable (Track.slotAt_start _ _),
    Track.given_of_silent hsilent' hreachable (Track.slotAt_start _ _)]

end Replaces

/-! ### Roles that are kept -/

/-- All fields but the one of a name keep their roles, and the records are told apart as before. -/
structure KeepsRoles (p p' : Prepared) (name : String) : Prop where
  grouping : p'.grouping = p.grouping
  role : ∀ f ∈ p.fields, f.name ≠ name → p'.role f = p.role f

/-- Besides the field of a name another one has its axis, and another one its role. -/
def IsBacked (p : Prepared) (name : String) : Prop :=
  ∃ g ∈ p.fields, g.name = name ∧ (∃ f ∈ p.fields, f.name ≠ name ∧ f.axis = g.axis) ∧
    ∃ f ∈ p.fields, f.name ≠ name ∧ p.role f = p.role g

namespace Replaces

variable {p p' : Prepared} {before after : List PlannedField} {g g' : PlannedField}

/-- The other fields are those with other names. -/
theorem mem_others_iff (h : p.Replaces p' before after g g') (hp : p.IsLawful) {f : PlannedField} :
    f ∈ before ++ after ↔ f ∈ p.fields ∧ f.name ≠ g.name := by
  have hnodup : (g.name :: (before ++ after).map (·.name)).Nodup := by
    have hnames := hp.nodup_names
    rw [Prepared.names, h.fields] at hnames
    exact (List.perm_middle.map _).nodup_iff.mp hnames
  have hnew := (List.nodup_cons.mp hnodup).1
  rw [h.mem_fields_iff]
  constructor
  · intro hf
    exact ⟨.inr hf, fun heq => hnew (heq ▸ List.mem_map_of_mem hf)⟩
  · rintro ⟨rfl | hf, hne⟩
    · exact absurd rfl hne
    · exact hf

/-- Fields keep their roles if the new field has the axis and the depth of the old one. -/
theorem roles_eq (h : p.Replaces p' before after g g') (haxis : g'.axis = g.axis)
    (hdepth : g'.declaredDepth = g.declaredDepth) : roles p'.fields = roles p.fields := by
  have hmixed : isMixed p'.fields = isMixed p.fields := by
    unfold isMixed
    rw [h.fields, h.fields']
    simp only [List.any_append, List.any_cons, haxis]
  unfold roles
  rw [hmixed, h.fields, h.fields', List.map_append, List.map_append, List.map_cons, List.map_cons,
    PlannedField.role_congr haxis hdepth]

/-- An axis or a role of the fields stays without one of them if another field has it too. -/
theorem any_eq (h : p.Replaces p' before after g g') {q : PlannedField → Bool}
    (hq : q g' = false) (hbacked : q g = true → ∃ f ∈ before ++ after, q f = true) :
    p'.fields.any q = p.fields.any q := by
  rw [Bool.eq_iff_iff, List.any_eq_true, List.any_eq_true]
  constructor
  · rintro ⟨f, hf, hqf⟩
    rcases h.mem_fields_iff'.mp hf with rfl | hf
    · rw [hq] at hqf
      cases hqf
    · exact ⟨f, h.mem_fields_iff.mpr (.inr hf), hqf⟩
  · rintro ⟨f, hf, hqf⟩
    rcases h.mem_fields_iff.mp hf with rfl | hf
    · obtain ⟨f', hf', hqf'⟩ := hbacked hqf
      exact ⟨f', h.mem_fields_iff'.mpr (.inr hf'), hqf'⟩
    · exact ⟨f, h.mem_fields_iff'.mpr (.inr hf), hqf⟩

/-- The other fields keep their roles without the cells of one that they back. -/
theorem keepsRoles (h : p.Replaces p' before after g g') (hp : p.IsLawful)
    (haxis' : g'.axis = .unset) (hbacked : p.IsBacked g.name) : p.KeepsRoles p' g.name := by
  obtain ⟨g₀, hg₀, hname, ⟨f₁, hf₁, hne₁, haxis⟩, f₂, hf₂, hne₂, hrole⟩ := hbacked
  have hf₁ := (h.mem_others_iff hp).mpr ⟨hf₁, hne₁⟩
  have hf₂ := (h.mem_others_iff hp).mpr ⟨hf₂, hne₂⟩
  obtain rfl : g₀ = g := by
    refine (h.mem_fields_iff.mp hg₀).resolve_right fun hother => ?_
    exact ((h.mem_others_iff hp).mp hother).2 hname
  have haxes : ∀ axis, axis ≠ .unset →
      (p'.fields.any (·.axis = axis)) = p.fields.any (·.axis = axis) := by
    intro axis hset
    refine h.any_eq (by simpa [haxis'] using hset.symm) fun hg => ⟨f₁, hf₁, ?_⟩
    rwa [haxis]
  have hroles : ∀ f, p'.role f = p.role f := by
    intro f
    unfold role isMixed
    rw [haxes .rows (by simp), haxes .columns (by simp)]
  have hinactive : p.role g' = .inactive := by
    unfold role PlannedField.role
    rw [haxis']
  refine ⟨grouping_congr fun r hr => ?_, fun f _ _ => hroles f⟩
  have hany : (p'.fields.any (p.role · = r)) = p.fields.any (p.role · = r) := by
    refine h.any_eq ?_ fun hg => ⟨f₂, hf₂, by rwa [hrole]⟩
    rcases hr with rfl | rfl <;> simp [hinactive]
  simp only [mem_roles_iff, hroles, hany]

end Replaces

end Prepared

/-! ### Addressing on sheets that are not scanned -/

/-- The sheet that a scan of a column or of a row is bound to. -/
def Addressing.scanSheet? : Addressing → Option SheetSelector
  | .columnScan sheet _ _ => sheet
  | .rowScan sheet _ => sheet
  | _ => none

/-- A sheet that is selected and not scanned is out of reach. -/
theorem SheetOrder.eq_unreachable_of_resolve? {o : SheetOrder} {sheet : SheetSelector}
    {rank : Option Rank} (h : o.resolve? (some sheet) = .ok rank)
    (hscans : o.scans (some sheet) = false) : rank = some .unreachable := by
  cases sheet with
  | name s =>
    obtain rfl : some (o.rank s) = rank := Except.ok.inj h
    cases hrank : o.rank s with
    | sheet i =>
      simp only [scans, hrank] at hscans
      cases hscans
    | unreachable => rfl
  | index i =>
    have hi : ¬ i < o.size := of_decide_eq_false hscans
    simp only [resolve?, resolve, if_neg hi] at h
    cases h

/-- A scan bound to a sheet that is not scanned finds nothing. -/
theorem Addressing.isSilent_of_plan {o : SheetOrder} {a : Addressing} {plan : Plan}
    (h : a.plan o = .ok plan) {sheet : SheetSelector} (hsheet : a.scanSheet? = some sheet)
    (hscans : o.scans (some sheet) = false) : plan.IsSilent := by
  have hplan := Addressing.plannedAs_of_plan h
  cases a with
  | columnScan selected column firstRow =>
    obtain rfl : selected = some sheet := hsheet
    obtain ⟨rank, hrank, rfl⟩ := hplan
    exact SheetOrder.eq_unreachable_of_resolve? hrank hscans
  | rowScan selected row =>
    obtain rfl : selected = some sheet := hsheet
    obtain ⟨rank, hrank, rfl⟩ := hplan
    exact SheetOrder.eq_unreachable_of_resolve? hrank hscans
  | _ => cases hsheet

namespace Schema

variable {schema : Schema} {w : Workbook} {p : Prepared} {e : Extraction} {before after : List Field}
  {f : Field}

/-- A field that is planned for a scan may be put in the place of one of the same name. -/
theorem exists_replaces (hprepare : schema.prepare w = .ok p)
    (hfields : schema.fields = before ++ f :: after) {f' : Field} (hname : f'.name = f.name)
    {g' : PlannedField} (hg' : f'.plan p.scan.order = .ok g') :
    ∃ p' g plannedBefore plannedAfter, f.plan p.scan.order = .ok g ∧
      { schema with fields := before ++ f' :: after }.prepare w = .ok p' ∧
      p.Replaces p' plannedBefore plannedAfter g g' := by
  obtain ⟨hnodup, hgrid, horder, hplans⟩ := prepare_eq_ok_iff.mp hprepare
  rw [hfields] at hplans hnodup
  obtain ⟨plannedBefore, rest, hplanned, hbefore, hrest⟩ := exists_append_of_forall₂ hplans
  obtain ⟨g, plannedAfter, hg, hafter, rfl⟩ := List.forall₂_cons_left_iff.mp hrest
  refine ⟨⟨p.scan, plannedBefore ++ g' :: plannedAfter⟩, g, plannedBefore, plannedAfter, hg, ?_,
    rfl, hplanned, rfl, ?_⟩
  · refine prepare_eq_ok_iff.mpr ⟨?_, hgrid, horder, List.rel_append hbefore (.cons hg' hafter)⟩
    rw [List.map_append, List.map_cons] at hnodup ⊢
    rw [hname]
    exact hnodup
  · rw [Field.name_plan hg', Field.name_plan hg, hname]

/-- A list may do without what it lists on sheets that are not scanned. -/
theorem extract_scanned (hprepare : schema.prepare w = .ok p)
    (he : .start p schema.options.recordLimit = e) (hfields : schema.fields = before ++ f :: after)
    {a : Addressing} (ha : f.addressing = .ok a) (hlist : a.isList = true)
    (htwo : 2 ≤ (f.scanned p.scan.order).places.length + (f.scanned p.scan.order).entries.length) :
    ∃ p' e', { schema with fields := before ++ f.scanned p.scan.order :: after }.prepare w = .ok p' ∧
      { schema with fields := before ++ f.scanned p.scan.order :: after }.extract w = .ok e' ∧
      (roles p'.fields = roles p.fields → e'.records = e.records) ∧
      ∀ g', (f.scanned p.scan.order).plan p.scan.order = .ok g' → g'.axis = .rows →
        roles p'.fields = roles p.fields := by
  obtain ⟨-, -, -, hplans⟩ := prepare_eq_ok_iff.mp hprepare
  rw [hfields] at hplans
  obtain ⟨g, -, hg⟩ := exists_of_mem_forall₂ hplans
    (List.mem_append_right before (List.mem_cons_self ..))
  obtain ⟨entries, hl⟩ := (Addressing.isList_iff_plan (Field.addressing_plan hg ha)).mp hlist
  have hg' := Field.plan_scanned hg hl htwo
  have hname : (f.scanned p.scan.order).name = f.name := rfl
  obtain ⟨p', g₀, plannedBefore, plannedAfter, hg₀, hprepare', hreplaces⟩ :=
    exists_replaces hprepare hfields hname hg'
  obtain rfl : g = g₀ := Except.ok.inj (hg.symm.trans hg₀)
  have hp := isLawful_of_prepare w.isLawful_grid hprepare
  have hp' := isLawful_of_prepare w.isLawful_grid hprepare'
  refine ⟨p', _, hprepare', extract_eq_ok_iff.mpr ⟨p', hprepare', rfl⟩, ?_, ?_⟩
  · intro hroles
    rw [← he]
    exact Extraction.records_start_congr hp' hp _
      (hreplaces.recordsOf_eq_of_list hl hp hp' hroles)
  · intro g' hplan haxis
    obtain rfl := Except.ok.inj (hg'.symm.trans hplan)
    refine hreplaces.roles_eq (haxis.trans ?_) rfl
    unfold PlannedField.axis
    rw [hl]
    exact (Plan.axis_of_scannedEntries haxis).symm

/-- A scan bound to a sheet that is not scanned may do without cells. -/
theorem extract_void (hprepare : schema.prepare w = .ok p)
    (he : .start p schema.options.recordLimit = e) (hfields : schema.fields = before ++ f :: after)
    {a : Addressing} (ha : f.addressing = .ok a) {sheet : SheetSelector}
    (hsheet : a.scanSheet? = some sheet) (hscans : p.scan.order.scans (some sheet) = false)
    {void : Field} (hvoid : void.isVoid = true) (hname : void.name = f.name) :
    ∃ p' e', { schema with fields := before ++ void :: after }.prepare w = .ok p' ∧
      { schema with fields := before ++ void :: after }.extract w = .ok e' ∧
      (p.KeepsRoles p' f.name → e'.records = e.records) ∧
      (p.IsBacked f.name → p.KeepsRoles p' f.name) := by
  obtain ⟨p', g, plannedBefore, plannedAfter, hg, hprepare', hreplaces⟩ :=
    exists_replaces hprepare hfields hname (Field.plan_of_isVoid hvoid _)
  have hp := isLawful_of_prepare w.isLawful_grid hprepare
  have hp' := isLawful_of_prepare w.isLawful_grid hprepare'
  have hsilent := Addressing.isSilent_of_plan (Field.addressing_plan hg ha) hsheet hscans
  rw [← Field.name_plan hg]
  refine ⟨p', _, hprepare', extract_eq_ok_iff.mpr ⟨p', hprepare', rfl⟩, ?_, ?_⟩
  · intro hkeeps
    rw [← he]
    refine Extraction.records_start_congr hp' hp _
      (hreplaces.recordsOf_eq_of_silent hsilent trivial hp hp' hkeeps.grouping fun f' hf' => ?_)
    obtain ⟨hmem, hne⟩ := (hreplaces.mem_others_iff hp).mp hf'
    exact hkeeps.role f' hmem hne
  · exact hreplaces.keepsRoles hp rfl

/-- **Sheets that are not scanned.**  A list may do without its entries on sheets that are not
scanned, as long as it still lists several cells, and a scan of a column or of a row on such a sheet
may do without cells: the extraction succeeds as before, and its records are the same if the other
fields, and the list, keep their roles and the records are told apart as before.  This is so for a
list that still goes along rows, and for a scan beside other fields with its axis and its role. -/
theorem extract_unscanned (h : schema.extract w = .ok e) (hprepare : schema.prepare w = .ok p)
    (hfields : schema.fields = before ++ f :: after) {a : Addressing} (ha : f.addressing = .ok a) :
    (a.isList = true →
      2 ≤ (f.scanned p.scan.order).places.length + (f.scanned p.scan.order).entries.length →
      ∃ p' e', { schema with fields := before ++ f.scanned p.scan.order :: after }.prepare w =
          .ok p' ∧
        { schema with fields := before ++ f.scanned p.scan.order :: after }.extract w = .ok e' ∧
        (roles p'.fields = roles p.fields → e'.records = e.records) ∧
        ∀ g', (f.scanned p.scan.order).plan p.scan.order = .ok g' → g'.axis = .rows →
          roles p'.fields = roles p.fields) ∧
    ∀ sheet void, a.scanSheet? = some sheet → p.scan.order.scans (some sheet) = false →
      void.isVoid = true → void.name = f.name →
      ∃ p' e', { schema with fields := before ++ void :: after }.prepare w = .ok p' ∧
        { schema with fields := before ++ void :: after }.extract w = .ok e' ∧
        (p.KeepsRoles p' f.name → e'.records = e.records) ∧
        (p.IsBacked f.name → p.KeepsRoles p' f.name) := by
  obtain ⟨p₀, hprepare₀, he⟩ := extract_eq_ok_iff.mp h
  obtain rfl : p₀ = p := Except.ok.inj (hprepare₀.symm.trans hprepare)
  refine ⟨?_, ?_⟩
  · intro hlist htwo
    exact extract_scanned hprepare he hfields ha hlist htwo
  · intro sheet void hsheet hscans hvoid hname
    exact extract_void hprepare he hfields ha hsheet hscans hvoid hname

end Schema

/-- Two sheets, of which only the first is to be scanned. -/
def drafts : Workbook :=
  ⟨[⟨"Table", ((Store.empty.set ⟨0, 0⟩ (.boolean true)).set ⟨0, 1⟩ (.boolean false)).set ⟨1, 0⟩
      (.boolean false)⟩,
    ⟨"Draft", Store.empty.set ⟨0, 0⟩ (.boolean true)⟩]⟩

/-- The order of the first sheet alone. -/
def draftsOrder : SheetOrder := .ofNames ["Table"]

/-- Fields for the first sheet alone. -/
def draftsSchema (fields : List Field) : Schema :=
  ⟨fields, { recordLimit := none, sheetOrder := some ["Table"] }⟩

/-- A list of two rows, and of a cell that is not scanned. -/
def draftsTotal : Field :=
  { Field.named "total" with
    cells := [⟨some "Table", ⟨0, 0⟩⟩, ⟨some "Table", ⟨1, 0⟩⟩, ⟨some "Draft", ⟨0, 0⟩⟩] }

/-- A column that is not scanned. -/
def draftsNote : Field :=
  { Field.named "note" with sheet := some (.name "Draft"), column := some 0 }

/-- A column of the sheet that is scanned. -/
def draftsEntry : Field :=
  { Field.named "entry" with column := some 1 }

/-- The three fields made ready. -/
def draftsPrepared : Prepared :=
  ⟨⟨drafts, draftsOrder⟩,
    [⟨"total", false, none, .list #[⟨⟨.sheet 0, ⟨0, 0⟩⟩, none⟩, ⟨⟨.sheet 0, ⟨1, 0⟩⟩, none⟩,
        ⟨⟨.unreachable, ⟨0, 0⟩⟩, none⟩]⟩,
      ⟨"note", false, none, .columnScan (some .unreachable) 0 0⟩,
      ⟨"entry", false, none, .columnScan none 1 0⟩]⟩

/-- The draft may be left out of the list, and the note may do without cells: either way the two
records are the same. -/
theorem Schema.extract_unscanned_drafts :
    (∃ e', (draftsSchema [draftsTotal.scanned draftsOrder, draftsNote, draftsEntry]).extract drafts =
        .ok e' ∧
      e'.records =
        [⟨["total", "note", "entry"], [some (.boolean true), none, some (.boolean false)],
            ⟨some "Table", some 0, none⟩⟩,
          ⟨["total", "note", "entry"], [some (.boolean false), none, none],
            ⟨some "Table", some 1, none⟩⟩]) ∧
    ∃ e', (draftsSchema [draftsTotal, .named "note", draftsEntry]).extract drafts = .ok e' ∧
      e'.records =
        [⟨["total", "note", "entry"], [some (.boolean true), none, some (.boolean false)],
            ⟨some "Table", some 0, none⟩⟩,
          ⟨["total", "note", "entry"], [some (.boolean false), none, none],
            ⟨some "Table", some 1, none⟩⟩] := by
  have hprepare : (draftsSchema [draftsTotal, draftsNote, draftsEntry]).prepare drafts =
      .ok draftsPrepared := by
    cbv
  have hextract : (draftsSchema [draftsTotal, draftsNote, draftsEntry]).extract drafts =
      .ok (.start draftsPrepared none) := by
    cbv
  have hrecords : (Extraction.start draftsPrepared none).records =
      [⟨["total", "note", "entry"], [some (.boolean true), none, some (.boolean false)],
          ⟨some "Table", some 0, none⟩⟩,
        ⟨["total", "note", "entry"], [some (.boolean false), none, none],
          ⟨some "Table", some 1, none⟩⟩] := by
    cbv
  constructor
  · have hfields : (draftsSchema [draftsTotal, draftsNote, draftsEntry]).fields =
        [] ++ draftsTotal :: [draftsNote, draftsEntry] := rfl
    have haddressing : draftsTotal.addressing = .ok (.cellList draftsTotal.places) := by
      cbv
    have hplan : (draftsTotal.scanned draftsOrder).plan draftsOrder =
        .ok ⟨"total", false, none,
          .list #[⟨⟨.sheet 0, ⟨0, 0⟩⟩, none⟩, ⟨⟨.sheet 0, ⟨1, 0⟩⟩, none⟩]⟩ := by
      cbv
    obtain ⟨hlist, -⟩ := Schema.extract_unscanned hextract hprepare hfields haddressing
    obtain ⟨p', e', -, he', hsame, hroles⟩ := hlist rfl (by decide)
    exact ⟨e', he', (hsame (hroles _ hplan rfl)).trans hrecords⟩
  · have hfields : (draftsSchema [draftsTotal, draftsNote, draftsEntry]).fields =
        [draftsTotal] ++ draftsNote :: [draftsEntry] := rfl
    have haddressing : draftsNote.addressing =
        .ok (.columnScan (some (.name "Draft")) 0 0) := by
      cbv
    obtain ⟨-, hscan⟩ := Schema.extract_unscanned hextract hprepare hfields haddressing
    obtain ⟨p', e', -, he', hsame, hkeeps⟩ :=
      hscan _ (.named "note") rfl (by cbv) (by cbv) rfl
    refine ⟨e', he', (hsame (hkeeps ?_)).trans hrecords⟩
    refine ⟨_, List.mem_cons_of_mem _ (List.mem_cons_self ..), rfl, ?_, ?_⟩
    · exact ⟨_, List.mem_cons_self .., by decide, by decide⟩
    · exact ⟨_, List.mem_cons_self .., by decide, by decide⟩

/-- A list of two cells of one row, and of a cell that is not scanned. -/
def draftsHeading : Field :=
  { Field.named "heading" with
    cells := [⟨some "Table", ⟨0, 0⟩⟩, ⟨some "Table", ⟨0, 1⟩⟩, ⟨some "Draft", ⟨0, 0⟩⟩] }

/-- A row of the sheet that is scanned. -/
def draftsRow : Field :=
  { Field.named "entry" with row := some 0 }

/-- One field made ready for the first sheet. -/
def draftsHeadingPrepared (entries : Array Entry) : Prepared :=
  ⟨⟨drafts, draftsOrder⟩, [⟨"heading", false, none, .list entries⟩]⟩

/-- A row made ready for the first sheet, beside a note. -/
def draftsRowPrepared (note : Plan) : Prepared :=
  ⟨⟨drafts, draftsOrder⟩,
    [⟨"entry", false, none, .rowScan none 0⟩, ⟨"note", false, none, note⟩]⟩

/-- Without the draft, the heading goes along columns and no longer along rows; beside a note without
cells, the row need not be nested any longer.  Either way the records are others. -/
theorem Schema.records_ne_of_unscanned :
    (∃ e e', (draftsSchema [draftsHeading]).extract drafts = .ok e ∧
      (draftsSchema [draftsHeading.scanned draftsOrder]).extract drafts = .ok e' ∧
      (draftsHeading.scanned draftsOrder).places =
        [⟨some (.name "Table"), ⟨0, 0⟩⟩, ⟨some (.name "Table"), ⟨0, 1⟩⟩] ∧
      e.records = [⟨["heading"], [some (.boolean true)], ⟨some "Table", some 0, none⟩⟩] ∧
      e'.records =
        [⟨["heading"], [some (.boolean true)], ⟨some "Table", none, some 0⟩⟩,
          ⟨["heading"], [some (.boolean false)], ⟨some "Table", none, some 1⟩⟩] ∧
      e'.records ≠ e.records) ∧
    ∃ e e', (draftsSchema [draftsRow, draftsNote]).extract drafts = .ok e ∧
      (draftsSchema [draftsRow, .named "note"]).extract drafts = .ok e' ∧
      e.records = [] ∧
      e'.records =
        [⟨["entry", "note"], [some (.boolean false), none], ⟨some "Table", none, some 1⟩⟩] ∧
      e'.records ≠ e.records := by
  have hlist : (Extraction.start (draftsHeadingPrepared #[⟨⟨.sheet 0, ⟨0, 0⟩⟩, none⟩,
        ⟨⟨.sheet 0, ⟨0, 1⟩⟩, none⟩, ⟨⟨.unreachable, ⟨0, 0⟩⟩, none⟩]) none).records =
      [⟨["heading"], [some (.boolean true)], ⟨some "Table", some 0, none⟩⟩] := by
    cbv
  have hlist' : (Extraction.start (draftsHeadingPrepared #[⟨⟨.sheet 0, ⟨0, 0⟩⟩, none⟩,
        ⟨⟨.sheet 0, ⟨0, 1⟩⟩, none⟩]) none).records =
      [⟨["heading"], [some (.boolean true)], ⟨some "Table", none, some 0⟩⟩,
        ⟨["heading"], [some (.boolean false)], ⟨some "Table", none, some 1⟩⟩] := by
    cbv
  have hscan : (Extraction.start (draftsRowPrepared (.columnScan (some .unreachable) 0 0))
      none).records = [] := by
    cbv
  have hscan' : (Extraction.start (draftsRowPrepared .void) none).records =
      [⟨["entry", "note"], [some (.boolean false), none], ⟨some "Table", none, some 1⟩⟩] := by
    cbv
  constructor
  · refine ⟨_, _, ?_, ?_, by cbv, hlist, hlist', ?_⟩
    · cbv
    · cbv
    · rw [hlist, hlist']
      simp
  · refine ⟨_, _, ?_, ?_, hscan, hscan', ?_⟩
    · cbv
    · cbv
    · rw [hscan, hscan']
      simp

end SheetRecords
