import SheetRecords.Proofs.Record.Schedule
import SheetRecords.Proofs.Record.Stream
import SheetRecords.Proofs.Scan.Stream

/-!
# An extraction follows its schedule

`Extraction.allRecords_start`: the records of an extraction are those that the acts of its schedule
put together.

An assembly closes a row or a sheet only when it comes to the next one, or at the end.  While it
stands within a row it has done the acts up to the last visited cell (`Assembly.Follows`), and the
marks fit the visits of the row and of the sheet (`Marks.Fits`).  From one row to the next the
invariant speaks of the assembly once the open row is closed (`Assembly.Open`), and from one sheet
to the next of the assembly once all is closed (`Assembly.Between`).
-/

namespace SheetRecords

open Cell

/-! ### Marks -/

/-- Whether there is an exact value for a role among the contributions at a cell. -/
def contributes (role : Role) (observed : List (Resolution × Track)) : Bool :=
  observed.any fun x => x.2.role = role && x.1.isExact

namespace Marks

variable {p : Prepared} {m : Marks} {row sheet : List Visit}

/-- Takes note of all contributions at a cell of the given column. -/
def noteAll (m : Marks) (column : Nat) (observed : List (Resolution × Track)) : Marks :=
  observed.foldl (fun m x => m.note column x.2.role x.1) m

theorem noteAll_row (m : Marks) (column : Nat) (observed : List (Resolution × Track)) :
    (m.noteAll column observed).row = (m.row || contributes .row observed) := by
  induction observed generalizing m with
  | nil => simp [noteAll, contributes]
  | cons x observed ih =>
    change ((m.note column x.2.role x.1).noteAll column observed).row = _
    rw [ih, contributes, contributes, List.any_cons, ← Bool.or_assoc]
    congr 1
    unfold note
    cases x.1.isExact <;> cases x.2.role <;> simp

theorem mem_note_rowColumns (m : Marks) (column : Nat) (role : Role) (r : Resolution) (c : Nat) :
    c ∈ (m.note column role r).rowColumns ↔
      c ∈ m.rowColumns ∨ c = column ∧ role = .column ∧ r.isExact := by
  unfold note
  cases r.isExact <;> cases role <;> simp [or_comm, eq_comm (a := c)]

theorem mem_note_sheetColumns (m : Marks) (column : Nat) (role : Role) (r : Resolution) (c : Nat) :
    c ∈ (m.note column role r).sheetColumns ↔
      c ∈ m.sheetColumns ∨ c = column ∧ role = .column ∧ r.isExact := by
  unfold note
  cases r.isExact <;> cases role <;> simp [or_comm, eq_comm (a := c)]

theorem mem_noteAll_rowColumns (m : Marks) (column : Nat) (observed : List (Resolution × Track))
    (c : Nat) :
    c ∈ (m.noteAll column observed).rowColumns ↔
      c ∈ m.rowColumns ∨ c = column ∧ contributes .column observed := by
  induction observed generalizing m with
  | nil => simp [noteAll, contributes]
  | cons x observed ih =>
    change c ∈ ((m.note column x.2.role x.1).noteAll column observed).rowColumns ↔ _
    rw [ih, mem_note_rowColumns, contributes, contributes, List.any_cons]
    simp only [Bool.or_eq_true, Bool.and_eq_true, decide_eq_true_eq]
    tauto

theorem mem_noteAll_sheetColumns (m : Marks) (column : Nat) (observed : List (Resolution × Track))
    (c : Nat) :
    c ∈ (m.noteAll column observed).sheetColumns ↔
      c ∈ m.sheetColumns ∨ c = column ∧ contributes .column observed := by
  induction observed generalizing m with
  | nil => simp [noteAll, contributes]
  | cons x observed ih =>
    change c ∈ ((m.note column x.2.role x.1).noteAll column observed).sheetColumns ↔ _
    rw [ih, mem_note_sheetColumns, contributes, contributes, List.any_cons]
    simp only [Bool.or_eq_true, Bool.and_eq_true, decide_eq_true_eq]
    tauto

/-- Marks that fit the visits of the open row and of the open sheet. -/
structure Fits (p : Prepared) (row sheet : List Visit) (m : Marks) : Prop where
  row_eq : m.row = row.any fun v => p.isSource .row v.position
  mem_rowColumns : ∀ c, c ∈ m.rowColumns ↔ c ∈ p.sourceColumns row
  mem_sheetColumns : ∀ c, c ∈ m.sheetColumns ↔ c ∈ p.sourceColumns sheet

theorem fits_none (p : Prepared) : none.Fits p [] [] where
  row_eq := rfl
  mem_rowColumns c := by simp [none, Prepared.sourceColumns]
  mem_sheetColumns c := by simp [none, Prepared.sourceColumns]

theorem Fits.closeRow (h : m.Fits p row sheet) : m.closeRow.Fits p [] sheet where
  row_eq := rfl
  mem_rowColumns c := by simp [Marks.closeRow, Prepared.sourceColumns]
  mem_sheetColumns := h.mem_sheetColumns

theorem Fits.closeSheet (h : m.Fits p [] sheet) : m.closeSheet.Fits p [] [] where
  row_eq := h.row_eq
  mem_rowColumns c := by simp [Marks.closeSheet, Prepared.sourceColumns]
  mem_sheetColumns c := by simp [Marks.closeSheet, Prepared.sourceColumns]

theorem mem_sourceColumns_append (vs : List Visit) (v : Visit) (c : Nat) :
    c ∈ p.sourceColumns (vs ++ [v]) ↔
      c ∈ p.sourceColumns vs ∨ c = v.position.address.column ∧ p.isSource .column v.position := by
  rw [Prepared.sourceColumns, Prepared.sourceColumns, List.filter_append, List.map_append,
    List.mem_append]
  cases h : p.isSource .column v.position <;> simp [h]

/-- Marks fit on after a visit where just the sources contribute exact values. -/
theorem Fits.noteAll (h : m.Fits p row sheet) {v : Visit} {observed : List (Resolution × Track)}
    (hrow : contributes .row observed = p.isSource .row v.position)
    (hcolumn : contributes .column observed = p.isSource .column v.position) :
    (m.noteAll v.position.address.column observed).Fits p (row ++ [v]) (sheet ++ [v]) where
  row_eq := by
    rw [noteAll_row, hrow, h.row_eq]
    simp
  mem_rowColumns c := by
    rw [mem_noteAll_rowColumns, hcolumn, h.mem_rowColumns, mem_sourceColumns_append]
  mem_sheetColumns c := by
    rw [mem_noteAll_sheetColumns, hcolumn, h.mem_sheetColumns, mem_sourceColumns_append]

end Marks

/-! ### Assemblies -/

namespace Assembly

variable {p : Prepared} {a : Assembly} {acts : List Act} {row sheet : List Visit}

/-- An assembly that has done acts, where the open row and the open sheet have the given visits. -/
structure Follows (p : Prepared) (acts : List Act) (row sheet : List Visit) (a : Assembly) :
    Prop where
  names_eq : a.names = p.names
  sheetNames_eq : a.sheetNames = p.scan.order.names
  grouping_eq : a.grouping = p.grouping
  tracks_eq : a.tracks = p.tracks.map (·.after p.scan acts)
  pending_eq : a.pending = recordsOf p.scan p.names p.tracks acts
  marks : a.marks.Fits p row sheet

theorem follows_start (p : Prepared) :
    (start p.fields p.scan.order.names).Follows p [] [] [] where
  names_eq := rfl
  sheetNames_eq := rfl
  grouping_eq := rfl
  tracks_eq := by
    simp only [start, roles, Prepared.tracks, List.map_map, List.zipWith_map_right]
    rw [List.zipWith_self]
    rfl
  pending_eq := rfl
  marks := Marks.fits_none p

/-- Acts in which no record is put together change the tracks only. -/
theorem Follows.of_tracks (h : a.Follows p acts row sheet) {act : Act} (hact : act.origin? = none)
    {tracks : List Track} (htracks : tracks = a.tracks.map (·.act p.scan act)) {marks : Marks}
    {row' sheet' : List Visit} (hmarks : marks.Fits p row' sheet') :
    { a with tracks := tracks, marks := marks }.Follows p (acts ++ [act]) row' sheet' where
  names_eq := h.names_eq
  sheetNames_eq := h.sheetNames_eq
  grouping_eq := h.grouping_eq
  tracks_eq := by
    simp only
    rw [htracks, h.tracks_eq, List.map_map]
    refine List.map_congr_left fun t _ => ?_
    rw [Function.comp_apply, Track.after_append]
    rfl
  pending_eq := by
    simp only
    rw [h.pending_eq, recordsOf_append]
    cases act with
    | emit ofRow column origin => cases hact
    | _ => exact (List.append_nil _).symm
  marks := hmarks

/-- The acts of emitting records for columns. -/
def emissions (ofRow : Bool) (columns : List (Option Nat)) (origin : Option Nat → Origin) :
    List Act :=
  columns.map fun column => .emit ofRow column (origin column)

/-- Emits one record: the records so far in reverse, and the tracks. -/
def emitOne (names : List String) (ofRow : Bool) (origin : Option Nat → Origin)
    (acc : List Record × List Track) (column : Option Nat) : List Record × List Track :=
  let emitted := acc.2.map fun t => t.emit ofRow column
  (⟨names, emitted.map (·.1), origin column⟩ :: acc.1, emitted.map (·.2))

theorem foldl_emitOne (s : Scan) (names : List String) (ofRow : Bool)
    (columns : List (Option Nat)) (origin : Option Nat → Origin) (records : List Record)
    (tracks : List Track) :
    columns.foldl (emitOne names ofRow origin) (records, tracks) =
      ((recordsOf s names tracks (emissions ofRow columns origin)).reverse ++ records,
        tracks.map (·.after s (emissions ofRow columns origin))) := by
  induction columns generalizing records tracks with
  | nil => simp [emissions, recordsOf, Track.after]
  | cons column columns ih =>
    have hcons : emissions ofRow (column :: columns) origin =
        .emit ofRow column (origin column) :: emissions ofRow columns origin := rfl
    rw [List.foldl_cons, emitOne, ih, hcons, recordsOf, map_after_cons, List.reverse_cons,
      List.append_assoc, List.map_map, List.map_map]
    rfl

theorem emit_eq (s : Scan) (a : Assembly) (ofRow : Bool) (columns : List (Option Nat))
    (origin : Option Nat → Origin) :
    a.emit ofRow columns origin =
      { a with
        tracks := a.tracks.map (·.after s (emissions ofRow columns origin))
        pending := a.pending ++
          recordsOf s a.names a.tracks (emissions ofRow columns origin) } := by
  have hemit : a.emit ofRow columns origin =
      { a with
        tracks := (columns.foldl (emitOne a.names ofRow origin) ([], a.tracks)).2
        pending := a.pending ++
          (columns.foldl (emitOne a.names ofRow origin) ([], a.tracks)).1.reverse } := rfl
  rw [hemit, foldl_emitOne s, List.append_nil, List.reverse_reverse]

theorem Follows.emit (h : a.Follows p acts row sheet) (ofRow : Bool) (columns : List (Option Nat))
    (origin : Option Nat → Origin) :
    (a.emit ofRow columns origin).Follows p (acts ++ emissions ofRow columns origin) row sheet := by
  rw [emit_eq p.scan]
  exact
    { names_eq := h.names_eq
      sheetNames_eq := h.sheetNames_eq
      grouping_eq := h.grouping_eq
      tracks_eq := by
        simp only
        rw [h.tracks_eq, List.map_map]
        refine List.map_congr_left fun t _ => ?_
        rw [Function.comp_apply, Track.after_append]
      pending_eq := by
        simp only
        rw [h.pending_eq, h.names_eq, h.tracks_eq, recordsOf_append]
      marks := h.marks }

/-- What tracks contribute at a visited cell, and the tracks afterwards. -/
def observed (s : Scan) (v : Visit) (tracks : List Track) : List (Resolution × Track) :=
  tracks.map fun t => ((t.field.resolve s v t.cursor).1, t.act s (.observe v))

/-- The fields of a role that have exact values at a visited cell are those that it is a source
of. -/
theorem contributes_observed (hp : p.IsLawful) {v : Visit}
    (horder : Act.InOrder p.scan (acts ++ [.observe v])) {role : Role}
    (hrole : role = .row ∨ role = .column) :
    contributes role (observed p.scan v (p.tracks.map (·.after p.scan acts))) =
      p.isSource role v.position := by
  rw [contributes, observed, Prepared.tracks, List.any_map, List.any_map, List.any_map,
    Prepared.isSource, Bool.eq_iff_iff, List.any_eq_true, List.any_eq_true]
  refine exists_congr fun f => and_congr_right fun hf => ?_
  rw [← Bool.eq_iff_iff]
  simp only [Function.comp_apply, Track.act_role, Track.after_role, Track.start]
  -- The fields of other roles have no part on either side.
  by_cases hf_role : p.role f = role
  · have hconstant := Prepared.isConstant_of_role (hf_role ▸ hrole)
    have hfollows := Track.follows_after (hp.plans f hf) (p.role f) horder.of_append
    have hexact := hfollows.isExact_resolve (by simpa [Track.start] using hp.plans f hf)
      (by simpa [Track.start] using hconstant) (horder.lt_of_standsAt rfl)
      (horder.agrees v (by simp [Act.visits, Act.visit?]))
    simp only [hf_role, decide_true, Bool.true_and]
    simpa [Track.start, hf_role] using hexact
  · simp [hf_role]

theorem Follows.observe (hp : p.IsLawful) (h : a.Follows p acts row sheet) {v : Visit}
    (horder : Act.InOrder p.scan (acts ++ [.observe v])) :
    (a.observeAll v.position.address.column fun t =>
      t.field.resolve p.scan v t.cursor).Follows p (acts ++ [.observe v]) (row ++ [v])
        (sheet ++ [v]) := by
  have hrow := contributes_observed hp horder (.inl rfl)
  have hcolumn := contributes_observed hp horder (.inr rfl)
  rw [← h.tracks_eq] at hrow hcolumn
  refine h.of_tracks rfl ?_ (h.marks.noteAll hrow hcolumn)
  rw [List.map_map]
  rfl

/-- The name of a scanned sheet. -/
theorem Follows.sheetName?_eq (h : a.Follows p acts row sheet) (i : Nat) :
    a.sheetName? (.sheet i) = p.scan.order.names[i]? := by
  rw [sheetName?, h.sheetNames_eq]
  rfl

theorem Follows.rowRecordColumns_eq (h : a.Follows p acts row sheet) :
    a.rowRecordColumns = p.rowColumns row := by
  rw [rowRecordColumns, Prepared.rowColumns, h.grouping_eq, h.marks.row_eq,
    toList_eq_ascending h.marks.mem_rowColumns]
  cases row.any fun v => p.isSource .row v.position <;> rfl

theorem Follows.sheetRecordColumns_eq (h : a.Follows p acts row sheet) :
    a.sheetRecordColumns = p.sheetColumns sheet := by
  rw [sheetRecordColumns, Prepared.sheetColumns, h.grouping_eq,
    toList_eq_ascending h.marks.mem_sheetColumns]

/-- Closing the open row emits its records. -/
theorem Follows.closeRow (h : a.Follows p acts row sheet) {i : Nat} {name : String}
    (hname : p.scan.order.names[i]? = some name) (r : Nat) :
    (a.closeRow (.sheet i) r).Follows p (acts ++ p.rowEmissions name r row ++ [.closeRow]) [] sheet
    := by
  have hemit := h.emit true (p.rowColumns row) fun column => ⟨some name, some r, column⟩
  have heq : a.closeRow (.sheet i) r =
      { a.emit true (p.rowColumns row) fun column => ⟨some name, some r, column⟩ with
        tracks := (a.emit true (p.rowColumns row) fun column =>
          ⟨some name, some r, column⟩).tracks.map Track.closeRow
        marks := a.marks.closeRow } := by
    rw [Assembly.closeRow, h.rowRecordColumns_eq, h.sheetName?_eq, hname]
    rfl
  rw [heq]
  exact hemit.of_tracks rfl rfl h.marks.closeRow

/-- Closing the open sheet emits its records. -/
theorem Follows.closeSheet (h : a.Follows p acts [] sheet) {i : Nat} {name : String}
    (hname : p.scan.order.names[i]? = some name) :
    (a.closeSheet (.sheet i)).Follows p (acts ++ p.sheetEmissions name sheet ++ [.closeSheet]) [] []
    := by
  have hemit := h.emit false (p.sheetColumns sheet) fun column => ⟨some name, none, column⟩
  have heq : a.closeSheet (.sheet i) =
      { a.emit false (p.sheetColumns sheet) fun column => ⟨some name, none, column⟩ with
        tracks := (a.emit false (p.sheetColumns sheet) fun column =>
          ⟨some name, none, column⟩).tracks.map Track.closeSheet
        marks := a.marks.closeSheet } := by
    rw [Assembly.closeSheet, h.sheetRecordColumns_eq, h.sheetName?_eq, hname]
    rfl
  rw [heq]
  exact hemit.of_tracks rfl rfl h.marks.closeSheet

/-! ### Within a sheet -/

theorem enter_current (a : Assembly) (q : Position) : (a.enter q).current = some q.rowKey := rfl

/-- Nothing is closed within a row. -/
theorem enter_of_current_eq {q : Position} (h : a.current = some q.rowKey) : a.enter q = a := by
  rw [enter, h]
  simp only [Position.rowKey, if_true]
  rw [← Position.rowKey, ← h]

theorem Follows.of_current (h : a.Follows p acts row sheet) (current : Option (Rank × Nat)) :
    { a with current := current }.Follows p acts row sheet :=
  ⟨h.names_eq, h.sheetNames_eq, h.grouping_eq, h.tracks_eq, h.pending_eq, h.marks⟩

/-- The visits of a row that is open. -/
theorem Follows.foldl_visit (hp : p.IsLawful) {rowKey : Rank × Nat} {vs : List Visit}
    (hvs : ∀ v ∈ vs, v.position.rowKey = rowKey) (hcurrent : a.current = some rowKey)
    (h : a.Follows p acts row sheet) (horder : Act.InOrder p.scan (acts ++ vs.map .observe)) :
    (vs.foldl (visit p.scan) a).current = some rowKey ∧
      (vs.foldl (visit p.scan) a).Follows p (acts ++ vs.map .observe) (row ++ vs)
        (sheet ++ vs) := by
  induction vs generalizing a acts row sheet with
  | nil => simpa using ⟨hcurrent, h⟩
  | cons v vs ih =>
    have hv : v.position.rowKey = rowKey := hvs v (List.mem_cons_self ..)
    rw [List.map_cons, List.append_cons] at horder
    have hvisit : a.visit p.scan v = a.observeAll v.position.address.column fun t =>
        t.field.resolve p.scan v t.cursor := by
      rw [visit, enter_of_current_eq (hv ▸ hcurrent)]
    have hobserve := h.observe hp horder.of_append
    rw [← hvisit] at hobserve
    have hnext : (a.visit p.scan v).current = some rowKey := by
      rw [hvisit]
      exact hcurrent
    have hrest := ih (fun u hu => hvs u (List.mem_cons_of_mem _ hu)) hnext hobserve horder
    simpa using hrest

/-- An assembly within a sheet, which has done the acts as soon as the open row is closed. -/
structure Open (p : Prepared) (i r : Nat) (acts : List Act) (sheet : List Visit) (a : Assembly) :
    Prop where
  current_eq : a.current = some (.sheet i, r)
  closed : (a.closeRow (.sheet i) r).Follows p acts [] sheet

/-- Coming to another row closes the open one. -/
theorem Open.enter {i r : Nat} (h : a.Open p i r acts sheet) {q : Position}
    (hrank : q.rank = .sheet i) (hrow : q.address.row ≠ r) :
    (a.enter q).Follows p acts [] sheet := by
  have hkey : (Rank.sheet i, r) ≠ q.rowKey := fun heq => hrow (congrArg Prod.snd heq).symm
  rw [Assembly.enter, h.current_eq]
  simp only [if_neg hkey, hrank, if_true]
  exact h.closed.of_current _

/-- **One row.** -/
theorem open_foldl_visit_row (hp : p.IsLawful) {i r : Nat} {name : String}
    (hname : p.scan.order.names[i]? = some name) {vs : List Visit} (hne : vs ≠ [])
    (hvs : ∀ v ∈ vs, v.position.rowKey = (.sheet i, r))
    (h : ∀ q : Position, q.rowKey = (.sheet i, r) → (a.enter q).Follows p acts [] sheet)
    (horder : Act.InOrder p.scan (acts ++ p.rowActs name (r, vs))) :
    (vs.foldl (visit p.scan) a).Open p i r (acts ++ p.rowActs name (r, vs)) (sheet ++ vs) := by
  obtain ⟨v, rest, rfl⟩ := List.exists_cons_of_ne_nil hne
  have hv := hvs v (List.mem_cons_self ..)
  -- The first visit comes to the row, and the others find it open.
  have henter : (v :: rest).foldl (visit p.scan) a =
      (v :: rest).foldl (visit p.scan) (a.enter v.position) := by
    have hfirst : (a.enter v.position).visit p.scan v = a.visit p.scan v := by
      rw [visit, enter_of_current_eq (enter_current ..), ← visit]
    rw [List.foldl_cons, List.foldl_cons, hfirst]
  rw [Prepared.rowActs, List.append_assoc, ← List.append_assoc] at horder
  obtain ⟨hcurrent, hfollows⟩ := (h v.position hv).foldl_visit hp hvs
    (hv ▸ enter_current a v.position) horder.of_append
  rw [henter]
  refine ⟨hcurrent, ?_⟩
  have hclosed := hfollows.closeRow hname r
  rw [List.nil_append] at hclosed
  rw [Prepared.rowActs, List.append_assoc, ← List.append_assoc]
  simpa using hclosed

/-- **Several rows,** after an open one. -/
theorem Open.foldl_visit_rows (hp : p.IsLawful) {i r : Nat} {name : String}
    (hname : p.scan.order.names[i]? = some name) {rows : List (Nat × List Visit)}
    (hrows : ∀ x ∈ rows, x.2 ≠ [] ∧ ∀ v ∈ x.2, v.position.rowKey = (.sheet i, x.1))
    (hsorted : ((r, row) :: rows).Pairwise fun x y => x.1 < y.1)
    (h : a.Open p i r acts sheet)
    (horder : Act.InOrder p.scan (acts ++ rows.flatMap (p.rowActs name))) :
    ∃ r', ((rows.flatMap (·.2)).foldl (visit p.scan) a).Open p i r'
      (acts ++ rows.flatMap (p.rowActs name)) (sheet ++ rows.flatMap (·.2)) := by
  induction rows generalizing a acts sheet r row with
  | nil => exact ⟨r, by simpa using h⟩
  | cons x rows ih =>
    obtain ⟨r₁, row₁⟩ := x
    obtain ⟨hne, hin⟩ := hrows (r₁, row₁) (List.mem_cons_self ..)
    rw [List.pairwise_cons] at hsorted
    have hlt : r < r₁ := hsorted.1 (r₁, row₁) (List.mem_cons_self ..)
    -- Coming to the next row closes the open one.
    have henter : ∀ q : Position, q.rowKey = (.sheet i, r₁) →
        (a.enter q).Follows p acts [] sheet := by
      intro q hq
      have hrank : q.rank = .sheet i := congrArg Prod.fst hq
      have hrow : q.address.row = r₁ := congrArg Prod.snd hq
      exact h.enter hrank (by omega)
    rw [List.flatMap_cons, ← List.append_assoc] at horder
    have hfirst := open_foldl_visit_row hp hname hne hin henter horder.of_append
    obtain ⟨r', hr'⟩ := ih (fun y hy => hrows y (List.mem_cons_of_mem _ hy)) hsorted.2 hfirst horder
    refine ⟨r', ?_⟩
    rw [List.flatMap_cons, List.flatMap_cons, List.foldl_append, ← List.append_assoc,
      ← List.append_assoc]
    exact hr'

/-! ### From sheet to sheet -/

/-- An assembly before a sheet, which has done the acts as soon as all is closed. -/
structure Between (p : Prepared) (i : Nat) (acts : List Act) (a : Assembly) : Prop where
  before : ∀ rowKey, a.current = some rowKey → rowKey.1 < .sheet i
  closed : a.close.Follows p acts [] []

theorem between_start (p : Prepared) :
    (start p.fields p.scan.order.names).Between p 0 [] where
  before rowKey h := by cases h
  closed := follows_start p

/-- Coming to the sheet closes what is open. -/
theorem Between.enter {i : Nat} (h : a.Between p i acts) {q : Position} (hq : q.rank = .sheet i) :
    (a.enter q).Follows p acts [] [] := by
  have hclosed := h.closed
  rw [close] at hclosed
  rw [Assembly.enter]
  cases hcurrent : a.current with
  | none =>
    rw [hcurrent] at hclosed
    exact hclosed.of_current _
  | some rowKey =>
    obtain ⟨rank, r⟩ := rowKey
    have hrank : rank ≠ q.rank := hq ▸ (h.before _ hcurrent).ne
    have hkey : (rank, r) ≠ q.rowKey := fun heq => hrank (congrArg Prod.fst heq)
    simp only [hcurrent] at hclosed
    simp only [if_neg hkey, if_neg hrank]
    exact hclosed.of_current _

/-- **One sheet.** -/
theorem Between.foldl_visit_sheet (hp : p.IsLawful) {i : Nat} {name : String}
    (hname : p.scan.order.names[i]? = some name) (h : a.Between p i acts)
    (horder : Act.InOrder p.scan (acts ++ p.sheetActs name (p.scan.sheetVisits i name))) :
    ((p.scan.sheetVisits i name).foldl (visit p.scan) a).Between p (i + 1)
      (acts ++ p.sheetActs name (p.scan.sheetVisits i name)) := by
  have hascending := hp.rowsOf_sorted i name
  have hrank : ∀ v ∈ p.scan.sheetVisits i name, v.position.rank = .sheet i := fun v hv =>
    (Scan.mem_sheetVisits_iff.mp hv).1
  -- All that counts from here on is that the rows of the visits ascend, within one sheet.
  generalize p.scan.sheetVisits i name = vs at horder hascending hrank ⊢
  rw [Prepared.sheetActs] at horder ⊢
  by_cases hvs : vs = []
  · rw [if_pos hvs, List.append_nil, hvs]
    exact ⟨fun rowKey hk => (h.before rowKey hk).trans (Rank.sheet_lt_sheet.mpr i.lt_succ_self),
      h.closed⟩
  · rw [if_neg hvs] at horder ⊢
    have hflat := flatMap_rowsOf vs
    have hrows : ∀ x ∈ rowsOf vs, x.2 ≠ [] ∧ ∀ v ∈ x.2, v.position.rowKey = (.sheet i, x.1) := by
      intro x hx
      obtain ⟨hne, hin⟩ := of_mem_rowsOf hx
      refine ⟨hne, ?_⟩
      intro v hv
      have hmem : v ∈ vs := by
        rw [← hflat]
        exact List.mem_flatMap.mpr ⟨x, hx, hv⟩
      rw [Position.rowKey, hrank v hmem, hin v hv]
    generalize rowsOf vs = rows at horder hflat hrows hascending ⊢
    cases rows with
    | nil => exact absurd hflat.symm hvs
    | cons x rows =>
      obtain ⟨r, row⟩ := x
      obtain ⟨hne, hin⟩ := hrows (r, row) (List.mem_cons_self ..)
      rw [List.flatMap_cons] at hflat horder ⊢
      simp only [← List.append_assoc] at horder
      -- The first row finds everything closed, and the others find the row before them open.
      have hfirst := open_foldl_visit_row hp hname hne hin
        (fun q hq => h.enter (congrArg Prod.fst hq)) horder.of_append.of_append.of_append
      obtain ⟨r', hopen⟩ := Open.foldl_visit_rows hp hname
        (fun y hy => hrows y (List.mem_cons_of_mem _ hy)) hascending hfirst
        horder.of_append.of_append
      rw [List.nil_append, hflat, ← List.foldl_append, hflat] at hopen
      refine ⟨?_, ?_⟩
      · intro rowKey hk
        rw [hopen.current_eq, Option.some.injEq] at hk
        rw [← hk]
        exact Rank.sheet_lt_sheet.mpr i.lt_succ_self
      · rw [close, hopen.current_eq]
        have hclosed := (hopen.closed.closeSheet hname).of_current none
        simpa only [← List.append_assoc] using hclosed

/-- Several sheets. -/
theorem Between.foldl_visit_sheets (hp : p.IsLawful) {i : Nat} {names : List String}
    (hnames : ∀ j name, names[j]? = some name → p.scan.order.names[i + j]? = some name)
    (h : a.Between p i acts)
    (horder : Act.InOrder p.scan (acts ++ (names.zipIdx i).flatMap fun sheet =>
      p.sheetActs sheet.1 (p.scan.sheetVisits sheet.2 sheet.1))) :
    (((names.zipIdx i).flatMap fun sheet => p.scan.sheetVisits sheet.2 sheet.1).foldl
        (visit p.scan) a).Between p (i + names.length)
      (acts ++ (names.zipIdx i).flatMap fun sheet =>
        p.sheetActs sheet.1 (p.scan.sheetVisits sheet.2 sheet.1)) := by
  induction names generalizing a acts i with
  | nil => simpa using h
  | cons name names ih =>
    rw [List.zipIdx_cons, List.flatMap_cons, ← List.append_assoc] at horder
    have hfirst := h.foldl_visit_sheet hp (hnames 0 name rfl) horder.of_append
    have hnext : ∀ j name', names[j]? = some name' →
        p.scan.order.names[i + 1 + j]? = some name' := by
      intro j name' hj
      rw [Nat.add_right_comm, Nat.add_assoc]
      exact hnames (j + 1) name' hj
    have hrest := ih hnext hfirst horder
    rw [List.zipIdx_cons, List.flatMap_cons, List.flatMap_cons, List.foldl_append,
      ← List.append_assoc, List.length_cons, ← Nat.add_assoc, Nat.add_right_comm]
    exact hrest

/-- The end of the scan. -/
theorem Between.pending_finish {i : Nat} (h : a.Between p i acts) :
    (a.finish p.scan).pending = recordsOf p.scan p.names p.tracks (acts ++ p.endActs) := by
  obtain ⟨hnames, -, hgrouping, htracks, hpending, -⟩ := h.closed
  rw [finish, Prepared.endActs]
  simp only [hgrouping]
  split_ifs
  · have hread : (a.close.observeAll 0 fun t => t.readConstant p.scan).tracks =
        a.close.tracks.map (·.act p.scan .readConstants) := by
      rw [observeAll, List.map_map]
      rfl
    have hnames' : (a.close.observeAll 0 fun t => t.readConstant p.scan).names = p.names := hnames
    have hpending' : (a.close.observeAll 0 fun t => t.readConstant p.scan).pending =
        recordsOf p.scan p.names p.tracks acts := hpending
    change (emitDocument (a.close.observeAll 0 fun t => t.readConstant p.scan)).pending = _
    rw [emitDocument, emit_eq p.scan, recordsOf_append, hread, hnames', hpending', htracks]
    rfl
  · rw [List.append_nil, hpending]

end Assembly

/-- **The records of an extraction** are those that its schedule puts together. -/
theorem Extraction.allRecords_start {p : Prepared} (hp : p.IsLawful) (limit : Option Nat) :
    (start p limit).allRecords = recordsOf p.scan p.names p.tracks p.schedule := by
  have horder := hp.inOrder_schedule
  rw [Prepared.schedule] at horder
  have hbetween := (Assembly.between_start p).foldl_visit_sheets hp
    (fun j name hj => by simpa using hj) horder.of_append
  have hfinal : (start p limit).final =
      (p.scan.visits.foldl (Assembly.visit p.scan)
        (.start p.fields p.scan.order.names)).finish p.scan := by
    rw [← CellStream.visits_start]
    rfl
  rw [allRecords_eq_pending, hfinal, Scan.visits_eq_flatMap, hbetween.pending_finish,
    List.nil_append, Prepared.schedule]

/-- An extraction starts from a schema that is made ready, and its records are the first ones that
the schedule puts together. -/
theorem Schema.records_extract {schema : Schema} {g : Grid} (hg : g.IsLawful) {e : Extraction}
    (h : schema.extract g = .ok e) :
    ∃ p, schema.prepare g = .ok p ∧ p.IsLawful ∧
      e.records = match schema.options.recordLimit with
        | none => recordsOf p.scan p.names p.tracks p.schedule
        | some n => (recordsOf p.scan p.names p.tracks p.schedule).take n := by
  rw [Schema.extract] at h
  cases hprepare : schema.prepare g with
  | error issue => rw [hprepare] at h; cases h
  | ok p =>
    rw [hprepare] at h
    cases h
    have hp := Schema.isLawful_of_prepare hg hprepare
    refine ⟨p, rfl, hp, ?_⟩
    rw [Extraction.records, Extraction.allRecords_start hp]
    rfl

/-- A limit only leaves out the records after some point. -/
theorem Schema.isPrefix_recordsOf {schema : Schema} {g : Grid} (hg : g.IsLawful) {e : Extraction}
    (h : schema.extract g = .ok e) :
    ∃ p, schema.prepare g = .ok p ∧ p.IsLawful ∧
      e.records <+: recordsOf p.scan p.names p.tracks p.schedule := by
  obtain ⟨p, hprepare, hp, hrecords⟩ := Schema.records_extract hg h
  refine ⟨p, hprepare, hp, ?_⟩
  rw [hrecords]
  split
  · exact List.prefix_rfl
  · exact List.take_prefix _ _

theorem Schema.sublist_recordsOf {schema : Schema} {g : Grid} (hg : g.IsLawful) {e : Extraction}
    (h : schema.extract g = .ok e) :
    ∃ p, schema.prepare g = .ok p ∧ p.IsLawful ∧
      e.records.Sublist (recordsOf p.scan p.names p.tracks p.schedule) := by
  obtain ⟨p, hprepare, hp, hrecords⟩ := Schema.isPrefix_recordsOf hg h
  exact ⟨p, hprepare, hp, hrecords.sublist⟩

/-! ### The values of one field -/

theorem join_lookup_zip {names : List String} (hnames : names.Nodup) {i : Nat} {name : String}
    (hname : names[i]? = some name) (values : List (Option Value)) :
    ((names.zip values).lookup name).join = values[i]?.join := by
  induction names generalizing i values with
  | nil => cases hname
  | cons first names ih =>
    rw [List.nodup_cons] at hnames
    cases values with
    | nil => rfl
    | cons v values =>
      rw [List.zip_cons_cons, List.lookup_cons]
      cases i with
      | zero =>
        obtain rfl : first = name := Option.some.inj hname
        simp
      | succ i =>
        rw [List.getElem?_cons_succ] at hname ⊢
        have hne : (name == first) = false := by
          rw [beq_eq_false_iff_ne]
          rintro rfl
          exact hnames.1 (List.mem_of_getElem? hname)
        rw [hne]
        exact ih hnames.2 hname values

theorem names_of_mem_recordsOf {s : Scan} {names : List String} {tracks : List Track}
    {acts : List Act} {r : Record} (hr : r ∈ recordsOf s names tracks acts) : r.names = names := by
  induction acts generalizing tracks with
  | nil => cases hr
  | cons act acts ih =>
    cases act with
    | emit ofRow column origin =>
      rcases List.mem_cons.mp hr with rfl | hr
      · rfl
      · exact ih hr
    | _ => exact ih hr

/-- The values that records have for a field are those that its track gives. -/
theorem get?_recordsOf {names : List String} (hnames : names.Nodup) {i : Nat} {name : String}
    (hname : names[i]? = some name) {tracks : List Track} {t : Track} (ht : tracks[i]? = some t)
    (s : Scan) (acts : List Act) :
    (recordsOf s names tracks acts).map (fun r => (r.origin, r.get? name)) = t.given s acts := by
  rw [← given_recordsOf s names ht]
  refine List.map_congr_left fun r hr => ?_
  rw [Record.get?, names_of_mem_recordsOf hr, join_lookup_zip hnames hname]

namespace Prepared

variable {p : Prepared}

/-- A field has its name and its track at the same place. -/
theorem exists_getElem?_of_mem {f : PlannedField} (hf : f ∈ p.fields) :
    ∃ i : Nat, p.names[i]? = some f.name ∧ p.tracks[i]? = some (Track.start f (p.role f)) := by
  obtain ⟨i, hi, rfl⟩ := List.getElem_of_mem hf
  refine ⟨i, ?_, ?_⟩
  · rw [names, List.getElem?_map, List.getElem?_eq_getElem hi, Option.map_some]
  · rw [tracks, List.getElem?_map, List.getElem?_eq_getElem hi, Option.map_some]

theorem get?_recordsOf (hp : p.IsLawful) {f : PlannedField} (hf : f ∈ p.fields)
    (acts : List Act) :
    (recordsOf p.scan p.names p.tracks acts).map (fun r => (r.origin, r.get? f.name)) =
      (Track.start f (p.role f)).given p.scan acts := by
  obtain ⟨i, hname, ht⟩ := exists_getElem?_of_mem hf
  exact SheetRecords.get?_recordsOf hp.nodup_names hname ht p.scan acts

end Prepared

end SheetRecords
