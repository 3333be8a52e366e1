import SheetRecords.Proofs.Record.Run

/-!
# Records compared field by field

`Record.select` reads some of the fields off a record.  A record of an extraction is nothing but its
origin and the values of its fields (`Prepared.select_names`).  Two extractions therefore agree on
some fields if they put records together at the same origins, and if the track of each such field
gives them the same values (`Prepared.map_select_eq`), whatever the other fields are.
-/

namespace SheetRecords

open Cell

/-- The record with the fields of the given names only, in that order. -/
def Record.select (names : List String) (r : Record) : Record :=
  ⟨names, names.map r.get?, r.origin⟩

namespace Record

/-- A record with as many values as names, all of them different, is what is read off it. -/
theorem select_names {r : Record} (hnames : r.names.Nodup)
    (hlength : r.values.length = r.names.length) : r.select r.names = r := by
  have hvalues : r.names.map r.get? = r.values := by
    refine List.ext_getElem (by rw [List.length_map, hlength]) ?_
    intro i hi hi'
    rw [List.length_map] at hi
    rw [List.getElem_map, get?, join_lookup_zip hnames (List.getElem?_eq_getElem hi),
      List.getElem?_eq_getElem hi', Option.join_some]
  rw [select, hvalues]

/-- Lists of records with the same origins agree on fields that have the same values. -/
theorem map_select_eq {rs rs' : List Record} {names : List String}
    (horigins : rs.map (·.origin) = rs'.map (·.origin))
    (hvalues : ∀ n ∈ names, rs.map (·.get? n) = rs'.map (·.get? n)) :
    rs.map (·.select names) = rs'.map (·.select names) := by
  have hlength : rs.length = rs'.length := by
    simpa using congrArg List.length horigins
  refine List.ext_getElem (by rw [List.length_map, List.length_map, hlength]) ?_
  intro i hi hi'
  rw [List.length_map] at hi hi'
  have horigin : rs[i].origin = rs'[i].origin := by
    simpa [hi, hi'] using congrArg (·[i]?) horigins
  rw [List.getElem_map, List.getElem_map, select, select, horigin]
  congr 1
  refine List.map_congr_left fun n hn => ?_
  have hvalue := congrArg (·[i]?) (hvalues n hn)
  simpa [hi, hi'] using hvalue

end Record

theorem length_values_of_mem_recordsOf {s : Scan} {names : List String} {tracks : List Track}
    {acts : List Act} {r : Record} (hr : r ∈ recordsOf s names tracks acts) :
    r.values.length = tracks.length := by
  induction acts generalizing tracks with
  | nil => cases hr
  | cons act acts ih =>
    cases act with
    | emit ofRow column origin =>
      rcases List.mem_cons.mp hr with rfl | hr
      · exact List.length_map _
      · exact (ih hr).trans (List.length_map _)
    | _ => exact (ih hr).trans (List.length_map _)

namespace Prepared

variable {p p' : Prepared}

/-- A record of an extraction is its origin and the values of its fields. -/
theorem select_names (hp : p.IsLawful) {acts : List Act} {r : Record}
    (hr : r ∈ recordsOf p.scan p.names p.tracks acts) : r.select p.names = r := by
  have hnames := names_of_mem_recordsOf hr
  rw [← hnames]
  refine Record.select_names (hnames ▸ hp.nodup_names) ?_
  rw [length_values_of_mem_recordsOf hr, hnames, tracks, names, List.length_map, List.length_map]

theorem map_select_names (hp : p.IsLawful) (acts : List Act) :
    (recordsOf p.scan p.names p.tracks acts).map (·.select p.names) =
      recordsOf p.scan p.names p.tracks acts := by
  conv_rhs => rw [← List.map_id (recordsOf p.scan p.names p.tracks acts)]
  exact List.map_congr_left fun r hr => select_names hp hr

/-- The values that records have for a field are those that its track gives after the acts before. -/
theorem map_get?_recordsOf_after (hp : p.IsLawful) {f : PlannedField} (hf : f ∈ p.fields)
    (before acts : List Act) :
    (recordsOf p.scan p.names (p.tracks.map (·.after p.scan before)) acts).map (·.get? f.name) =
      (((Track.start f (p.role f)).after p.scan before).given p.scan acts).map (·.2) := by
  obtain ⟨i, hname, ht⟩ := exists_getElem?_of_mem hf
  have htrack : (p.tracks.map (·.after p.scan before))[i]? =
      some ((Track.start f (p.role f)).after p.scan before) := by
    rw [List.getElem?_map, ht, Option.map_some]
  rw [← SheetRecords.get?_recordsOf hp.nodup_names hname htrack, List.map_map]
  rfl

theorem map_get?_recordsOf (hp : p.IsLawful) {f : PlannedField} (hf : f ∈ p.fields)
    (acts : List Act) :
    (recordsOf p.scan p.names p.tracks acts).map (·.get? f.name) =
      ((Track.start f (p.role f)).given p.scan acts).map (·.2) := by
  rw [← get?_recordsOf hp hf, List.map_map]
  rfl

/-- **Field by field.**  Extractions whose acts emit records at the same origins agree on the fields
whose tracks give the same values. -/
theorem map_select_eq (hp : p.IsLawful) (hp' : p'.IsLawful) {names : List String}
    (horigins : p.schedule.filterMap Act.origin? = p'.schedule.filterMap Act.origin?)
    (hgiven : ∀ n ∈ names, ∃ f ∈ p.fields, ∃ f' ∈ p'.fields, f.name = n ∧ f'.name = n ∧
      (Track.start f (p.role f)).given p.scan p.schedule =
        (Track.start f' (p'.role f')).given p'.scan p'.schedule) :
    (recordsOf p.scan p.names p.tracks p.schedule).map (·.select names) =
      (recordsOf p'.scan p'.names p'.tracks p'.schedule).map (·.select names) := by
  refine Record.map_select_eq ?_ ?_
  · rw [origin_recordsOf, origin_recordsOf, horigins]
  · intro n hn
    obtain ⟨f, hf, f', hf', rfl, hname, heq⟩ := hgiven n hn
    rw [map_get?_recordsOf hp hf, ← hname, map_get?_recordsOf hp' hf', heq]

end Prepared

/-- What holds of all records holds of as many of them as are allowed. -/
theorem Extraction.map_records_start {p p' : Prepared} (hp : p.IsLawful) (hp' : p'.IsLawful)
    (limit : Option Nat) {g g' : Record → Record}
    (h : (recordsOf p.scan p.names p.tracks p.schedule).map g =
      (recordsOf p'.scan p'.names p'.tracks p'.schedule).map g') :
    (start p limit).records.map g = (start p' limit).records.map g' := by
  rw [records, records, allRecords_start hp, allRecords_start hp']
  cases limit with
  | none => exact h
  | some n =>
    show ((recordsOf p.scan p.names p.tracks p.schedule).take n).map g =
      ((recordsOf p'.scan p'.names p'.tracks p'.schedule).take n).map g'
    rw [List.map_take, List.map_take, h]

theorem Extraction.records_start_congr {p p' : Prepared} (hp : p.IsLawful) (hp' : p'.IsLawful)
    (limit : Option Nat)
    (h : recordsOf p.scan p.names p.tracks p.schedule =
      recordsOf p'.scan p'.names p'.tracks p'.schedule) :
    (start p limit).records = (start p' limit).records := by
  have hmap := map_records_start hp hp' limit (congrArg (List.map id) h)
  rwa [List.map_id, List.map_id] at hmap

/-- A record of an extraction is nothing but its origin and the values of the fields. -/
theorem Schema.map_select_names {schema : Schema} {w : Workbook} {e : Extraction}
    (h : schema.extract w = .ok e) :
    e.records.map (·.select (schema.fields.map (·.name))) = e.records := by
  obtain ⟨p, hprepare, hp, hfirst⟩ := Schema.isPrefix_recordsOf w.isLawful_grid h
  obtain ⟨-, -, -, hfields⟩ := Schema.of_prepare_eq_ok hprepare
  rw [← map_name_planFields hfields]
  conv_rhs => rw [← List.map_id e.records]
  exact List.map_congr_left fun r hr => Prepared.select_names hp (hfirst.subset hr)

end SheetRecords
