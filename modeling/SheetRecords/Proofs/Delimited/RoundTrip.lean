import SheetRecords.Delimited.Reader
import SheetRecords.Delimited.Writer
import SheetRecords.Proofs.Delimited.Import
import SheetRecords.Record.Output

/-!
# Delimited text reads back

What is written as delimited text is read as the records that were written, whatever bytes their
fields hold (`readRecords_writeRecords`), as long as no record is without fields and the text does
not begin like a mark.  The reader is followed through a field, a line and a text in turn, by what it
has read so far (`Reader.IsAt`).  A line that would be empty is the one case in which the end of the
line would count for nothing, and it is written with quotes.  So a sheet made of written records has
their texts at their places (`importSheet_writeDelimited`).
-/

namespace SheetRecords

open Cell

namespace Delimited

/-- The bytes that give the text its form can be told apart. -/
structure Dialect.IsSeparate (d : Dialect) : Prop where
  delimiter_ne_quote : d.delimiter ≠ d.quote
  endsRecord_delimiter : endsRecord d.delimiter = false
  endsRecord_quote : endsRecord d.quote = false

theorem Dialect.IsSeparate.ne_of_endsRecord {d : Dialect} (hd : d.IsSeparate) {b : UInt8}
    (h : endsRecord b = true) : b ≠ d.delimiter ∧ b ≠ d.quote := by
  constructor
  · rintro rfl
    rw [hd.endsRecord_delimiter] at h
    cases h
  · rintro rfl
    rw [hd.endsRecord_quote] at h
    cases h

theorem needsQuotes_cons_eq_false_iff {d : Dialect} {b : UInt8} {bytes : List UInt8} :
    needsQuotes d (b :: bytes) = false ↔
      b ≠ d.delimiter ∧ b ≠ d.quote ∧ endsRecord b = false ∧ needsQuotes d bytes = false := by
  simp only [needsQuotes, List.any_cons, Bool.or_eq_false_iff, beq_eq_false_iff_ne, and_assoc]

/-- What a reader has read: where it is in a record, the bytes of the open field, the fields before
it and the records before those. -/
structure Reader.IsAt (r : Reader) (mode : Mode) (field : List UInt8) (fields : List (List UInt8))
    (records : List (List (List UInt8))) : Prop where
  mode : r.mode = mode
  field : r.field = field.reverse
  fields : r.fields = fields.reverse
  records : r.records.map (·.fields) = records.reverse

namespace Reader

variable {d : Dialect} {r : Reader} {mode : Mode} {b : UInt8} {field : List UInt8}
  {fields : List (List UInt8)} {records : List (List (List UInt8))}

/-! ### One byte -/

theorem IsAt.move (h : r.IsAt mode field fields records) (p : TextPosition) :
    ({ r with position := p } : Reader).IsAt mode field fields records :=
  ⟨h.mode, h.field, h.fields, h.records⟩

theorem IsAt.setMode (h : r.IsAt mode field fields records) (mode' : Mode) :
    ({ r with mode := mode' } : Reader).IsAt mode' field fields records :=
  ⟨rfl, h.field, h.fields, h.records⟩

theorem IsAt.keep (h : r.IsAt mode field fields records) (b : UInt8) (mode' : Mode) :
    (r.keep b mode').IsAt mode' (field ++ [b]) fields records where
  mode := rfl
  field := by simp [Reader.keep, h.field]
  fields := h.fields
  records := h.records

theorem IsAt.endField (h : r.IsAt mode field fields records) :
    r.endField.IsAt .fieldStart [] (fields ++ [field]) records where
  mode := rfl
  field := rfl
  fields := by simp [Reader.endField, h.field, h.fields]
  records := h.records

theorem IsAt.endRecord (h : r.IsAt mode field fields records) :
    r.endRecord.IsAt .recordStart [] [] (records ++ [fields ++ [field]]) where
  mode := rfl
  field := rfl
  fields := rfl
  records := by simp [Reader.endRecord, h.field, h.fields, h.records]

/-- Outside of quotes a byte that is no quote separates, or belongs to the field.  The end of a
record counts for nothing where no record is open. -/
theorem step_of_ne_quote (hmode : r.mode ≠ .inQuotes) (hquote : b ≠ d.quote)
    (hstart : r.mode = .recordStart → endsRecord b = false) :
    r.step d b = ({ r with position := r.position.after b } : Reader).readPlain d b := by
  unfold step readFirst
  cases hr : r.mode with
  | recordStart => simp [hstart hr, hquote]
  | fieldStart => simp [hquote]
  | inField => rfl
  | inQuotes => exact absurd hr hmode
  | afterQuote => simp [hquote]

theorem IsAt.step_plain (h : r.IsAt mode field fields records) (hmode : mode ≠ .inQuotes)
    (hdelimiter : b ≠ d.delimiter) (hquote : b ≠ d.quote) (hends : endsRecord b = false) :
    (r.step d b).IsAt .inField (field ++ [b]) fields records := by
  rw [step_of_ne_quote (h.mode ▸ hmode) hquote fun _ => hends, readPlain, if_neg hdelimiter,
    if_neg (by simp [hends])]
  exact (h.move _).keep b .inField

theorem IsAt.step_delimiter (hd : d.IsSeparate) (h : r.IsAt mode field fields records)
    (hmode : mode ≠ .inQuotes) :
    (r.step d d.delimiter).IsAt .fieldStart [] (fields ++ [field]) records := by
  rw [step_of_ne_quote (h.mode ▸ hmode) hd.delimiter_ne_quote fun _ => hd.endsRecord_delimiter,
    readPlain, if_pos rfl]
  exact (h.move _).endField

theorem IsAt.step_lineFeed (hd : d.IsSeparate) (h : r.IsAt mode field fields records)
    (hmode : mode ≠ .inQuotes) (hstart : mode ≠ .recordStart) :
    (r.step d lineFeed).IsAt .recordStart [] [] (records ++ [fields ++ [field]]) := by
  have hends : endsRecord lineFeed = true := by decide
  obtain ⟨hdelimiter, hquote⟩ := hd.ne_of_endsRecord hends
  rw [step_of_ne_quote (h.mode ▸ hmode) hquote fun hr => absurd (h.mode.symm.trans hr) hstart,
    readPlain, if_neg hdelimiter, if_pos hends]
  exact (h.move _).endRecord

/-- A quote opens a field. -/
theorem IsAt.step_open (hd : d.IsSeparate) (h : r.IsAt mode field fields records)
    (hstart : mode = .recordStart ∨ mode = .fieldStart) :
    (r.step d d.quote).IsAt .inQuotes field fields records := by
  have hquote : r.step d d.quote =
      { r with position := r.position.after d.quote, mode := .inQuotes } := by
    unfold step readFirst
    rcases hstart with rfl | rfl <;> simp [h.mode, hd.endsRecord_quote]
  rw [hquote]
  exact (h.move _).setMode .inQuotes

/-- Between quotes all bytes but the quote belong to the field. -/
theorem IsAt.step_quoted (h : r.IsAt .inQuotes field fields records) (hquote : b ≠ d.quote) :
    (r.step d b).IsAt .inQuotes (field ++ [b]) fields records := by
  have hkeep : r.step d b =
      ({ r with position := r.position.after b } : Reader).keep b .inQuotes := by
    unfold step
    simp [h.mode, hquote]
  rw [hkeep]
  exact (h.move _).keep b .inQuotes

/-- A quote between quotes may close the field. -/
theorem IsAt.step_close (h : r.IsAt .inQuotes field fields records) :
    (r.step d d.quote).IsAt .afterQuote field fields records := by
  have hclose : r.step d d.quote =
      { r with position := r.position.after d.quote, mode := .afterQuote } := by
    unfold step
    simp [h.mode]
  rw [hclose]
  exact (h.move _).setMode .afterQuote

/-- A quote right after it belongs to the field with it. -/
theorem IsAt.step_doubled (h : r.IsAt .afterQuote field fields records) :
    (r.step d d.quote).IsAt .inQuotes (field ++ [d.quote]) fields records := by
  have hkeep : r.step d d.quote =
      ({ r with position := r.position.after d.quote } : Reader).keep d.quote .inQuotes := by
    unfold step
    simp [h.mode]
  rw [hkeep]
  exact (h.move _).keep d.quote .inQuotes

/-! ### A field -/

/-- The bytes of a field without quotes, from its second one on. -/
theorem IsAt.read_plain (h : r.IsAt .inField field fields records) {bytes : List UInt8}
    (hbytes : needsQuotes d bytes = false) :
    (bytes.foldl (step d) r).IsAt .inField (field ++ bytes) fields records := by
  induction bytes generalizing r field with
  | nil => rwa [List.append_nil]
  | cons b bytes ih =>
    obtain ⟨hdelimiter, hquote, hends, hrest⟩ := needsQuotes_cons_eq_false_iff.mp hbytes
    rw [List.foldl_cons, List.append_cons]
    exact ih (h.step_plain (by decide) hdelimiter hquote hends) hrest

/-- The bytes of a field between quotes. -/
theorem IsAt.read_quoted (h : r.IsAt .inQuotes field fields records) (bytes : List UInt8) :
    ((bytes.flatMap (writeQuotedByte d)).foldl (step d) r).IsAt .inQuotes (field ++ bytes) fields
      records := by
  induction bytes generalizing r field with
  | nil => rwa [List.flatMap_nil, List.append_nil]
  | cons b bytes ih =>
    rw [List.flatMap_cons, List.foldl_append, List.append_cons, writeQuotedByte]
    apply ih
    split
    · next hquote =>
      subst hquote
      exact h.step_close.step_doubled
    · next hquote => exact h.step_quoted hquote

/-- A field is read as it was before it was written.  Only a field without bytes leaves the reader
where no record is open. -/
theorem IsAt.read_field (hd : d.IsSeparate) (h : r.IsAt mode [] fields records)
    (hstart : mode = .recordStart ∨ mode = .fieldStart) (field : List UInt8) :
    ∃ mode', ((writeField d field).foldl (step d) r).IsAt mode' field fields records ∧
      mode' ≠ .inQuotes ∧
      (mode' = .recordStart → mode = .recordStart ∧ writeField d field = []) := by
  unfold writeField
  cases hneeds : needsQuotes d field with
  | true =>
    refine ⟨.afterQuote, ?_, by decide, by simp⟩
    rw [if_pos rfl, List.cons_append, List.foldl_cons, List.foldl_append]
    have hquoted := (h.step_open hd hstart).read_quoted (d := d) field
    exact hquoted.step_close
  | false =>
    rw [if_neg Bool.false_ne_true]
    cases field with
    | nil =>
      refine ⟨mode, h, ?_, fun hmode => ⟨hmode, rfl⟩⟩
      rcases hstart with rfl | rfl <;> decide
    | cons b bytes =>
      refine ⟨.inField, ?_, by decide, by simp⟩
      obtain ⟨hdelimiter, hquote, hends, hrest⟩ := needsQuotes_cons_eq_false_iff.mp hneeds
      have hmode : mode ≠ .inQuotes := by rcases hstart with rfl | rfl <;> decide
      exact (h.step_plain hmode hdelimiter hquote hends).read_plain hrest

/-! ### A line -/

/-- The fields that are left of a line, and its end.  If they begin the line, it may not be empty. -/
theorem IsAt.read_line (hd : d.IsSeparate) (h : r.IsAt mode [] fields records)
    (hstart : mode = .recordStart ∨ mode = .fieldStart) (field : List UInt8)
    (rest : List (List UInt8))
    (hline : mode = .recordStart →
      [d.delimiter].intercalate ((field :: rest).map (writeField d)) ≠ []) :
    (([d.delimiter].intercalate ((field :: rest).map (writeField d)) ++ [lineFeed]).foldl (step d)
      r).IsAt .recordStart [] [] (records ++ [fields ++ field :: rest]) := by
  induction rest generalizing r mode fields field with
  | nil =>
    rw [List.map_singleton, List.intercalate_singleton] at hline ⊢
    obtain ⟨mode', hfield, hmode, hopen⟩ := h.read_field hd hstart field
    -- No record would be open at the end only if the whole line were this empty field.
    rw [List.foldl_append]
    refine hfield.step_lineFeed hd hmode fun hempty => ?_
    obtain ⟨hrecord, hnil⟩ := hopen hempty
    exact hline hrecord hnil
  | cons next rest ih =>
    -- Behind a delimiter a record is open, so that what is left of the line may be empty.
    obtain ⟨mode', hfield, hmode, -⟩ := h.read_field hd hstart field
    have hnext := ih (hfield.step_delimiter hd hmode) (.inr rfl) next (by simp)
    rw [List.append_assoc] at hnext
    rw [List.map_cons, List.map_cons, List.intercalate_cons_cons, List.append_assoc,
      List.append_assoc, List.foldl_append, List.foldl_append]
    exact hnext

/-- A line is empty only if its record has one field and that has no bytes. -/
theorem eq_nil_of_line_eq_nil {field : List UInt8} {rest : List (List UInt8)}
    (h : [d.delimiter].intercalate ((field :: rest).map (writeField d)) = []) :
    field = [] ∧ rest = [] := by
  cases rest with
  | nil =>
    rw [List.map_singleton, List.intercalate_singleton, writeField] at h
    split at h
    · simp at h
    · exact ⟨h, rfl⟩
  | cons next rest =>
    rw [List.map_cons, List.map_cons, List.intercalate_cons_cons] at h
    simp at h

/-- A record is read as it was before it was written. -/
theorem IsAt.read_record (hd : d.IsSeparate) (h : r.IsAt .recordStart [] [] records)
    {fields : List (List UInt8)} (hne : fields ≠ []) :
    ((writeFields d fields ++ [lineFeed]).foldl (step d) r).IsAt .recordStart [] []
      (records ++ [fields]) := by
  obtain ⟨field, rest, rfl⟩ := List.exists_cons_of_ne_nil hne
  unfold writeFields
  split
  · next hline =>
    -- The line would be empty, and two quotes stand for it.
    obtain ⟨rfl, rfl⟩ := eq_nil_of_line_eq_nil hline
    have hquotes := (h.step_open hd (.inl rfl)).step_close (d := d)
    exact hquotes.step_lineFeed hd (by decide) (by decide)
  · next hline => exact h.read_line hd (.inl rfl) field rest fun _ => hline

/-! ### A text -/

theorem IsAt.read_records (hd : d.IsSeparate) (h : r.IsAt .recordStart [] [] records)
    {more : List (List (List UInt8))} (hne : ∀ fields ∈ more, fields ≠ []) :
    ((writeRecords d more).foldl (step d) r).IsAt .recordStart [] [] (records ++ more) := by
  induction more generalizing r records with
  | nil => rwa [writeRecords, List.flatMap_nil, List.append_nil]
  | cons fields more ih =>
    obtain ⟨hfields, hmore⟩ := List.forall_mem_cons.mp hne
    rw [writeRecords, List.flatMap_cons, List.foldl_append, List.append_cons records]
    exact ih (h.read_record hd hfields) hmore

theorem isAt_begin (skipped : Nat) : (begin skipped).IsAt .recordStart [] [] [] :=
  ⟨rfl, rfl, rfl, rfl⟩

end Reader

/-- Records are read as they were before they were written.  A record without fields would be read
as one empty field, and a text that begins like a mark would lose its first bytes. -/
theorem readRecords_writeRecords {d : Dialect} (hd : d.IsSeparate)
    {records : List (List (List UInt8))} (hne : ∀ fields ∈ records, fields ≠ [])
    (hmark : byteOrderMark.isPrefixOf (writeRecords d records) = false) :
    (readRecords d (writeRecords d records)).map (·.fields) = records := by
  have hread := (Reader.isAt_begin 0).read_records hd hne
  rw [readRecords, hmark, if_neg Bool.false_ne_true]
  show ((List.foldl (Reader.step d) (.begin 0) _).finish.records.reverse).map _ = _
  rw [List.drop_zero, Reader.finish, if_pos hread.mode, List.map_reverse, hread.records,
    List.reverse_reverse, List.nil_append]

/-! ### Sheets -/

/-- What a cell holds of a text that is kept as it is: nothing if the text is blank. -/
def textCell? (s : String) : Option Value :=
  if Text.isAllBlank s then none else some (.text s)

/-- Without detection the cells of a sheet of records are their fields as texts. -/
theorem get?_eq_textCell? {o : ImportOptions} (ho : o.detectsTypes = false) {name : String}
    {records : List RawRecord} {table : List (List String)} (h : Decodes records table) {s : Sheet}
    (hs : sheetOfRecords o name records = .ok s) (a : Address) :
    s.cells.get? a = (fieldAt table a).bind textCell? := by
  ext v
  rw [get?_of_sheetOfRecords h hs, Option.bind_eq_some_iff]
  refine exists_congr fun field => and_congr_right fun _ => ?_
  have hvalue : o.value a.row field = textOrEmpty field := by
    rw [ImportOptions.value, ho]
    rfl
  rw [hvalue, textOrEmpty, textCell?]
  cases Text.isAllBlank field <;> simp

end Delimited

open Delimited

theorem isSeparate_outputDialect {delimiter : UInt8} (hquote : delimiter ≠ doubleQuote)
    (hends : endsRecord delimiter = false) : (outputDialect delimiter).IsSeparate :=
  ⟨hquote, hends, rfl⟩

/-- **Records read back.**  Names and records with a value for each of them, written with a delimiter
that is neither the quote nor the end of a line, are read as the texts that were written, field by
field.  If these fit into a sheet, the text without detection makes a sheet with the names in the
first row and below them a row for each record: each cell holds the text of its value, or the one
for absent values, unless that is blank. -/
theorem importSheet_writeDelimited (hasHeader : Bool) (sheet absent : String) {delimiter : UInt8}
    (hquote : delimiter ≠ doubleQuote) (hends : endsRecord delimiter = false)
    {names : List String} (hnames : names ≠ []) {records : List Record}
    (hvalues : ∀ r ∈ records, r.values.length = names.length)
    (hmark : byteOrderMark.isPrefixOf (writeDelimited delimiter absent names records) = false)
    (hfits : ∀ a, Stands (names :: records.map (Record.texts absent)) a → a.IsInside) :
    (readRecords (outputDialect delimiter) (writeDelimited delimiter absent names records)).map
        (·.fields) =
      (names :: records.map (Record.texts absent)).map (List.map Text.Utf8.encode) ∧
    ∃ s, importSheet ⟨outputDialect delimiter, hasHeader, false⟩ sheet
        (writeDelimited delimiter absent names records) = .ok s ∧
      s.name = sheet ∧
      (∀ j, s.cells.get? ⟨0, j⟩ = names[j]?.bind textCell?) ∧
      ∀ i j, s.cells.get? ⟨i + 1, j⟩ =
        (records[i]?.bind (·.values[j]?)).bind fun v => textCell? (valueText absent v) := by
  have hseparate := isSeparate_outputDialect hquote hends
  have hne : ∀ fields ∈ (names :: records.map (Record.texts absent)).map
      (List.map Text.Utf8.encode), fields ≠ [] := by
    have hlength : 0 < names.length := List.length_pos_of_ne_nil hnames
    simp only [List.map_cons, List.map_map, List.forall_mem_cons, List.forall_mem_map]
    refine ⟨by simpa using hnames, fun r hr => ?_⟩
    have hr := hvalues r hr
    apply List.ne_nil_of_length_pos
    simp [Record.texts]
    omega
  have hread := readRecords_writeRecords hseparate hne hmark
  refine ⟨hread, ?_⟩
  have hdecodes := decodes_of_fields_eq hread
  obtain ⟨s, hs⟩ := (exists_sheetOfRecords_iff ⟨outputDialect delimiter, hasHeader, false⟩ sheet
    hdecodes).mpr hfits
  have hget := get?_eq_textCell? rfl hdecodes hs
  refine ⟨s, hs, name_of_sheetOfRecords hs, fun j => hget ⟨0, j⟩, ?_⟩
  intro i j
  have hvalue (r : Record) : (r.texts absent)[j]? = (r.values[j]?).map (valueText absent) :=
    List.getElem?_map
  rw [hget, fieldAt]
  show (((records.map (Record.texts absent))[i]?).bind (·[j]?)).bind textCell? = _
  rw [List.getElem?_map]
  cases records[i]? with
  | none => rfl
  | some r =>
    show ((r.texts absent)[j]?).bind textCell? = (r.values[j]?).bind _
    rw [hvalue]
    cases r.values[j]? <;> rfl

/-- A quote, nothing, and a text of two lines with a delimiter, as the only field. -/
def trickyRecords : List Record :=
  [some (.text "\""), none, some (.text "a;\nb")].map fun v => ⟨["note"], [v], default⟩

theorem importSheet_writeDelimited_trickyRecords :
    byteOrderMark.isPrefixOf (writeDelimited 0x3B "" ["note"] trickyRecords) = false ∧
    ∃ s, importSheet ⟨outputDialect 0x3B, true, false⟩ "Notes"
        (writeDelimited 0x3B "" ["note"] trickyRecords) = .ok s ∧
      s.cells.get? ⟨0, 0⟩ = some (.text "note") ∧ s.cells.get? ⟨1, 0⟩ = some (.text "\"") ∧
      s.cells.get? ⟨2, 0⟩ = none ∧ s.cells.get? ⟨3, 0⟩ = some (.text "a;\nb") := by
  have hquote : (0x3B : UInt8) ≠ doubleQuote := by decide
  have hvalues : ∀ r ∈ trickyRecords, r.values.length = ["note"].length := by decide
  have hmark : byteOrderMark.isPrefixOf (writeDelimited 0x3B "" ["note"] trickyRecords) = false := by
    decide +kernel
  obtain ⟨-, s, hs, -, hfirst, hrows⟩ := importSheet_writeDelimited true "Notes" "" hquote
    (by decide) (by decide) hvalues hmark fun a => isInside_of_stands (by decide) (by decide)
  exact ⟨hmark, s, hs, hfirst 0, hrows 0 0, hrows 1 0, hrows 2 0⟩

end SheetRecords
