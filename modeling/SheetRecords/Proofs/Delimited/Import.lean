import Mathlib.Data.List.Forall2
import Mathlib.Data.List.Induction
import Mathlib.Data.List.Nodup
import Mathlib.Data.List.TakeWhile
import Mathlib.Tactic.Common
import SheetRecords.Delimited.Import
import SheetRecords.Proofs.Cell.Address
import SheetRecords.Proofs.Cell.Grammar
import SheetRecords.Proofs.Cell.Store
import SheetRecords.Proofs.Decimal.Numeral
import SheetRecords.Proofs.Except
import SheetRecords.Proofs.Text.Utf8

/-!
# Where the fields of records go

The records of delimited text make a sheet just if every field that is not blank lies within the
limits of a sheet, and then its cells are those fields, the `j`-th one of the `i`-th record in row
`i` and column `j`; otherwise the first field beyond the limits is at fault
(`sheetOfRecords_placed`).  What a field becomes is settled by what it reads as without the blanks
around it (`keeps_iff`).  To follow the records, their fields are put into one list with
their places (`placements`), which comes row by row.
-/

namespace SheetRecords.Delimited

open Cell

/-! ### What a field becomes -/

/-- The characters are the word of a truth value, in either case. -/
def IsTruthWord (b : Bool) (cs : List Char) : Prop :=
  cs.map Char.toLower = (if b then "true" else "false").toList

/-- The characters have a digit among them and read as a finite number. -/
def IsNumber (x : Float) (cs : List Char) : Prop :=
  (∃ c ∈ cs, c.isDigit = true) ∧ Decimal.readFloat? cs = some x ∧ x.isFinite = true

/-- The value of a field as it is detected, from the field without the blanks around it: a truth
value if it is a word for one, a number if it is one, and otherwise the whole field. -/
structure IsDetected (field : String) (v : Value) : Prop where
  boolean : ∀ b, v = .boolean b ↔ IsTruthWord b (Text.trimBlanks field.toList)
  number : ∀ x, v = .number x ↔ IsNumber x (Text.trimBlanks field.toList)
  text : ∀ t, v = .text t ↔ t = field ∧
    (∀ b, ¬ IsTruthWord b (Text.trimBlanks field.toList)) ∧
    ∀ x, ¬ IsNumber x (Text.trimBlanks field.toList)

/-- The value of a field of the record of the given number.  Names and all fields without detection
are kept as they are. -/
def ImportOptions.Keeps (o : ImportOptions) (record : Nat) (field : String) (v : Value) : Prop :=
  if o.detectsTypes = false ∨ (o.hasHeader = true ∧ record = 0) then v = .text field
  else IsDetected field v

theorem readBoolean?_eq_some_iff {cs : List Char} {b : Bool} :
    readBoolean? cs = some b ↔ IsTruthWord b cs := by
  have hword (word : String) : String.ofList (cs.map Char.toLower) = word ↔
      cs.map Char.toLower = word.toList := by
    rw [← String.toList_inj, String.toList_ofList]
  unfold readBoolean? IsTruthWord
  split
  · next h =>
    rw [(hword _).mp h]
    cases b <;> decide
  · next h =>
    rw [(hword _).mp h]
    cases b <;> decide
  · next htrue hfalse =>
    rw [hword] at htrue hfalse
    cases b <;> simp_all

theorem readFinite?_eq_some_iff {cs : List Char} {x : Float} :
    readFinite? cs = some x ↔ IsNumber x cs := by
  unfold readFinite? IsNumber
  split
  · next h =>
    rw [Option.filter_eq_some_iff]
    simp only [List.any_eq_true] at h
    simp [h]
  · next h =>
    simp only [List.any_eq_true] at h
    simp [h]

/-- A number is a numeral whose float is finite; the words for infinity and `NaN` are none. -/
theorem isNumber_iff {cs : List Char} {x : Float} :
    IsNumber x cs ↔ ∃ n : Decimal.Numeral, n.IsWritten cs ∧ n.toFloat = x ∧ x.isFinite = true := by
  constructor
  · rintro ⟨hdigit, hread, hfinite⟩
    obtain ⟨n, hn, hx⟩ := (Decimal.readFloat?_of_isDigit hdigit).mp hread
    exact ⟨n, hn, hx, hfinite⟩
  · rintro ⟨n, hn, hx, hfinite⟩
    have hdigit := hn.exists_isDigit
    exact ⟨hdigit, (Decimal.readFloat?_of_isDigit hdigit).mpr ⟨n, hn, hx⟩, hfinite⟩

/-- A word for a truth value has no digits. -/
theorem not_isNumber_of_isTruthWord {cs : List Char} {b : Bool} (h : IsTruthWord b cs) (x : Float) :
    ¬ IsNumber x cs := by
  rintro ⟨⟨c, hc, hdigit⟩, -⟩
  have hmem : c ∈ (if b then "true" else "false").toList := by
    rw [← h, ← Decimal.toLower_of_isDigit hdigit]
    exact List.mem_map_of_mem hc
  have hnone : ∀ d ∈ (if b then "true" else "false").toList, d.isDigit = false := by
    cases b <;> simp
  rw [hnone c hmem] at hdigit
  cases hdigit

theorem trimBlanks_eq_nil {s : String} (h : Text.isAllBlank s = true) :
    Text.trimBlanks s.toList = [] := by
  have hdrop : s.toList.dropWhile Text.isBlank = [] :=
    List.dropWhile_eq_nil_iff.mpr (List.all_eq_true.mp h)
  rw [Text.trimBlanks, hdrop]
  rfl

/-- A field is nothing just if it is blank. -/
theorem isEmpty_value (o : ImportOptions) (record : Nat) (s : String) :
    (o.value record s).isEmpty = Text.isAllBlank s := by
  have htext : (textOrEmpty s).isEmpty = Text.isAllBlank s := by
    unfold textOrEmpty
    cases Text.isAllBlank s <;> rfl
  have hdetect : (detect s).isEmpty = Text.isAllBlank s := by
    cases hblank : Text.isAllBlank s with
    | true =>
      unfold detect
      rw [trimBlanks_eq_nil hblank]
      exact htext.trans hblank
    | false =>
      unfold detect
      dsimp only
      split
      · rfl
      · rfl
      · exact htext.trans hblank
  unfold ImportOptions.value
  split
  · exact hdetect
  · exact htext

theorem textOrEmpty_eq {s : String} (h : Text.isAllBlank s = false) : textOrEmpty s = .text s := by
  rw [textOrEmpty, h]
  rfl

theorem detect_eq {s : String} (h : Text.isAllBlank s = false) :
    detect s =
      match readBoolean? (Text.trimBlanks s.toList), readFinite? (Text.trimBlanks s.toList) with
      | some b, _ => .boolean b
      | none, some x => .number x
      | none, none => .text s := by
  rw [← textOrEmpty_eq h]
  rfl

/-- What is detected in a field that is not blank. -/
theorem isDetected_detect {s : String} (h : Text.isAllBlank s = false) :
    IsDetected s (detect s) := by
  have hboth : ∀ b, readBoolean? (Text.trimBlanks s.toList) = some b →
      readFinite? (Text.trimBlanks s.toList) = none := by
    intro b hb
    refine Option.eq_none_iff_forall_ne_some.mpr fun x hx => ?_
    exact not_isNumber_of_isTruthWord (readBoolean?_eq_some_iff.mp hb) x
      (readFinite?_eq_some_iff.mp hx)
  rw [detect_eq h]
  constructor <;> simp only [← readBoolean?_eq_some_iff, ← readFinite?_eq_some_iff]
  · intro b
    cases readBoolean? (Text.trimBlanks s.toList) <;>
      cases readFinite? (Text.trimBlanks s.toList) <;> simp
  · intro x
    cases hb : readBoolean? (Text.trimBlanks s.toList) with
    | some b => simp [hboth b hb]
    | none => cases readFinite? (Text.trimBlanks s.toList) <;> simp
  · intro t
    cases readBoolean? (Text.trimBlanks s.toList) <;>
      cases readFinite? (Text.trimBlanks s.toList) <;> simp [eq_comm]

/-- The rules on the value of a field leave no choice. -/
theorem IsDetected.unique {field : String} {v w : Value} (hv : IsDetected field v)
    (hw : IsDetected field w) : v = w := by
  cases v with
  | boolean b => exact ((hw.boolean b).mpr ((hv.boolean b).mp rfl)).symm
  | number x => exact ((hw.number x).mpr ((hv.number x).mp rfl)).symm
  | text t => exact ((hw.text t).mpr ((hv.text t).mp rfl)).symm
  | empty =>
    -- A field that is neither a truth value nor a number is a text.
    have hnot := (hv.text field).mpr ⟨rfl, fun b hb => Value.noConfusion ((hv.boolean b).mpr hb),
      fun x hx => Value.noConfusion ((hv.number x).mpr hx)⟩
    cases hnot

/-- A field that is not blank is kept as its value. -/
theorem keeps_iff {o : ImportOptions} {record : Nat} {s : String}
    (h : Text.isAllBlank s = false) {v : Value} :
    o.Keeps record s v ↔ o.value record s = v := by
  unfold ImportOptions.Keeps ImportOptions.value
  split
  · next hplain =>
    rw [if_neg (by rcases hplain with h | h <;> simp [h]), textOrEmpty_eq h, eq_comm]
  · next htyped =>
    have hdetects : (o.detectsTypes && !(o.hasHeader && decide (record = 0))) = true := by
      simpa [imp_iff_not_or] using htyped
    rw [if_pos hdetects]
    constructor
    · intro hv
      exact (isDetected_detect h).unique hv
    · rintro rfl
      exact isDetected_detect h

/-! ### Fields in their order -/

/-- A field with its place and the line where its record begins. -/
structure Placement where
  line : Nat
  place : Address
  field : String

namespace Placement

/-- The field is to be written, and cannot be. -/
def isOutside (p : Placement) : Bool :=
  !Text.isAllBlank p.field && p.place.boundsError?.isSome

/-- The cells with the field in them, unless it is blank. -/
def write (o : ImportOptions) (cells : Store) (p : Placement) : Store :=
  if Text.isAllBlank p.field then cells else cells.set p.place (o.value p.place.row p.field)

/-- Puts the field into the sheet. -/
def put (o : ImportOptions) (s : Sheet) (p : Placement) : Except ImportError Sheet :=
  (putField s p.place (o.value p.place.row p.field)).mapError (.bounds p.line)

end Placement

/-- How a place beyond the limits is reported: by its row if that is too great, or else by its
column.  A place that cannot be counted is reported by its column. -/
def outsideFault (a : Address) : BoundsError :=
  if a.row < rowCountLimit ∧ a.column < columnCountLimit ∧ rowLimit ≤ a.row then .row a.row
  else .column (a.column % rowCountLimit)

/-- The fields of a record from the given column on. -/
def rowPlacements (line row column : Nat) (fields : List String) : List Placement :=
  (fields.zipIdx column).map fun (field, j) => ⟨line, ⟨row, j⟩, field⟩

/-- The fields of records from the given row on, as they are put into a sheet. -/
def placements (row : Nat) (records : List (RawRecord × List String)) : List Placement :=
  (records.zipIdx row).flatMap fun ((r, fields), i) => rowPlacements r.start.line i 0 fields

theorem boundsError?_eq_none_iff {a : Address} : a.boundsError? = none ↔ a.IsInside := by
  unfold Address.boundsError? Address.IsInside
  split
  · simp; omega
  · split <;> simp <;> omega

/-- A place that can be counted is reported by the check of the limits. -/
theorem eq_outsideFault {a : Address} {e : BoundsError} (h : a.boundsError? = some e)
    (hrow : a.row < rowCountLimit) (hcolumn : a.column < columnCountLimit) :
    e = outsideFault a := by
  unfold Address.boundsError? at h
  unfold outsideFault
  split at h
  · next hlimit =>
    rw [if_pos ⟨hrow, hcolumn, hlimit⟩]
    exact (Option.some.inj h).symm
  · next hlimit =>
    have hbits : columnCountLimit < rowCountLimit := by decide
    have hmod : a.column % rowCountLimit = a.column := Nat.mod_eq_of_lt (by omega)
    split at h
    · rw [if_neg (fun hall => hlimit hall.2.2), hmod]
      exact (Option.some.inj h).symm
    · cases h

/-- A value is put into its cell if that is within the limits. -/
theorem putField_eq (s : Sheet) (a : Address) (v : Value) :
    putField s a v =
      if v.isEmpty then .ok s
      else if a.boundsError?.isSome then .error (outsideFault a)
      else .ok { s with cells := s.cells.set a v } := by
  unfold putField
  by_cases hword : a.row < rowCountLimit ∧ a.column < columnCountLimit
  · have hcounted : ¬ (rowCountLimit ≤ a.row || columnCountLimit ≤ a.column) = true := by
      simp only [Bool.or_eq_true, decide_eq_true_eq]
      omega
    rw [if_neg hcounted, Sheet.set]
    cases hfault : a.boundsError? with
    | none => rfl
    | some e =>
      rw [eq_outsideFault hfault hword.1 hword.2]
      rfl
  · have hcounted : (rowCountLimit ≤ a.row || columnCountLimit ≤ a.column) = true := by
      simp only [Bool.or_eq_true, decide_eq_true_eq]
      omega
    have houtside : a.boundsError?.isSome = true := by
      rw [Option.isSome_iff_ne_none, ne_eq, boundsError?_eq_none_iff]
      rintro ⟨hrow, hcolumn⟩
      have hrows : rowLimit < rowCountLimit := by decide
      have hcolumns : columnLimit < columnCountLimit := by decide
      omega
    have hfault : outsideFault a = .column (a.column % rowCountLimit) := by
      rw [outsideFault, if_neg]
      tauto
    rw [if_pos hcounted, if_pos houtside, hfault]

/-- A field is put into its cell unless it is blank or lies beyond the limits. -/
theorem Placement.put_eq (o : ImportOptions) (s : Sheet) (p : Placement) :
    p.put o s =
      if p.isOutside then .error (.bounds p.line (outsideFault p.place))
      else .ok { s with cells := p.write o s.cells } := by
  unfold put isOutside write
  rw [putField_eq, isEmpty_value]
  cases Text.isAllBlank p.field with
  | true => rfl
  | false => cases p.place.boundsError?.isSome <;> rfl

/-- The fields are put into their cells up to the first one that lies beyond the limits. -/
theorem foldlM_put (o : ImportOptions) (s : Sheet) (ps : List Placement) :
    ps.foldlM (Placement.put o) s =
      match ps.find? Placement.isOutside with
      | some p => .error (.bounds p.line (outsideFault p.place))
      | none => .ok { s with cells := ps.foldl (Placement.write o) s.cells } := by
  induction ps generalizing s with
  | nil => rfl
  | cons p ps ih =>
    rw [List.foldlM_cons, p.put_eq, List.find?_cons]
    cases p.isOutside with
    | true => rfl
    | false => exact ih _

theorem putFields_eq (o : ImportOptions) (line row column : Nat) (s : Sheet)
    (fields : List String) :
    (putFields o row column s fields).mapError (.bounds line) =
      (rowPlacements line row column fields).foldlM (Placement.put o) s := by
  induction fields generalizing column s with
  | nil => rfl
  | cons field fields ih =>
    have hfirst : Placement.put o s ⟨line, ⟨row, column⟩, field⟩ =
        (putField s ⟨row, column⟩ (o.value row field)).mapError (.bounds line) := rfl
    rw [rowPlacements, List.zipIdx_cons, List.map_cons, List.foldlM_cons, hfirst, putFields]
    cases putField s ⟨row, column⟩ (o.value row field) with
    | error e => rfl
    | ok s' => exact ih (column + 1) s'

/-- The fields of the records that are decoded. -/
def Decodes (records : List RawRecord) (table : List (List String)) : Prop :=
  List.Forall₂ (fun r fields => ∀ number, r.decode number = .ok fields) records table

theorem decodeField_encode (record number : Nat) (start : TextPosition) (s : String) :
    decodeField record start number (Text.Utf8.encode s) = .ok s := by
  have hbytes : Text.Utf8.encode s = s.toList.flatMap Text.Utf8.encodeChar := by
    rw [← Text.Utf8.encode_ofList, String.ofList_toList]
  rw [decodeField, hbytes, Text.Utf8.decode_flatMap]
  show Except.ok (String.ofList s.toList) = .ok s
  rw [String.ofList_toList]

/-- The place of a field in its record matters for the wording of an error alone. -/
theorem forall₂_decodeField (record : Nat) (start : TextPosition) (number : Nat)
    (texts : List String) :
    List.Forall₂ (fun p s => decodeField record start p.2 p.1 = .ok s)
      ((texts.map Text.Utf8.encode).zipIdx number) texts := by
  induction texts generalizing number with
  | nil => exact .nil
  | cons s texts ih => exact .cons (decodeField_encode record number start s) (ih (number + 1))

theorem decode_of_fields_eq {r : RawRecord} {texts : List String}
    (h : r.fields = texts.map Text.Utf8.encode) (number : Nat) : r.decode number = .ok texts := by
  rw [RawRecord.decode, h]
  exact mapM_eq_ok_iff.mpr (forall₂_decodeField number r.start 0 texts)

/-- Fields that are texts in UTF-8 are decoded. -/
theorem decodes_of_fields_eq {records : List RawRecord} {table : List (List String)}
    (h : records.map (·.fields) = table.map (List.map Text.Utf8.encode)) :
    Decodes records table := by
  rw [← List.forall₂_eq_eq_eq, List.forall₂_map_left_iff, List.forall₂_map_right_iff] at h
  exact h.imp fun r texts hfields number => decode_of_fields_eq hfields number

theorem putRecords_eq (o : ImportOptions) (row : Nat) (s : Sheet) {records : List RawRecord}
    {table : List (List String)} (h : Decodes records table) :
    putRecords o row s records =
      (placements row (records.zip table)).foldlM (Placement.put o) s := by
  induction h generalizing row s with
  | nil => rfl
  | @cons r fields records table hfirst _ ih =>
    rw [putRecords, hfirst row, placements, List.zip_cons_cons, List.zipIdx_cons, List.flatMap_cons,
      List.foldlM_append, ← putFields_eq]
    dsimp only
    cases putFields o row 0 s fields with
    | error e => rfl
    | ok s' => exact ih (row + 1) s'

/-! ### Places -/

/-- The field at a place: the one of that column in the record of that row. -/
def fieldAt (table : List (List String)) (a : Address) : Option String :=
  table[a.row]?.bind (·[a.column]?)

/-- A field that is not blank stands at the place. -/
def Stands (table : List (List String)) (a : Address) : Prop :=
  ∃ field, fieldAt table a = some field ∧ Text.isAllBlank field = false

/-- The place is the first one beyond the limits with a field that is not blank, record by record. -/
structure IsFirstOutside (table : List (List String)) (a : Address) : Prop where
  stands : Stands table a
  not_isInside : ¬ a.IsInside
  isInside_of_lt : ∀ b, Stands table b → b < a → b.IsInside

/-- Fields that are few enough lie within the limits. -/
theorem isInside_of_stands {table : List (List String)} (hrows : table.length ≤ rowLimit)
    (hcolumns : ∀ fields ∈ table, fields.length ≤ columnLimit) {a : Address}
    (h : Stands table a) : a.IsInside := by
  obtain ⟨field, hfield, -⟩ := h
  obtain ⟨fields, hrow, hcolumn⟩ := Option.bind_eq_some_iff.mp hfield
  obtain ⟨hrowLt, -⟩ := List.getElem?_eq_some_iff.mp hrow
  obtain ⟨hcolumnLt, -⟩ := List.getElem?_eq_some_iff.mp hcolumn
  have hwidth := hcolumns fields (List.mem_of_getElem? hrow)
  exact ⟨by omega, by omega⟩

section Placements

variable {records : List RawRecord} {table : List (List String)}

theorem mem_placements_iff {p : Placement} :
    p ∈ placements 0 (records.zip table) ↔
      fieldAt table p.place = some p.field ∧
        ∃ r, records[p.place.row]? = some r ∧ r.start.line = p.line := by
  obtain ⟨line, ⟨row, column⟩, field⟩ := p
  simp only [placements, rowPlacements, List.mem_flatMap, List.mem_map, Prod.exists,
    List.mem_zipIdx_iff_getElem?, Placement.mk.injEq, Address.mk.injEq, fieldAt,
    Option.bind_eq_some_iff, List.getElem?_zip_eq_some]
  constructor
  · rintro ⟨r, fields, i, ⟨hr, hfields⟩, f, j, hf, rfl, ⟨rfl, rfl⟩, rfl⟩
    exact ⟨⟨fields, hfields, hf⟩, r, hr, rfl⟩
  · rintro ⟨⟨fields, hfields, hf⟩, r, hr, rfl⟩
    exact ⟨r, fields, row, ⟨hr, hfields⟩, field, column, hf, rfl, ⟨rfl, rfl⟩, rfl⟩

theorem pairwise_zipIdx {α : Type} (l : List α) (n : Nat) :
    (l.zipIdx n).Pairwise fun a b => a.2 < b.2 := by
  have hnumbers : ((l.zipIdx n).map Prod.snd).Pairwise (· < ·) := by
    rw [List.zipIdx_map_snd]
    exact List.pairwise_lt_range' 1
  exact List.pairwise_map.mp hnumbers

/-- The fields come row by row, each once. -/
theorem placements_sorted (row : Nat) (records : List (RawRecord × List String)) :
    (placements row records).Pairwise fun p q => p.place < q.place := by
  refine List.pairwise_flatMap.mpr ⟨?_, ?_⟩
  · rintro ⟨⟨r, fields⟩, i⟩ -
    refine List.pairwise_map.mpr ((pairwise_zipIdx fields 0).imp ?_)
    intro a b hab
    exact Address.lt_iff.mpr (.inr ⟨rfl, hab⟩)
  · refine (pairwise_zipIdx records row).imp ?_
    rintro ⟨⟨r, fields⟩, i⟩ ⟨⟨r', fields'⟩, i'⟩ hrow p hp q hq
    obtain ⟨a, -, rfl⟩ := List.mem_map.mp hp
    obtain ⟨b, -, rfl⟩ := List.mem_map.mp hq
    exact Address.lt_iff.mpr (.inl hrow)

theorem exists_placement_iff (h : Decodes records table) {a : Address} {field : String} :
    (∃ p ∈ placements 0 (records.zip table), p.place = a ∧ p.field = field) ↔
      fieldAt table a = some field := by
  constructor
  · rintro ⟨p, hp, rfl, rfl⟩
    exact (mem_placements_iff.mp hp).1
  · intro hfield
    obtain ⟨fields, hfields, -⟩ := Option.bind_eq_some_iff.mp hfield
    obtain ⟨hlt, -⟩ := List.getElem?_eq_some_iff.mp hfields
    have hrecord : a.row < records.length := by rwa [h.length_eq]
    exact ⟨⟨records[a.row].start.line, a, field⟩,
      mem_placements_iff.mpr ⟨hfield, _, List.getElem?_eq_getElem hrecord, rfl⟩, rfl, rfl⟩

theorem isOutside_iff {p : Placement} :
    p.isOutside = true ↔ Text.isAllBlank p.field = false ∧ ¬ p.place.IsInside := by
  rw [Placement.isOutside, Bool.and_eq_true, Bool.not_eq_true', Option.isSome_iff_ne_none, ne_eq,
    boundsError?_eq_none_iff]

/-- No field is to be written beyond the limits. -/
theorem find?_isOutside_eq_none_iff (h : Decodes records table) :
    (placements 0 (records.zip table)).find? Placement.isOutside = none ↔
      ∀ a, Stands table a → a.IsInside := by
  rw [List.find?_eq_none]
  simp only [isOutside_iff, not_and, not_not]
  constructor
  · rintro hall a ⟨field, hfield, hblank⟩
    obtain ⟨p, hp, rfl, rfl⟩ := (exists_placement_iff h).mpr hfield
    exact hall p hp hblank
  · intro hall p hp hblank
    exact hall p.place ⟨p.field, (mem_placements_iff.mp hp).1, hblank⟩

/-- The first field that is to be written beyond the limits. -/
theorem isFirstOutside_of_find? (h : Decodes records table) {p : Placement}
    (hp : (placements 0 (records.zip table)).find? Placement.isOutside = some p) :
    IsFirstOutside table p.place := by
  obtain ⟨houtside, before, after, hsplit, hbefore⟩ := List.find?_eq_some_iff_append.mp hp
  obtain ⟨hblank, hinside⟩ := isOutside_iff.mp houtside
  have hsorted := placements_sorted 0 (records.zip table)
  rw [hsplit] at hsorted
  have hmem : p ∈ placements 0 (records.zip table) := by simp [hsplit]
  refine ⟨⟨p.field, (mem_placements_iff.mp hmem).1, hblank⟩, hinside, ?_⟩
  rintro b ⟨field, hfield, hblank'⟩ hlt
  obtain ⟨q, hq, rfl, rfl⟩ := (exists_placement_iff h).mpr hfield
  rw [hsplit, List.mem_append, List.mem_cons] at hq
  rcases hq with hq | rfl | hq
  · -- What comes before the first one is inside or blank.
    have hnot := hbefore q hq
    rw [Bool.not_eq_true', Bool.eq_false_iff, ne_eq, isOutside_iff] at hnot
    tauto
  · exact absurd hlt (lt_irrefl _)
  · have hafter := List.rel_of_pairwise_cons (List.pairwise_append.mp hsorted).2.1 hq
    exact absurd hlt hafter.asymm

end Placements

/-! ### Sheets -/

theorem stored_value {o : ImportOptions} {record : Nat} {field : String}
    (h : Text.isAllBlank field = false) :
    Store.stored (o.value record field) = some (o.value record field) := by
  have hempty : (o.value record field).isEmpty = false := (isEmpty_value o record field).trans h
  cases hv : o.value record field with
  | empty =>
    rw [hv] at hempty
    cases hempty
  | _ => rfl

/-- Each field that is written is in its cell, as it is the only one for it. -/
theorem get?_foldl_write (o : ImportOptions) {ps : List Placement}
    (h : ps.Pairwise fun p q => p.place < q.place) {a : Address} {v : Value} :
    (ps.foldl (Placement.write o) .empty).get? a = some v ↔
      ∃ p ∈ ps, p.place = a ∧ Text.isAllBlank p.field = false ∧ o.value a.row p.field = v := by
  induction ps using List.reverseRecOn with
  | nil => simp
  | append_singleton ps p ih =>
    obtain ⟨hps, -, hlast⟩ := List.pairwise_append.mp h
    have hsplit : (∃ q ∈ ps ++ [p],
        q.place = a ∧ Text.isAllBlank q.field = false ∧ o.value a.row q.field = v) ↔
        (∃ q ∈ ps, q.place = a ∧ Text.isAllBlank q.field = false ∧ o.value a.row q.field = v) ∨
          p.place = a ∧ Text.isAllBlank p.field = false ∧ o.value a.row p.field = v := by
      simp only [List.mem_append, List.mem_singleton, or_and_right, exists_or, exists_eq_left]
    rw [List.foldl_append, List.foldl_cons, List.foldl_nil, Placement.write, hsplit]
    cases hblank : Text.isAllBlank p.field with
    | true =>
      rw [if_pos rfl, ih hps]
      simp
    | false =>
      rw [if_neg Bool.false_ne_true, Store.get?_set, stored_value hblank]
      by_cases hplace : p.place = a
      · -- The fields before it are for other cells.
        have hbefore : ¬ ∃ q ∈ ps,
            q.place = a ∧ Text.isAllBlank q.field = false ∧ o.value a.row q.field = v := by
          rintro ⟨q, hq, rfl, -⟩
          have hlt := hlast q hq p (List.mem_singleton_self p)
          rw [hplace] at hlt
          exact absurd hlt (lt_irrefl _)
        subst hplace
        simp [hbefore]
      · rw [if_neg hplace, ih hps]
        simp [hplace]

/-- The records make a sheet of their fields, or the first field that is to be written beyond the
limits is at fault. -/
theorem sheetOfRecords_eq (o : ImportOptions) (name : String) {records : List RawRecord}
    {table : List (List String)} (h : Decodes records table) :
    sheetOfRecords o name records =
      match (placements 0 (records.zip table)).find? Placement.isOutside with
      | some p => .error (.bounds p.line (outsideFault p.place))
      | none => .ok ⟨name, (placements 0 (records.zip table)).foldl (Placement.write o) .empty⟩ := by
  rw [sheetOfRecords, putRecords_eq o 0 _ h, foldlM_put]
  rfl

/-- The cells of a sheet of records are their fields that are not blank. -/
theorem get?_of_sheetOfRecords {o : ImportOptions} {name : String} {records : List RawRecord}
    {table : List (List String)} (h : Decodes records table) {s : Sheet}
    (hs : sheetOfRecords o name records = .ok s) {a : Address} {v : Value} :
    s.cells.get? a = some v ↔ ∃ field, fieldAt table a = some field ∧
      Text.isAllBlank field = false ∧ o.value a.row field = v := by
  rw [sheetOfRecords_eq o name h] at hs
  split at hs
  · cases hs
  · obtain rfl := Except.ok.inj hs
    show (List.foldl (Placement.write o) .empty _).get? a = some v ↔ _
    rw [get?_foldl_write o (placements_sorted 0 _)]
    constructor
    · rintro ⟨p, hp, hplace, hblank, hv⟩
      exact ⟨p.field, (exists_placement_iff h).mp ⟨p, hp, hplace, rfl⟩, hblank, hv⟩
    · rintro ⟨field, hfield, hblank, hv⟩
      obtain ⟨p, hp, hplace, rfl⟩ := (exists_placement_iff h).mpr hfield
      exact ⟨p, hp, hplace, hblank, hv⟩

/-! The name of a sheet stays as it is while fields are put into it. -/

theorem name_of_putField {s s' : Sheet} {a : Address} {v : Value} (h : putField s a v = .ok s') :
    s'.name = s.name := by
  rw [putField_eq] at h
  split at h
  · obtain rfl := Except.ok.inj h
    rfl
  · split at h
    · cases h
    · obtain rfl := Except.ok.inj h
      rfl

theorem name_of_putFields {o : ImportOptions} {row column : Nat} {s s' : Sheet}
    {fields : List String} (h : putFields o row column s fields = .ok s') : s'.name = s.name := by
  induction fields generalizing column s with
  | nil =>
    obtain rfl := Except.ok.inj h
    rfl
  | cons field fields ih =>
    rw [putFields] at h
    split at h
    · cases h
    · next hput => exact (ih h).trans (name_of_putField hput)

theorem name_of_putRecords {o : ImportOptions} {row : Nat} {s s' : Sheet} {records : List RawRecord}
    (h : putRecords o row s records = .ok s') : s'.name = s.name := by
  induction records generalizing row s with
  | nil =>
    obtain rfl := Except.ok.inj h
    rfl
  | cons r records ih =>
    rw [putRecords] at h
    split at h
    · cases h
    · split at h
      · cases h
      · next hput => exact (ih h).trans (name_of_putFields hput)

theorem name_of_sheetOfRecords {o : ImportOptions} {name : String} {records : List RawRecord}
    {s : Sheet} (hs : sheetOfRecords o name records = .ok s) : s.name = name :=
  name_of_putRecords hs

/-- The records make a sheet just if their fields fit. -/
theorem exists_sheetOfRecords_iff (o : ImportOptions) (name : String) {records : List RawRecord}
    {table : List (List String)} (h : Decodes records table) :
    (∃ s, sheetOfRecords o name records = .ok s) ↔ ∀ a, Stands table a → a.IsInside := by
  rw [← find?_isOutside_eq_none_iff h, sheetOfRecords_eq o name h]
  cases (placements 0 (records.zip table)).find? Placement.isOutside <;> simp

/-- **Where the fields of records go.**  Records that are decoded, of any lengths, make a sheet just
if every field that is not blank lies within the limits of a sheet, and then the cells of the sheet
are those fields, the `j`-th one of the `i`-th record in row `i` and column `j`, as the options keep
them.  Otherwise the first of those fields beyond the limits is at fault, record by record, with the
line where its record begins.  Blank fields count for nothing wherever they are. -/
theorem sheetOfRecords_placed (o : ImportOptions) (name : String) {records : List RawRecord}
    {table : List (List String)} (h : Decodes records table) :
    ((∃ s, sheetOfRecords o name records = .ok s) ↔ ∀ a, Stands table a → a.IsInside) ∧
      (∀ s, sheetOfRecords o name records = .ok s → s.name = name ∧
        ∀ a v, s.cells.get? a = some v ↔ ∃ field, fieldAt table a = some field ∧
          Text.isAllBlank field = false ∧ o.Keeps a.row field v) ∧
      ∀ e, sheetOfRecords o name records = .error e → ∃ a r, IsFirstOutside table a ∧
        records[a.row]? = some r ∧ e = .bounds r.start.line (outsideFault a) := by
  refine ⟨exists_sheetOfRecords_iff o name h, ?_, ?_⟩
  · intro s hs
    refine ⟨name_of_sheetOfRecords hs, fun a v => ?_⟩
    rw [get?_of_sheetOfRecords h hs]
    refine exists_congr fun field => and_congr_right fun _ => and_congr_right fun hblank => ?_
    exact (keeps_iff hblank).symm
  · intro e he
    rw [sheetOfRecords_eq o name h] at he
    split at he
    · next p hp =>
      obtain ⟨-, r, hr, hline⟩ := mem_placements_iff.mp (List.mem_of_find?_eq_some hp)
      refine ⟨p.place, r, isFirstOutside_of_find? h hp, hr, ?_⟩
      rw [hline]
      exact (Except.error.inj he).symm
    · cases he

/-- Names in the first record, and a record after an empty one. -/
def switchTable : List (List String) :=
  [["on", "TRUE"], [], [" ", " True ", "yes", "-2.5e1 "]]

/-- The records of `switchTable`, from the second line of a text on. -/
def switchRecords : List RawRecord :=
  switchTable.map fun fields => ⟨⟨2, 5⟩, fields.map Text.Utf8.encode⟩

theorem sheetOfRecords_placed_switchTable :
    let o : ImportOptions := ⟨.standard, true, true⟩
    Decodes switchRecords switchTable ∧ ∃ s, sheetOfRecords o "Switches" switchRecords = .ok s ∧
      s.name = "Switches" ∧ s.cells.get? ⟨0, 1⟩ = some (.text "TRUE") ∧
      s.cells.get? ⟨2, 0⟩ = none ∧ s.cells.get? ⟨2, 1⟩ = some (.boolean true) ∧
      s.cells.get? ⟨2, 2⟩ = some (.text "yes") ∧ s.cells.get? ⟨2, 3⟩ = some (.number (-25)) := by
  intro o
  have hdecodes : Decodes switchRecords switchTable := decodes_of_fields_eq (by rfl)
  obtain ⟨hfits, hcells, -⟩ := sheetOfRecords_placed o "Switches" hdecodes
  obtain ⟨s, hs⟩ := hfits.mpr fun a =>
    isInside_of_stands (by decide) (by decide)
  obtain ⟨hname, hget⟩ := hcells s hs
  refine ⟨hdecodes, s, hs, hname, ?_, ?_, ?_, ?_, ?_⟩
  · exact (hget _ _).mpr ⟨"TRUE", rfl, by decide, (keeps_iff (by decide)).mpr rfl⟩
  · refine Option.eq_none_iff_forall_ne_some.mpr fun v hv => ?_
    obtain ⟨field, hfield, hblank, -⟩ := (hget _ _).mp hv
    obtain rfl : " " = field := Option.some.inj hfield
    exact absurd hblank (by decide)
  · exact (hget _ _).mpr ⟨" True ", rfl, by decide, (keeps_iff (by decide)).mpr rfl⟩
  · exact (hget _ _).mpr ⟨"yes", rfl, by decide, (keeps_iff (by decide)).mpr rfl⟩
  · exact (hget _ _).mpr ⟨"-2.5e1 ", rfl, by decide, (keeps_iff (by decide)).mpr rfl⟩

end SheetRecords.Delimited
