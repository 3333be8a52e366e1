import SheetRecords.Proofs.Cell.Reference
import SheetRecords.Proofs.Json.Decoder
import SheetRecords.Schema.Document

/-!
# Schemas read back

A schema can be written if its naturals fit the widths they are read with, its references are read
back and its known numbers are finite (`Schema.IsWritable`).  Its tree is then decoded to it
(`Schema.decode_toTree`), part by part, and the text of the tree is read as the tree
(`Schema.isWritten_toTree`).  What is decoded from the tree of any text can be written
(`Schema.isWritable_of_read`), since every part of a record that is decoded can.
-/

namespace SheetRecords

open Cell Json

/-! ### Members of parts -/

section Members

variable {α β : Type} {name : String} {toTree : β → Tree} {decode : Decoder β}
  {set : String → Tree → α → Except DecodeError α} {a : α}

/-- An optional part is set to what it is, be it there or not. -/
theorem sets_optionalMember (put : Option β → α → α) {b : Option β}
    (hset : ∀ t, set name t a = do return put (← Decoder.optional decode t) a)
    (hnone : put none a = a) (hdecode : ∀ c ∈ b, decode (toTree c) = .ok c)
    (hnull : ∀ c, toTree c ≠ .null) :
    Decoder.Sets set [name] (optionalMember name toTree b) a (put b a) := by
  cases b with
  | none =>
    rw [hnone]
    exact .absent name a
  | some c =>
    refine .single ?_
    rw [hset, Decoder.optional_eq_ok (hdecode c rfl) (hnull c)]
    rfl

theorem sets_naturalMember {bits : Nat} {type : String} (put : Option Nat → α → α) {n : Option Nat}
    (hset : ∀ t, set name t a = do
      return put (← Decoder.optional (Decoder.natural bits type) t) a)
    (hnone : put none a = a) (hlt : ∀ m ∈ n, m < 2 ^ bits) :
    Decoder.Sets set [name] (optionalMember name naturalTree n) a (put n a) :=
  sets_optionalMember put hset hnone (fun m hm => Decoder.natural_toTree (hlt m hm) type)
    fun _ => nofun

/-- A list is set to what it is, be it written or not. -/
theorem sets_listMember (put : List β → α → α) {bs : List β}
    (hset : ∀ t, set name t a = do return put (← Decoder.items decode t) a)
    (hnil : put [] a = a) (hdecode : ∀ c ∈ bs, decode (toTree c) = .ok c) :
    Decoder.Sets set [name] (listMember name toTree bs) a (put bs a) := by
  cases bs with
  | nil =>
    rw [hnil]
    exact .absent name a
  | cons c bs =>
    refine .single ?_
    rw [hset, Decoder.items_map hdecode]
    rfl

end Members

/-! ### Schemas that can be written -/

/-- The number of a value that is one. -/
def Cell.Value.numbers : Value → List Float
  | .number x => [x]
  | _ => []

/-- The numbers known beforehand. -/
def Schema.numbers (s : Schema) : List Float :=
  s.fields.flatMap fun f => f.values.flatMap fun k => k.value.numbers

/-- The reference of a known value is read back, and its number is finite. -/
structure KnownValue.IsWritable (k : KnownValue) : Prop where
  cell : k.cell.sheet ≠ some "" ∧ k.cell.target.IsInside
  numbers : ∀ x ∈ k.value.numbers, x.isFinite = true

/-- The naturals of a field fit the widths they are read with, its references are read back, and
the numbers known beforehand are finite. -/
structure Field.IsWritable (f : Field) : Prop where
  sheet : ∀ i, f.sheet = some (.index i) → i < 2 ^ 64
  row : ∀ n ∈ f.row, n < 2 ^ 32
  column : ∀ n ∈ f.column, n < 2 ^ 16
  firstRow : ∀ n ∈ f.firstRow, n < 2 ^ 32
  cells : ∀ r ∈ f.cells, r.sheet ≠ some "" ∧ r.target.IsInside
  ranges : ∀ r ∈ f.ranges, r.sheet ≠ some "" ∧ r.target.IsInside
  values : ∀ k ∈ f.values, k.IsWritable
  depth : ∀ n ∈ f.depth, n < 2 ^ 32

structure Schema.IsWritable (s : Schema) : Prop where
  fields : ∀ f ∈ s.fields, f.IsWritable
  recordLimit : ∀ n ∈ s.options.recordLimit, n < 2 ^ 64

/-! ### Trees are decoded to what they were made of -/

theorem SheetSelector.decode_toTree (s : SheetSelector) : decode s.toTree = .ok s := by
  cases s <;> rfl

theorem Cell.Value.decode_toTree (v : Value) : decode v.toTree = .ok v := by
  cases v <;> rfl

theorem KnownValue.decode_toTree {k : KnownValue}
    (h : k.cell.sheet ≠ some "" ∧ k.cell.target.IsInside) : decode k.toTree = .ok k := by
  have hcell : Decoder.reference CellReference.parse (.text k.cell.text) = .ok k.cell :=
    Decoder.reference_text (CellReference.parse_text_iff.mpr h)
  have hat (j : KnownValue) :
      decodePart "at" (.text k.cell.text) j = .ok { j with cell := k.cell } := by
    rw [decodePart, hcell]
    rfl
  have hvalue (j : KnownValue) :
      decodePart "value" k.value.toTree j = .ok { j with value := k.value } := by
    show (do return { j with value := ← Value.decode k.value.toTree } : Except _ _) = _
    rw [Value.decode_toTree]
    rfl
  exact Decoder.record_object (.append (.single (hat _)) (.single (hvalue _))) (by decide) (by simp)

namespace Field

variable {f : Field}

/-- A field is decoded from what is written of it. -/
theorem decode_toTree (h : f.IsWritable) : decode f.toTree = .ok f := by
  have htype (g : Field) :
      decodePart "type" (.text f.type.word) g = .ok { g with type := f.type } := by
    cases f.type <;> rfl
  -- each part is set after those in front of it
  have hname :
      Decoder.Sets decodePart ["name"] [("name", .text f.name)] (named "") (named f.name) :=
    .single rfl
  have hsheet := hname.append <|
    sets_optionalMember (fun x (g : Field) => { g with sheet := x }) (b := f.sheet)
      (fun t => (rfl : decodePart "sheet" t _ = _)) rfl (fun c _ => c.decode_toTree)
      fun c => by cases c <;> nofun
  have hrow := hsheet.append <|
    sets_naturalMember (fun x (g : Field) => { g with row := x })
      (fun t => (rfl : decodePart "row" t _ = _)) rfl h.row
  have hcolumn := hrow.append <|
    sets_naturalMember (fun x (g : Field) => { g with column := x })
      (fun t => (rfl : decodePart "col" t _ = _)) rfl h.column
  have hfirstRow := hcolumn.append <|
    sets_naturalMember (fun x (g : Field) => { g with firstRow := x })
      (fun t => (rfl : decodePart "first_row" t _ = _)) rfl h.firstRow
  have hcells := hfirstRow.append <|
    sets_listMember (fun x (g : Field) => { g with cells := x })
      (fun t => (rfl : decodePart "cells" t _ = _)) rfl
      fun r hr => Decoder.reference_text (CellReference.parse_text_iff.mpr (h.cells r hr))
  have hranges := hcells.append <|
    sets_listMember (fun x (g : Field) => { g with ranges := x })
      (fun t => (rfl : decodePart "ranges" t _ = _)) rfl
      fun r hr => Decoder.reference_text (RangeReference.parse_text_iff.mpr (h.ranges r hr))
  have hvalues := hranges.append <|
    sets_listMember (fun x (g : Field) => { g with values := x })
      (fun t => (rfl : decodePart "values" t _ = _)) rfl
      fun k hk => KnownValue.decode_toTree (h.values k hk).cell
  have htype := hvalues.append (.single (htype _))
  have hmetric := htype.append <|
    sets_optionalMember (fun x (g : Field) => { g with metric := x }) (b := f.metric)
      (fun t => (rfl : decodePart "metric" t _ = _)) rfl
      (fun c _ => (rfl : Decoder.boolean (.boolean c) = .ok c)) fun c h => by cases h
  have hdepth := hmetric.append <|
    sets_naturalMember (fun x (g : Field) => { g with depth := x })
      (fun t => (rfl : decodePart "depth" t _ = _)) rfl h.depth
  exact Decoder.record_object hdepth (by decide) (by simp [partNames])

end Field

theorem Options.decode_toTree {o : Options} (h : ∀ n ∈ o.recordLimit, n < 2 ^ 64) :
    decode o.toTree = .ok o := by
  have hlimit := sets_naturalMember (fun x (p : Options) => { p with recordLimit := x })
    (fun t => (rfl : decodePart "record_limit" t default = _)) rfl h
  have horder := hlimit.append <|
    sets_optionalMember (fun x (p : Options) => { p with sheetOrder := x }) (b := o.sheetOrder)
      (fun t => (rfl : decodePart "sheet_order" t _ = _)) rfl
      (fun names _ => Decoder.items_map fun name _ => (rfl : Decoder.text (.text name) = .ok name))
      fun c => nofun
  exact Decoder.record_object horder (by decide) (by simp)

namespace Schema

/-- A schema is decoded from what is written of it. -/
theorem decode_toTree {s : Schema} (h : s.IsWritable) : decode s.toTree = .ok s := by
  have hfields (r : Schema) :
      decodePart "fields" (.array (s.fields.map Field.toTree) none) r =
        .ok { r with fields := s.fields } := by
    show (do return { r with fields := ← Decoder.items Field.decode _ } : Except _ _) = _
    rw [Decoder.items_map fun f hf => Field.decode_toTree (h.fields f hf)]
    rfl
  have hoptions (r : Schema) :
      decodePart "options" s.options.toTree r = .ok { r with options := s.options } := by
    show (do return { r with options := ← Options.decode _ } : Except _ _) = _
    rw [Options.decode_toTree h.recordLimit]
    rfl
  exact Decoder.record_object (.append (.single (hfields _)) (.single (hoptions _))) (by decide)
    (by simp)

end Schema

/-! ### What is written of a schema is a document -/

theorem isWritten_optionalMember {α : Type} {name : String} {toTree : α → Tree} {a : Option α}
    {depth : Nat} (h : ∀ b ∈ a, (toTree b).IsWritten depth) :
    ∀ m ∈ optionalMember name toTree a, m.2.IsWritten depth := by
  cases a with
  | none => exact fun _ hm => by cases hm
  | some b => simpa [optionalMember] using h

theorem isWritten_array_map {α : Type} {toTree : α → Tree} {as : List α} {depth : Nat}
    (h : ∀ a ∈ as, (toTree a).IsWritten depth) :
    (Tree.array (as.map toTree) none).IsWritten (depth + 1) :=
  .array (List.forall_mem_map.mpr h)

theorem isWritten_listMember {α : Type} {name : String} {toTree : α → Tree} {as : List α}
    {depth : Nat} (h : ∀ a ∈ as, (toTree a).IsWritten depth) :
    ∀ m ∈ listMember name toTree as, m.2.IsWritten (depth + 1) := by
  cases as with
  | nil => exact fun _ hm => by cases hm
  | cons a as => simpa [listMember] using isWritten_array_map h

theorem isWritten_naturalTree {n bits : Nat} (h : n < 2 ^ bits) (hbits : bits ≤ 64) (depth : Nat) :
    (naturalTree n).IsWritten depth :=
  .number (Number.readsBack_natural (lt_of_lt_of_le h (Nat.pow_le_pow_right (by decide) hbits)))

theorem KnownValue.isWritten_toTree {k : KnownValue}
    (h : ∀ x ∈ k.value.numbers, (Number.float x).ReadsBack) (depth : Nat) :
    k.toTree.IsWritten (depth + 1) := by
  have hvalue : k.value.toTree.IsWritten depth := by
    cases hv : k.value with
    | empty => exact .null
    | boolean b => exact .boolean b
    | number x => exact .number (h x (by simp [hv, Value.numbers]))
    | text s => exact .text s
  refine .object ?_
  simpa using ⟨.text _, hvalue⟩

theorem Field.isWritten_toTree {f : Field} (h : f.IsWritable)
    (hnumbers : ∀ k ∈ f.values, ∀ x ∈ k.value.numbers, (Number.float x).ReadsBack) (depth : Nat) :
    f.toTree.IsWritten (depth + 3) := by
  refine .object ?_
  simp only [List.forall_mem_append, List.forall_mem_cons]
  refine ⟨⟨⟨⟨⟨⟨⟨⟨⟨⟨.text _, ?sheet⟩, ?row⟩, ?column⟩, ?firstRow⟩, ?cells⟩, ?ranges⟩, ?values⟩,
    ?type⟩, ?metric⟩, ?depth⟩
  case sheet =>
    refine isWritten_optionalMember fun s hs => ?_
    cases s with
    | index i => exact isWritten_naturalTree (h.sheet i hs) (le_refl _) _
    | name s => exact .text s
  case row =>
    exact isWritten_optionalMember fun n hn => isWritten_naturalTree (h.row n hn) (by decide) _
  case column =>
    exact isWritten_optionalMember fun n hn => isWritten_naturalTree (h.column n hn) (by decide) _
  case firstRow =>
    exact isWritten_optionalMember fun n hn => isWritten_naturalTree (h.firstRow n hn) (by decide) _
  case cells => exact isWritten_listMember fun r _ => .text _
  case ranges => exact isWritten_listMember fun r _ => .text _
  case values =>
    exact isWritten_listMember fun k hk => KnownValue.isWritten_toTree (hnumbers k hk) depth
  case type => simpa using .text f.type.word
  case metric => exact isWritten_optionalMember fun b _ => .boolean b
  case depth =>
    exact isWritten_optionalMember fun n hn => isWritten_naturalTree (h.depth n hn) (by decide) _

theorem Options.isWritten_toTree {o : Options} (h : ∀ n ∈ o.recordLimit, n < 2 ^ 64) (depth : Nat) :
    o.toTree.IsWritten (depth + 2) := by
  refine .object (List.forall_mem_append.mpr ⟨?limit, ?order⟩)
  case limit =>
    exact isWritten_optionalMember fun n hn => isWritten_naturalTree (h n hn) (le_refl _) _
  case order =>
    exact isWritten_optionalMember fun names _ => isWritten_array_map fun name _ => .text name

namespace Schema

variable {s : Schema}

/-- The numbers known beforehand are read back from what is written of them, as far as they are
finite. -/
def NumbersReadBack (s : Schema) : Prop :=
  ∀ x ∈ s.numbers, x.isFinite = true → (Number.float x).ReadsBack

instance : Decidable s.NumbersReadBack :=
  inferInstanceAs (Decidable (∀ x ∈ s.numbers, _ → _))

theorem isWritten_toTree (h : s.IsWritable) (hnumbers : s.NumbersReadBack) (depth : Nat) :
    s.toTree.IsWritten (depth + 5) := by
  have hfield (f : Field) (hf : f ∈ s.fields) : f.toTree.IsWritten (depth + 3) := by
    refine Field.isWritten_toTree (h.fields f hf) (fun k hk x hx => ?_) depth
    have hmem : x ∈ s.numbers :=
      List.mem_flatMap.mpr ⟨f, hf, List.mem_flatMap.mpr ⟨k, hk, hx⟩⟩
    exact hnumbers x hmem (((h.fields f hf).values k hk).numbers x hx)
  refine .object ?_
  simpa using ⟨isWritten_array_map hfield, Options.isWritten_toTree h.recordLimit (depth + 2)⟩

/-- A schema is read back from what is written of it. -/
theorem read_render (h : s.IsWritable) (hnumbers : s.NumbersReadBack) :
    read s.toTree.render = .ok s := by
  have hparse : parse (Text.Utf8.encode s.toTree.render) = ⟨s.toTree, none⟩ :=
    (isWritten_toTree h hnumbers 122).parse_render
  rw [read, readBytes, Decoder.run, hparse]
  dsimp only
  rw [decode_toTree h]
  rfl

end Schema

/-! ### What is read can be written -/

theorem SheetSelector.lt_of_decode {t : Tree} (ht : t.IsSound) {i : Nat}
    (h : decode t = .ok (.index i)) : i < 2 ^ 64 := by
  unfold decode at h
  split at h
  · cases h
  · split at h
    · obtain rfl := SheetSelector.index.inj (Except.ok.inj h)
      cases ht with
      | number hi => exact hi
    · cases h
    · cases h

theorem Cell.Value.isFinite_of_decode {t : Tree} (ht : t.IsSound) {v : Value}
    (h : decode t = .ok v) : ∀ x ∈ v.numbers, x.isFinite = true := by
  unfold decode at h
  split at h
  · cases h
  · split at h
    case h_3 n =>
      obtain rfl := Except.ok.inj h
      cases ht with
      | number hn => simpa [numbers] using Number.isFinite_toFloat hn
    case h_5 => cases h
    all_goals
      obtain rfl := Except.ok.inj h
      simp [numbers]

theorem KnownValue.isWritable_of_decode {t : Tree} (ht : t.IsSound) {k : KnownValue}
    (h : decode t = .ok k) : k.IsWritable := by
  refine Decoder.record_invariant ?part ?initial ht h
  case initial => exact ⟨⟨nofun, by decide, by decide⟩, by simp [Value.numbers]⟩
  case part =>
    intro name t j j' ht hj h
    unfold decodePart at h
    split at h <;> obtain ⟨a, ha, h⟩ := exists_of_bind_eq_ok h <;> obtain rfl := Except.ok.inj h
    · obtain ⟨s, hs⟩ := Decoder.exists_of_reference ha
      exact { hj with cell := CellReference.isInside_of_parse hs }
    · exact { hj with numbers := Value.isFinite_of_decode ht ha }

theorem lt_of_optional_natural {bits : Nat} {type : String} {t : Tree} {n : Option Nat}
    (h : Decoder.optional (Decoder.natural bits type) t = .ok n) : ∀ m ∈ n, m < 2 ^ bits := by
  rintro m rfl
  exact Decoder.natural_lt (Decoder.of_optional h)

theorem Field.isWritable_of_decode {t : Tree} (ht : t.IsSound) {f : Field}
    (h : decode t = .ok f) : f.IsWritable := by
  refine Decoder.record_invariant ?part ?initial ht h
  case initial => constructor <;> simp [named]
  case part =>
    intro name t g g' ht hg h
    unfold decodePart at h
    split at h <;> obtain ⟨a, ha, h⟩ := exists_of_bind_eq_ok h <;> obtain rfl := Except.ok.inj h
    case h_2 =>
      refine { hg with sheet := ?_ }
      rintro i rfl
      exact SheetSelector.lt_of_decode ht (Decoder.of_optional ha)
    case h_3 => exact { hg with row := lt_of_optional_natural ha }
    case h_4 => exact { hg with column := lt_of_optional_natural ha }
    case h_5 => exact { hg with firstRow := lt_of_optional_natural ha }
    case h_6 =>
      refine { hg with cells := fun r hr => ?_ }
      obtain ⟨_, -, hr⟩ := Decoder.exists_of_items ht ha hr
      obtain ⟨s, hs⟩ := Decoder.exists_of_reference hr
      exact CellReference.isInside_of_parse hs
    case h_7 =>
      refine { hg with ranges := fun r hr => ?_ }
      obtain ⟨_, -, hr⟩ := Decoder.exists_of_items ht ha hr
      obtain ⟨s, hs⟩ := Decoder.exists_of_reference hr
      exact RangeReference.isInside_of_parse hs
    case h_8 =>
      refine { hg with values := fun k hk => ?_ }
      obtain ⟨_, ht', hk⟩ := Decoder.exists_of_items ht ha hk
      exact KnownValue.isWritable_of_decode ht' hk
    case h_11 => exact { hg with depth := lt_of_optional_natural ha }
    all_goals exact { hg with }

theorem Options.lt_of_decode {t : Tree} (ht : t.IsSound) {o : Options} (h : decode t = .ok o) :
    ∀ n ∈ o.recordLimit, n < 2 ^ 64 := by
  refine Decoder.record_invariant (P := fun o : Options => ∀ n ∈ o.recordLimit, n < 2 ^ 64) ?part
    ?initial ht h
  case initial => simp [default]
  case part =>
    intro name t p p' ht hp h
    unfold decodePart at h
    split at h <;> obtain ⟨a, ha, h⟩ := exists_of_bind_eq_ok h <;> obtain rfl := Except.ok.inj h
    · exact lt_of_optional_natural ha
    · exact hp

namespace Schema

theorem isWritable_of_decode {t : Tree} (ht : t.IsSound) {s : Schema} (h : decode t = .ok s) :
    s.IsWritable := by
  refine Decoder.record_invariant ?part ?initial ht h
  case initial => constructor <;> simp [Options.default]
  case part =>
    intro name t r r' ht hr h
    unfold decodePart at h
    split at h <;> obtain ⟨a, ha, h⟩ := exists_of_bind_eq_ok h <;> obtain rfl := Except.ok.inj h
    · refine { hr with fields := fun f hf => ?_ }
      obtain ⟨_, ht', hf⟩ := Decoder.exists_of_items ht ha hf
      exact Field.isWritable_of_decode ht' hf
    · exact { hr with recordLimit := Options.lt_of_decode ht ha }

/-- What is read of any text can be written. -/
theorem isWritable_of_read {text : String} {s : Schema} (h : read text = .ok s) : s.IsWritable := by
  obtain ⟨r, hr, h⟩ := exists_of_bind_eq_ok h
  split at h
  · obtain rfl := Except.ok.inj h
    exact isWritable_of_decode (isSound_parse _) hr
  · cases h

/-- **Schemas are read back from their documents.**  A schema that can be written is read back from
its document as it was: its fields in their order with all that is there of them, and its options.
What is read of any text can be written, so after the first reading it does not change any more.
That the numbers known beforehand are read back from their texts is taken for granted; all other
values are. -/
theorem documents_read_back :
    (∀ s : Schema, s.IsWritable → s.NumbersReadBack → read s.toTree.render = .ok s) ∧
      ∀ text s, read text = .ok s →
        s.IsWritable ∧ (s.NumbersReadBack → read s.toTree.render = .ok s) :=
  ⟨fun _ h hnumbers => read_render h hnumbers, fun _ _ h =>
    ⟨isWritable_of_read h, read_render (isWritable_of_read h)⟩⟩

/-- A text with all parts of a schema, in an order of its own. -/
def salesText : String :=
  "\x7b\"options\":[7,[\"Q1\"]],\"fields\":[" ++
    "\x7b\"sheet\":\"Q1\",\"name\":\"Gr\\u00f6\u00dfe\",\"cells\":[\"'It''s'!$b$3\"]," ++
    "\"ranges\":[\"C3:A1\"],\"type\":\"number\",\"metric\":false\x7d," ++
    "\x7b\"name\":\"\",\"values\":[[\"B1\",-25e-8],[\"B2\",3],[\"B3\",\"\\n\"]]\x7d," ++
    "[\"c\",1,null,0,2,[],[],[],\"any\",null,3]]\x7d"

/-- The schema of `salesText`. -/
def sales : Schema where
  fields := [
    { Field.named "Größe" with
      sheet := some (.name "Q1")
      cells := [⟨some "It's", ⟨2, 1⟩⟩]
      ranges := [⟨none, .spanning ⟨0, 0⟩ ⟨2, 2⟩⟩]
      type := .number
      metric := some false },
    { Field.named "" with
      values := [⟨⟨none, ⟨0, 1⟩⟩, .number (-2.5e-7)⟩, ⟨⟨none, ⟨1, 1⟩⟩, .number 3⟩,
        ⟨⟨none, ⟨2, 1⟩⟩, .text "\n"⟩] },
    { Field.named "c" with
      sheet := some (.index 1)
      column := some 0
      firstRow := some 2
      depth := some 3 }]
  options := ⟨some 7, some ["Q1"]⟩

theorem documents_read_back_sales :
    read salesText = .ok sales ∧ sales.IsWritable ∧ sales.NumbersReadBack ∧
      read sales.toTree.render = .ok sales := by
  have hread : read salesText = .ok sales := by decide +kernel
  have hnumbers : sales.NumbersReadBack := by decide +kernel
  obtain ⟨hwritten, htext⟩ := documents_read_back
  obtain ⟨hwritable, -⟩ := htext salesText sales hread
  exact ⟨hread, hwritable, hnumbers, hwritten sales hwritable hnumbers⟩

end Schema

end SheetRecords
