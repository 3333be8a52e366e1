import SheetRecords.Json.Decoder
import SheetRecords.Schema.Basic
import SheetRecords.Text.Utf8

/-!
# Schemas as documents

A schema is read from a JSON document (`Schema.read`) and written as one (`Schema.toTree`).  Unknown
and repeated keys are refused.  Optional parts that are absent are not written, and are read back as
absent; a reference is a text.
-/

namespace SheetRecords

open Cell Json

/-! ### Reading -/

/-- A sheet selector is a natural number of 64 bits or a text. -/
def SheetSelector.decode : Decoder SheetSelector := fun t =>
  match t.error? with
  | some e => .error (.malformed e)
  | none =>
    match t with
    | .number (.natural i) => .ok (.index i)
    | .text s => .ok (.name s)
    | _ => .error (.noForm "SheetRef")

/-- A cell value is a scalar; `null` stands for an empty cell. -/
def Cell.Value.decode : Decoder Value := fun t =>
  match t.error? with
  | some e => .error (.malformed e)
  | none =>
    match t with
    | .null => .ok .empty
    | .boolean b => .ok (.boolean b)
    | .number n => .ok (.number n.toFloat)
    | .text s => .ok (.text s)
    | _ => .error (.noForm "CellValue")

namespace KnownValue

def decodePart (name : String) (t : Tree) (k : KnownValue) : Except DecodeError KnownValue :=
  match name with
  | "at" => do return { k with cell := ← Decoder.reference CellReference.parse t }
  | _ => do return { k with value := ← Value.decode t }

def decode : Decoder KnownValue :=
  Decoder.record "ValueEntry" ["at", "value"] 2 ⟨⟨none, ⟨0, 0⟩⟩, .empty⟩ decodePart

end KnownValue

namespace Field

def partNames : List String :=
  ["name", "sheet", "row", "col", "first_row", "cells", "ranges", "values", "type", "metric",
    "depth"]

def decodePart (name : String) (t : Tree) (f : Field) : Except DecodeError Field :=
  match name with
  | "name" => do return { f with name := ← Decoder.text t }
  | "sheet" => do return { f with sheet := ← Decoder.optional SheetSelector.decode t }
  | "row" => do return { f with row := ← Decoder.optional (Decoder.natural 32 "u32") t }
  | "col" => do return { f with column := ← Decoder.optional (Decoder.natural 16 "u16") t }
  | "first_row" => do return { f with firstRow := ← Decoder.optional (Decoder.natural 32 "u32") t }
  | "cells" => do
    return { f with cells := ← Decoder.items (Decoder.reference CellReference.parse) t }
  | "ranges" => do
    return { f with ranges := ← Decoder.items (Decoder.reference RangeReference.parse) t }
  | "values" => do return { f with values := ← Decoder.items KnownValue.decode t }
  | "type" => do return { f with type := ← Decoder.word ValueType.words t }
  | "metric" => do return { f with metric := ← Decoder.optional Decoder.boolean t }
  | _ => do return { f with depth := ← Decoder.optional (Decoder.natural 32 "u32") t }

/-- A field is a record that must have a name. -/
def decode : Decoder Field :=
  Decoder.record "FieldConfig" partNames 1 (named "") decodePart

end Field

namespace Options

def decodePart (name : String) (t : Tree) (o : Options) : Except DecodeError Options :=
  match name with
  | "record_limit" => do
    return { o with recordLimit := ← Decoder.optional (Decoder.natural 64 "usize") t }
  | _ => do return { o with sheetOrder := ← Decoder.optional (Decoder.items Decoder.text) t }

/-- Options are a record without required parts. -/
def decode : Decoder Options :=
  Decoder.record "ExtractOptions" ["record_limit", "sheet_order"] 0 default decodePart

end Options

namespace Schema

def decodePart (name : String) (t : Tree) (s : Schema) : Except DecodeError Schema :=
  match name with
  | "fields" => do return { s with fields := ← Decoder.items Field.decode t }
  | _ => do return { s with options := ← Options.decode t }

/-- A schema is a record that must have fields. -/
def decode : Decoder Schema :=
  Decoder.record "ExtractConfig" ["fields", "options"] 1 ⟨[], .default⟩ decodePart

def readBytes (bytes : List UInt8) : Except DecodeError Schema :=
  Decoder.run decode bytes

def read (s : String) : Except DecodeError Schema :=
  readBytes (Text.Utf8.encode s)

end Schema

/-! ### Writing -/

def SheetSelector.toTree : SheetSelector → Tree
  | .index i => .number (.natural i)
  | .name s => .text s

def Cell.Value.toTree : Value → Tree
  | .empty => .null
  | .boolean b => .boolean b
  | .number x => .number (.float x)
  | .text s => .text s

def KnownValue.toTree (k : KnownValue) : Tree :=
  .object [("at", .text k.cell.text), ("value", k.value.toTree)] none

/-- The member of an optional part, if it is there. -/
def optionalMember {α : Type} (name : String) (toTree : α → Tree) (a : Option α) :
    List (String × Tree) :=
  match a with
  | none => []
  | some a => [(name, toTree a)]

/-- The member of a list, unless it is empty. -/
def listMember {α : Type} (name : String) (toTree : α → Tree) (as : List α) :
    List (String × Tree) :=
  match as with
  | [] => []
  | as => [(name, .array (as.map toTree) none)]

def naturalTree (n : Nat) : Tree :=
  .number (.natural n)

def Field.toTree (f : Field) : Tree :=
  .object
    (("name", .text f.name) ::
      optionalMember "sheet" SheetSelector.toTree f.sheet ++
      optionalMember "row" naturalTree f.row ++
      optionalMember "col" naturalTree f.column ++
      optionalMember "first_row" naturalTree f.firstRow ++
      listMember "cells" (fun r => .text (CellReference.text r)) f.cells ++
      listMember "ranges" (fun r => .text (RangeReference.text r)) f.ranges ++
      listMember "values" KnownValue.toTree f.values ++
      [("type", .text f.type.word)] ++
      optionalMember "metric" .boolean f.metric ++
      optionalMember "depth" naturalTree f.depth)
    none

def Options.toTree (o : Options) : Tree :=
  .object
    (optionalMember "record_limit" naturalTree o.recordLimit ++
      optionalMember "sheet_order" (fun names => .array (names.map .text) none) o.sheetOrder)
    none

def Schema.toTree (s : Schema) : Tree :=
  .object [("fields", .array (s.fields.map Field.toTree) none), ("options", s.options.toTree)] none

end SheetRecords
