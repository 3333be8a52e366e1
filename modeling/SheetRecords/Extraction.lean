import SheetRecords.Record.Assembly
import SheetRecords.Scan.Stream

/-!
# Extraction

`Schema.prepare` checks a schema against a grid and plans its fields; all faults are found
there, before any cell is read.  An `Extraction` then gives the records one by one
(`Extraction.next`), and visits no more cells than the next record needs.
-/

namespace SheetRecords

open Cell

/-- Why nothing can be extracted. -/
inductive ExtractionError where
  | misconfigured (issues : List Issue)
  /-- The scan order names a sheet that the grid lacks. -/
  | unknownSheet (name : String)
  deriving DecidableEq, Repr

/-- The wording of an `ExtractionError`. -/
def ExtractionError.message : ExtractionError → String
  | .misconfigured issues =>
    let all := "; ".intercalate (issues.map Issue.message)
    s!"{issues.length} misconfigured field(s): {all}"
  | .unknownSheet name => s!"Sheet not found in grid: {name}"

/-- A schema made ready for a grid. -/
structure Prepared where
  scan : Scan
  fields : List PlannedField

namespace Schema

/-- The order in which the sheets of a grid are scanned. -/
def sheetOrder (s : Schema) (g : Grid) : Except ExtractionError SheetOrder :=
  match s.options.sheetOrder with
  | none => .ok (.ofGrid g)
  | some names => (SheetOrder.select g names).mapError .unknownSheet

/-- Makes a schema ready for a grid.  What the fields alone show to be wrong comes first, then
the order of the sheets, then the sheets that fields select by place. -/
def prepare (s : Schema) (g : Grid) : Except ExtractionError Prepared := do
  let issues := s.report.issues
  if !issues.isEmpty then throw (.misconfigured issues)
  let order ← s.sheetOrder g
  let fields ← (planFields order s.fields).mapError .misconfigured
  return ⟨⟨g, order⟩, fields⟩

end Schema

/-! ### Running -/

/-- An extraction under way. -/
structure Extraction where
  scan : Scan
  /-- The cells still to visit. -/
  stream : CellStream
  assembly : Assembly
  /-- The number of records still to give, if it is limited. -/
  remaining : Option Nat
  finished : Bool

namespace Extraction

/-- The extraction of a prepared schema, of so many records at most. -/
def start (p : Prepared) (limit : Option Nat) : Extraction where
  scan := p.scan
  stream := .start p.scan.order
  assembly := .start p.fields p.scan.order.names
  remaining := limit
  finished := false

/-- Visits cells until a record is complete or the scan is at its end: the assembly and the cells
still to visit, `none` if the scan has been ended. -/
def advance (s : Scan) (a : Assembly) (c : CellStream) : Assembly × Option CellStream :=
  if a.pending.isEmpty then
    match _h : c.next? s.grid with
    | none => (a.finish s, none)
    | some (v, rest) => advance s (a.visit s v) rest
  else (a, some c)
termination_by (c.visits s.grid).length
decreasing_by
  rw [CellStream.visits_of_next?_eq_some _h]
  exact Nat.lt_succ_self _

/-- The next record, `none` when there are no more, and the extraction after it. -/
def next (e : Extraction) : Option Record × Extraction :=
  if e.remaining = some 0 then (none, e)
  else
    let e :=
      if e.finished then e
      else match advance e.scan e.assembly e.stream with
        | (a, some stream) => { e with assembly := a, stream := stream }
        | (a, none) => { e with assembly := a, stream := .ended, finished := true }
    match e.assembly.pending with
    | [] => (none, e)
    | r :: pending =>
      (some r, { e with
        assembly := { e.assembly with pending := pending }
        remaining := e.remaining.map (· - 1) })

/-- The next `n` records, or `none` for each one that is lacking, and the extraction after them. -/
def take (e : Extraction) : Nat → List (Option Record) × Extraction
  | 0 => ([], e)
  | n + 1 =>
    let (r, e) := e.next
    let (records, e) := e.take n
    (r :: records, e)

/-- The cells still to visit, in order. -/
def visits (e : Extraction) : List Visit :=
  e.stream.visits e.scan.grid

/-- Hands out the records that are pending, after those in `given`, which are in reverse. -/
def handOut (given : List Record) (a : Assembly) : List Record × Assembly :=
  (a.pending.reverse ++ given, { a with pending := [] })

/-- All records still to come, without regard to a limit. -/
def allRecords (e : Extraction) : List Record :=
  let (given, a) := e.visits.foldl
    (fun (given, a) v => handOut given (a.visit e.scan v))
    (handOut [] e.assembly)
  let a := if e.finished then a else a.finish e.scan
  (handOut given a).1.reverse

/-- All records still to come. -/
def records (e : Extraction) : List Record :=
  match e.remaining with
  | none => e.allRecords
  | some n => e.allRecords.take n

end Extraction

namespace Schema

/-- Starts the extraction of records from a grid. -/
def extract (s : Schema) (g : Grid) : Except ExtractionError Extraction := do
  let p ← s.prepare g
  return .start p s.options.recordLimit

/-- How many values a field should have on a sheet. -/
structure Expectation where
  field : String
  sheet : String
  count : Nat
  deriving DecidableEq, Repr

/-- How many values each field should have on each scanned sheet of a grid. -/
def expectations (s : Schema) (g : Grid) : Except ExtractionError (List Expectation) := do
  let p ← s.prepare g
  return p.fields.flatMap fun f =>
    p.scan.order.names.map fun name => ⟨f.name, name, f.plan.expectedCount p.scan name⟩

end Schema

end SheetRecords
