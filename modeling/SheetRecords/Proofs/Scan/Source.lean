import SheetRecords.Proofs.Scan.Lookup

/-!
# The sources of a field

A cell is a source of a field if the plan of the field addresses it (`Plan.addresses`), and then it
gives the field a value (`Plan.sourceValue?`).  During a scan a field other than a constant has an
exact value just at its sources (`resolve_eq_exact_iff`), whatever was visited or marked before.
-/

namespace SheetRecords

open Cell

namespace Plan

/-- Whether the plan addresses the cell at a position.  A constant goes with no cell. -/
def addresses : Plan → Position → Bool
  | .constant _, _ => false
  | .columnScan sheet column firstRow, p =>
    sheet.all (· = p.rank) && p.address.column = column && firstRow ≤ p.address.row
  | .rowScan sheet row, p =>
    sheet.all (· = p.rank) && p.address.row = row && 1 ≤ p.address.column
  | .list entries, p => entries.any (·.position = p)
  | .void, _ => false

/-- The value that a visited cell gives to a field which addresses it: the one known beforehand for
its entry, or its own. -/
def sourceValue? : Plan → Visit → Option Value
  | .list entries, v =>
    (entries.find? (·.position = v.position)).map fun e => e.value.getD v.value
  | .columnScan sheet column firstRow, v =>
    if (columnScan sheet column firstRow).addresses v.position then some v.value else none
  | .rowScan sheet row, v =>
    if (rowScan sheet row).addresses v.position then some v.value else none
  | .constant _, _ => none
  | .void, _ => none

theorem isSome_sourceValue? (plan : Plan) (v : Visit) :
    (plan.sourceValue? v).isSome = plan.addresses v.position := by
  cases plan with
  | list entries =>
    rw [sourceValue?, addresses, Option.isSome_map, Bool.eq_iff_iff, Array.find?_isSome,
      Array.any_eq_true']
  | constant source => rfl
  | columnScan sheet column firstRow =>
    rw [sourceValue?]
    split_ifs with h <;> simp [h]
  | rowScan sheet row =>
    rw [sourceValue?]
    split_ifs with h <;> simp [h]
  | void => rfl

end Plan

/-- An entry is the last one up to its own position. -/
theorem lastUpTo_position {entries : List Entry} (hsorted : EntriesSorted entries) {e : Entry}
    (he : e ∈ entries) : lastUpTo entries e.position = some e := by
  obtain ⟨i, hi, rfl⟩ := List.getElem_of_mem he
  have hlt : i < reached entries entries[i].position := (lt_reached_iff hsorted hi).mpr le_rfl
  have hle := reached_le_length entries entries[i].position
  -- An entry reached beyond it would lie after it.
  have hlast : ¬ i < reached entries entries[i].position - 1 := by
    intro hbefore
    have hj : reached entries entries[i].position - 1 < entries.length := by omega
    have hreached := (lt_reached_iff hsorted (p := entries[i].position) hj).mp (by omega)
    exact absurd (List.pairwise_iff_getElem.mp hsorted i _ hi hj hbefore) (not_lt.mpr hreached)
  have heq : reached entries entries[i].position - 1 = i := by omega
  rw [lastUpTo_eq_getElem? hsorted (by omega), heq, List.getElem?_eq_getElem hi]

/-- The entry at a position, by search and as the last one up to there. -/
theorem find?_eq_lastUpTo {entries : Array Entry} (hsorted : EntriesSorted entries.toList)
    (p : Position) :
    entries.find? (·.position = p) = (lastUpTo entries.toList p).filter (·.position = p) := by
  cases h : entries.find? (·.position = p) with
  | some e =>
    have hp : e.position = p := by simpa using Array.find?_some h
    have hmem : e ∈ entries.toList := Array.mem_def.mp (Array.mem_of_find?_eq_some h)
    rw [← hp, lastUpTo_position hsorted hmem, Option.filter_some, if_pos (by simp)]
  | none =>
    have h := Array.find?_eq_none.mp h
    cases hlast : lastUpTo entries.toList p with
    | none => rfl
    | some e =>
      have hne := h e (Array.mem_def.mpr (mem_of_lastUpTo hlast).1)
      rw [Option.filter_some, if_neg hne]

namespace PlannedField

variable {f : PlannedField} {s : Scan}

/-- What a field needs of its cursor for its answers to come from the plan alone: if it is a list,
the cursor follows the scan. -/
def CursorFollows (f : PlannedField) (last : Option Position) (c : Cursor) : Prop :=
  ∀ entries, f.plan = .list entries → c.Follows entries.toList last

theorem resolve_columnScan {sheet : Option Rank} {column firstRow : Nat}
    (hp : f.plan = .columnScan sheet column firstRow) (v : Visit) (c : Cursor) :
    f.resolve s v c =
      if (Plan.columnScan sheet column firstRow).addresses v.position then (.exact v.value, c)
      else (.none, c) := by
  rw [resolve, hp]
  rfl

theorem resolve_rowScan {sheet : Option Rank} {row : Nat} (hp : f.plan = .rowScan sheet row)
    (v : Visit) (c : Cursor) :
    f.resolve s v c =
      if (Plan.rowScan sheet row).addresses v.position then (.exact v.value, c)
      else (.none, c) := by
  rw [resolve, hp]
  rfl

/-- **Exact values come from sources.**  A field other than a constant has an exact value at a
visited cell just if it addresses the cell, and then it is the value that the cell gives. -/
theorem resolve_eq_exact_iff (hplan : f.plan.IsSorted) (hconstant : f.plan.isConstant = false)
    {last : Option Position} {c : Cursor} (hc : f.CursorFollows last c) {v : Visit}
    (hlast : ∀ q ∈ last, q < v.position) (hv : s.Agrees v) (x : Value) :
    (f.resolve s v c).1 = .exact x ↔ f.plan.sourceValue? v = some x := by
  cases hp : f.plan with
  | constant source => rw [hp] at hconstant; cases hconstant
  | columnScan sheet column firstRow =>
    rw [resolve_columnScan hp, Plan.sourceValue?]
    cases (Plan.columnScan sheet column firstRow).addresses v.position <;> simp
  | rowScan sheet row =>
    rw [resolve_rowScan hp, Plan.sourceValue?]
    cases (Plan.rowScan sheet row).addresses v.position <;> simp
  | void => simp [resolve, hp, Plan.sourceValue?]
  | list entries =>
    rw [hp] at hplan
    rw [resolve_list hp, resolveList_eq_answer hplan (hc entries hp) hlast hv, Plan.sourceValue?,
      find?_eq_lastUpTo hplan]
    cases lastUpTo entries.toList v.position with
    | none => simp
    | some e =>
      by_cases hat : e.position = v.position
      · simp [Scan.answer_of_eq hat, hat]
      · simp [Scan.answer_ne_exact hat, hat]

end PlannedField

end SheetRecords
