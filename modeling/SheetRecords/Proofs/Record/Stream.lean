import Mathlib.Tactic.SplitIfs
import SheetRecords.Extraction

/-!
# Handing out records

The records of an extraction may be asked for one by one (`Extraction.next`) or all at once
(`Extraction.records`), and are the same either way (`Extraction.take_start`).

Records that are pending have no part in what an assembly does (`Assembly.visit_prepend`).  All
records are therefore those that are pending at the end if none is handed out before
(`Extraction.allRecords_eq_pending`).
-/

namespace SheetRecords

open Cell

/-! ### Handing out records -/

namespace Assembly

/-- The assembly with more records before those that are pending. -/
def prepend (records : List Record) (a : Assembly) : Assembly :=
  { a with pending := records ++ a.pending }

variable (records : List Record) (a : Assembly)

theorem emit_prepend (ofRow : Bool) (columns : List (Option Nat)) (origin : Option Nat → Origin) :
    (a.prepend records).emit ofRow columns origin =
      (a.emit ofRow columns origin).prepend records := by
  simp only [emit, prepend, List.append_assoc]

theorem closeRow_prepend (rank : Rank) (row : Nat) :
    (a.prepend records).closeRow rank row = (a.closeRow rank row).prepend records := by
  rw [closeRow, emit_prepend]
  rfl

theorem closeSheet_prepend (rank : Rank) :
    (a.prepend records).closeSheet rank = (a.closeSheet rank).prepend records := by
  rw [closeSheet, emit_prepend]
  rfl

theorem enter_prepend (q : Position) :
    (a.prepend records).enter q = (a.enter q).prepend records := by
  have hcurrent : (a.prepend records).current = a.current := rfl
  rw [enter, enter, hcurrent]
  cases a.current with
  | none => rfl
  | some rowKey =>
    obtain ⟨rank, row⟩ := rowKey
    simp only
    split_ifs
    · rfl
    · rw [closeRow_prepend]
      rfl
    · rw [closeSheet_prepend]
      rfl
    · rw [closeRow_prepend, closeSheet_prepend]
      rfl

theorem observeAll_prepend (column : Nat) (resolve : Track → Resolution × Cursor) :
    (a.prepend records).observeAll column resolve =
      (a.observeAll column resolve).prepend records := rfl

theorem visit_prepend (s : Scan) (v : Visit) :
    (a.prepend records).visit s v = (a.visit s v).prepend records := by
  rw [visit, enter_prepend, observeAll_prepend]
  rfl

theorem close_prepend : (a.prepend records).close = a.close.prepend records := by
  have hcurrent : (a.prepend records).current = a.current := rfl
  rw [close, close, hcurrent]
  cases a.current with
  | none => rfl
  | some rowKey =>
    obtain ⟨rank, row⟩ := rowKey
    simp only
    rw [closeRow_prepend, closeSheet_prepend]
    rfl

theorem finish_prepend (s : Scan) :
    (a.prepend records).finish s = (a.finish s).prepend records := by
  have hgrouping : (a.close.prepend records).grouping = a.close.grouping := rfl
  rw [finish, finish, close_prepend, hgrouping]
  split_ifs
  · rw [observeAll_prepend, emitDocument, emit_prepend]
    rfl
  · rfl

end Assembly

namespace Extraction

/-- Handing out records changes nothing but the place where they are kept. -/
theorem prepend_handOut (given : List Record) (a : Assembly) :
    (handOut given a).2.prepend (handOut given a).1.reverse = a.prepend given.reverse := by
  simp [handOut, Assembly.prepend]

/-- Handing out records visit by visit comes to the same as keeping all of them to the end. -/
theorem prepend_foldl_handOut (s : Scan) (visits : List Visit) (given : List Record)
    (a : Assembly) :
    let handed := visits.foldl (fun (given, a) v => handOut given (a.visit s v)) (given, a)
    handed.2.prepend handed.1.reverse =
      visits.foldl (Assembly.visit s) (a.prepend given.reverse) := by
  induction visits generalizing given a with
  | nil => rfl
  | cons v visits ih =>
    rw [List.foldl_cons, List.foldl_cons, Assembly.visit_prepend, ← prepend_handOut]
    exact ih _ _

/-- The assembly at the end of an extraction, if no record is handed out any more. -/
def final (e : Extraction) : Assembly :=
  let a := e.visits.foldl (Assembly.visit e.scan) e.assembly
  if e.finished then a else a.finish e.scan

/-- All records of an extraction are pending at its end if none is handed out before. -/
theorem allRecords_eq_pending (e : Extraction) : e.allRecords = e.final.pending := by
  have hhanded := prepend_foldl_handOut e.scan e.visits (handOut [] e.assembly).1
    (handOut [] e.assembly).2
  have hstart : (handOut [] e.assembly).2.prepend (handOut [] e.assembly).1.reverse = e.assembly :=
    prepend_handOut [] e.assembly
  rw [hstart] at hhanded
  rw [final, ← hhanded]
  cases hfinished : e.finished with
  | true => simp [allRecords, hfinished, handOut, Assembly.prepend]
  | false =>
    simp only [Bool.false_eq_true, if_false]
    rw [Assembly.finish_prepend]
    simp [allRecords, hfinished, handOut, Assembly.prepend]

/-- Records that are pending stay in front. -/
theorem final_prepend (e : Extraction) (records : List Record) :
    { e with assembly := e.assembly.prepend records }.final = e.final.prepend records := by
  have hvisits : ∀ (visits : List Visit) (a : Assembly),
      visits.foldl (Assembly.visit e.scan) (a.prepend records) =
        (visits.foldl (Assembly.visit e.scan) a).prepend records := by
    intro visits
    induction visits with
    | nil => exact fun _ => rfl
    | cons v visits ih =>
      intro a
      rw [List.foldl_cons, List.foldl_cons, Assembly.visit_prepend, ih]
  simp only [final, hvisits]
  split_ifs
  · rfl
  · exact Assembly.finish_prepend ..

/-! ### One record after the other -/

/-- The scan has been ended only if no cell is left to visit. -/
def IsOrderly (e : Extraction) : Prop :=
  e.finished = true → e.visits = []

theorem isOrderly_start (p : Prepared) (limit : Option Nat) : (start p limit).IsOrderly := by
  intro h
  cases h

/-- Advancing stops at a record, or at the end of the scan. -/
theorem advance_eq (s : Scan) (a : Assembly) (c : CellStream) :
    (∃ a' c', advance s a c = (a', some c') ∧ a'.pending ≠ [] ∧
        (c'.visits s.grid).foldl (Assembly.visit s) a' =
          (c.visits s.grid).foldl (Assembly.visit s) a) ∨
      advance s a c = (((c.visits s.grid).foldl (Assembly.visit s) a).finish s, none) := by
  fun_induction advance s a c with
  | case1 a c _ hnext =>
    rw [CellStream.visits_of_next?_eq_none hnext]
    exact .inr rfl
  | case2 a c _ v rest hnext ih =>
    rw [CellStream.visits_of_next?_eq_some hnext]
    exact ih
  | case3 a c hpending => exact .inl ⟨a, c, rfl, by simpa using hpending, rfl⟩

/-- Makes sure that a record is pending, unless there are no more. -/
def prime (e : Extraction) : Extraction :=
  if e.finished then e
  else match advance e.scan e.assembly e.stream with
    | (a, some stream) => { e with assembly := a, stream := stream }
    | (a, none) => { e with assembly := a, stream := .ended, finished := true }

/-- A call primes the extraction, unless it is over, and takes the record in front. -/
theorem next_def (e : Extraction) :
    e.next =
      if e.remaining = some 0 then (none, e)
      else match e.prime.assembly.pending with
        | [] => (none, e.prime)
        | r :: pending =>
          (some r, { e.prime with
            assembly := { e.prime.assembly with pending := pending }
            remaining := e.prime.remaining.map (· - 1) }) := rfl

theorem prime_remaining (e : Extraction) : e.prime.remaining = e.remaining := by
  rw [prime]
  split_ifs
  · rfl
  · split <;> rfl

theorem final_prime (e : Extraction) : e.prime.final = e.final := by
  rw [prime]
  split_ifs with hfinished
  · rfl
  · rcases advance_eq e.scan e.assembly e.stream with ⟨a, stream, hadvance, -, hfold⟩ | hadvance
    · simp only [hadvance, final, visits, hfold]
    · simp [hadvance, final, visits, hfinished]

theorem IsOrderly.prime {e : Extraction} (he : e.IsOrderly) : e.prime.IsOrderly := by
  rw [Extraction.prime]
  split_ifs with hfinished
  · exact he
  · split
    · exact fun h => absurd h hfinished
    · exact fun _ => rfl

/-- No record is pending only at the end. -/
theorem IsOrderly.final_eq_of_pending_eq_nil {e : Extraction} (he : e.IsOrderly)
    (h : e.prime.assembly.pending = []) : e.prime.final.pending = [] := by
  have hfinished : e.prime.finished = true := by
    rw [Extraction.prime] at h ⊢
    split_ifs at h ⊢ with hfinished
    · exact hfinished
    · rcases advance_eq e.scan e.assembly e.stream with ⟨a, stream, hadvance, hne, -⟩ | hadvance
      · rw [hadvance] at h
        exact absurd h hne
      · rw [hadvance]
  rw [final, he.prime hfinished, hfinished]
  exact h

theorem records_eq_nil {e : Extraction} (h : e.allRecords = []) : e.records = [] := by
  rw [records, h]
  cases e.remaining with
  | none => rfl
  | some n => exact List.take_nil

/-- One record less among all of them is one less among those allowed. -/
theorem records_eq_cons {e rest : Extraction} {r : Record}
    (hall : e.allRecords = r :: rest.allRecords) (hremaining : e.remaining ≠ some 0)
    (hrest : rest.remaining = e.remaining.map (· - 1)) : e.records = r :: rest.records := by
  rw [records, records, hrest, hall]
  cases hn : e.remaining with
  | none => rfl
  | some n =>
    cases n with
    | zero => exact absurd hn hremaining
    | succ n => rfl

/-- **One call.**  The next record is the first one still to come, and leaves the others. -/
theorem next_eq {e : Extraction} (he : e.IsOrderly) :
    e.next.1 = e.records.head? ∧ e.next.2.records = e.records.tail ∧ e.next.2.IsOrderly := by
  have hall : e.allRecords = e.prime.final.pending := by
    rw [allRecords_eq_pending, final_prime]
  rw [next_def]
  by_cases hzero : e.remaining = some 0
  · have hrecords : e.records = [] := by rw [records, hzero]; rfl
    rw [if_pos hzero, hrecords]
    exact ⟨rfl, rfl, he⟩
  rw [if_neg hzero]
  cases hpending : e.prime.assembly.pending with
  | nil =>
    have hfinal := he.final_eq_of_pending_eq_nil hpending
    have hrecords : e.records = [] := records_eq_nil (hall.trans hfinal)
    have hprime : e.prime.records = [] := records_eq_nil ((allRecords_eq_pending _).trans hfinal)
    rw [hrecords]
    exact ⟨rfl, hprime, he.prime⟩
  | cons r pending =>
    -- The record in front takes no part in what is still to come.
    have hfront : e.prime.final =
        { e.prime with
          assembly := { e.prime.assembly with pending := pending } }.final.prepend [r] := by
      rw [← final_prepend, Assembly.prepend, List.singleton_append, ← hpending]
    have hcons : e.allRecords = r :: { e.prime with
        assembly := { e.prime.assembly with pending := pending }
        remaining := e.prime.remaining.map (· - 1) }.allRecords := by
      rw [hall, hfront, allRecords_eq_pending]
      rfl
    have hrecords := records_eq_cons hcons hzero (by rw [← prime_remaining e])
    simp only
    rw [hrecords]
    exact ⟨rfl, rfl, he.prime⟩

/-- **Several calls.**  The `i`-th call gives the `i`-th record, or nothing if there are no more. -/
theorem take_eq {e : Extraction} (he : e.IsOrderly) (n : Nat) :
    (e.take n).1 = (List.range n).map (e.records[·]?) := by
  induction n generalizing e with
  | zero => rfl
  | succ n ih =>
    obtain ⟨hhead, htail, horderly⟩ := next_eq he
    have htake : (e.take (n + 1)).1 = e.next.1 :: (e.next.2.take n).1 := rfl
    rw [htake, ih horderly, hhead, htail, List.range_succ_eq_map, List.map_cons, List.map_map]
    simp [Function.comp_def, List.head?_eq_getElem?, List.getElem?_tail]

/-- **One by one or all at once.**  An extraction gives the same records either way. -/
theorem take_start (p : Prepared) (limit : Option Nat) (n : Nat) :
    ((start p limit).take n).1 = (List.range n).map ((start p limit).records[·]?) :=
  take_eq (isOrderly_start p limit) n

end Extraction

end SheetRecords
