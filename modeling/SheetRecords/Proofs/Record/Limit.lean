import SheetRecords.Proofs.Record.Metrics

/-!
# A limit on the number of records

`Extraction.Delivers` says what becomes of an extraction as it is asked for one record after the
other: the calls give its records in order and then nothing, one call at most ends the scan, and
after that call all rows and sheets are closed and the others only hand out what is pending.

With a limit an extraction delivers the first records of the one without (`Schema.extract_limit`),
and what is left of the limit and the number of records given add up to it.
-/

namespace SheetRecords

open Cell

/-! ### Closing once -/

namespace Assembly

/-- After a close nothing is open. -/
theorem current_close (a : Assembly) : a.close.current = none := by
  unfold close
  cases hcurrent : a.current with
  | none => exact hcurrent
  | some rowKey => rfl

theorem current_finish (s : Scan) (a : Assembly) : (a.finish s).current = none := by
  unfold finish
  simp only
  split_ifs
  · show a.close.current = none
    exact current_close a
  · exact current_close a

end Assembly

namespace Extraction

variable {e e' e'' : Extraction}

/-! ### Calls -/

/-- What the call of number `k` gives, counted from zero. -/
def call (e : Extraction) (k : Nat) : Option Record :=
  (e.take k).2.next.1

/-- The call of number `k` ends the scan. -/
def EndsAt (e : Extraction) (k : Nat) : Prop :=
  (e.take k).2.finished = false ∧ (e.take (k + 1)).2.finished = true

/-- The second extraction differs from the first one in that records have been handed out. -/
def HandsOut (e e' : Extraction) : Prop :=
  ∃ given pending remaining, e.assembly.pending = given ++ pending ∧
    e' = { e with
      assembly := { e.assembly with pending := pending }
      remaining := remaining }

theorem HandsOut.refl (e : Extraction) : e.HandsOut e :=
  ⟨[], e.assembly.pending, e.remaining, rfl, rfl⟩

theorem HandsOut.trans (h : e.HandsOut e') (h' : e'.HandsOut e'') : e.HandsOut e'' := by
  obtain ⟨given, pending, remaining, hpending, rfl⟩ := h
  obtain ⟨given', pending', remaining', hpending', rfl⟩ := h'
  refine ⟨given ++ given', pending', remaining', ?_, rfl⟩
  have hrest : pending = given' ++ pending' := hpending'
  rw [hpending, hrest, List.append_assoc]

theorem HandsOut.finished (h : e.HandsOut e') : e'.finished = e.finished := by
  obtain ⟨_, _, _, _, rfl⟩ := h
  rfl

/-- The last of several calls. -/
theorem take_succ (e : Extraction) (k : Nat) :
    e.take (k + 1) = ((e.take k).1 ++ [e.call k], (e.take k).2.next.2) := by
  induction k generalizing e with
  | zero => rfl
  | succ k ih =>
    have hfirst : e.take (k + 1 + 1) =
        (e.next.1 :: (e.next.2.take (k + 1)).1, (e.next.2.take (k + 1)).2) := rfl
    rw [hfirst, ih]
    rfl

/-- An invariant of calls holds after any number of them. -/
theorem take_induction {motive : Extraction → Prop} (hnext : ∀ e, motive e → motive e.next.2)
    (h : motive e) (k : Nat) : motive (e.take k).2 := by
  induction k with
  | zero => exact h
  | succ k ih =>
    rw [take_succ]
    exact hnext _ ih

/-- A run of calls is a shorter run and then some more. -/
theorem take_add (e : Extraction) (j k : Nat) : (e.take (j + k)).2 = ((e.take j).2.take k).2 := by
  induction k with
  | zero => rfl
  | succ k ih =>
    rw [← Nat.add_assoc, take_succ, take_succ, ih]

/-- Once the scan has been ended, a call hands out a record at most. -/
theorem handsOut_next (h : e.finished = true) : e.HandsOut e.next.2 := by
  have hprime : e.prime = e := by rw [prime, if_pos h]
  rw [next_def, hprime]
  split_ifs
  · exact .refl e
  · cases hpending : e.assembly.pending with
    | nil => exact .refl e
    | cons r pending => exact ⟨[r], pending, _, hpending, rfl⟩

theorem handsOut_take (h : e.finished = true) (k : Nat) : e.HandsOut (e.take k).2 := by
  refine take_induction (motive := e.HandsOut) ?_ (.refl e) k
  intro e' he'
  exact he'.trans (handsOut_next (he'.finished.trans h))

/-- The scan is ended with nothing open. -/
def IsClosed (e : Extraction) : Prop :=
  e.finished = true → e.assembly.current = none

theorem IsClosed.prime (h : e.IsClosed) : e.prime.IsClosed := by
  unfold Extraction.prime
  split_ifs with hfinished
  · exact h
  · rcases advance_eq e.scan e.assembly e.stream with ⟨a, stream, hadvance, -⟩ | hadvance
    · rw [hadvance]
      intro hended
      exact absurd hended hfinished
    · rw [hadvance]
      intro _
      exact Assembly.current_finish ..

theorem IsClosed.next (h : e.IsClosed) : e.next.2.IsClosed := by
  rw [next_def]
  split_ifs
  · exact h
  · split
    · exact h.prime
    · exact h.prime

/-! ### What calls leave -/

/-- The records that are left after some calls. -/
theorem IsOrderly.records_take (he : e.IsOrderly) (k : Nat) :
    (e.take k).2.IsOrderly ∧ (e.take k).2.records = e.records.drop k := by
  induction k with
  | zero => exact ⟨he, rfl⟩
  | succ k ih =>
    obtain ⟨horderly, hrecords⟩ := ih
    obtain ⟨-, htail, hnext⟩ := next_eq horderly
    rw [take_succ]
    refine ⟨hnext, ?_⟩
    show (e.take k).2.next.2.records = e.records.drop (k + 1)
    rw [htail, hrecords, List.tail_drop]

/-- Each call gives the next record. -/
theorem IsOrderly.call_eq (he : e.IsOrderly) (k : Nat) : e.call k = e.records[k]? := by
  obtain ⟨horderly, hrecords⟩ := he.records_take k
  rw [call, (next_eq horderly).1, hrecords, List.head?_drop]

/-- A record that is given is one less to give. -/
theorem remaining_next {m : Nat} (h : e.remaining = some m) :
    ∃ m', e.next.2.remaining = some m' ∧ m' + [e.next.1].countP Option.isSome = m := by
  rw [next_def]
  split_ifs with hzero
  · exact ⟨m, h, rfl⟩
  · cases e.prime.assembly.pending with
    | nil => exact ⟨m, (prime_remaining e).trans h, rfl⟩
    | cons r pending =>
      have hpos : m ≠ 0 := by
        rintro rfl
        exact hzero h
      refine ⟨m - 1, ?_, ?_⟩
      · show e.prime.remaining.map (· - 1) = some (m - 1)
        rw [prime_remaining, h]
        rfl
      · show m - 1 + 1 = m
        omega

/-- What is left of the limit and the records given add up to the limit. -/
theorem remaining_take {n : Nat} (h : e.remaining = some n) (k : Nat) :
    ∃ m, (e.take k).2.remaining = some m ∧ m + (e.take k).1.countP Option.isSome = n := by
  induction k with
  | zero => exact ⟨n, h, rfl⟩
  | succ k ih =>
    obtain ⟨m, hm, hcount⟩ := ih
    obtain ⟨m', hm', hnext⟩ := remaining_next hm
    rw [take_succ]
    refine ⟨m', hm', ?_⟩
    rw [List.countP_append, ← hcount, ← hnext]
    show m' + (_ + [e.call k].countP Option.isSome) = m' + [e.call k].countP Option.isSome + _
    omega

/-! ### What an extraction delivers -/

/-- What becomes of an extraction that is asked for one record after the other. -/
structure Delivers (e : Extraction) (records : List Record) : Prop where
  /-- The calls give the records in order, and then nothing. -/
  call_eq : ∀ k, e.call k = records[k]?
  /-- Some call gives nothing. -/
  exists_none : ∃ k, e.call k = none
  /-- A call that gives nothing is followed by such calls only. -/
  none_of_le : ∀ j k, j ≤ k → e.call j = none → e.call k = none
  /-- One call at most ends the scan. -/
  endsAt_unique : ∀ j k, e.EndsAt j → e.EndsAt k → j = k
  /-- Once the scan has been ended nothing is open, and calls only hand out what is pending. -/
  handsOut : ∀ j k, j ≤ k → (e.take j).2.finished = true →
    (e.take j).2.assembly.current = none ∧ (e.take j).2.HandsOut (e.take k).2

theorem delivers (he : e.IsOrderly) (hclosed : e.IsClosed) : e.Delivers e.records := by
  have hhands : ∀ j k, j ≤ k → (e.take j).2.finished = true →
      (e.take j).2.HandsOut (e.take k).2 := by
    intro j k hjk hfinished
    obtain ⟨d, rfl⟩ := Nat.exists_eq_add_of_le hjk
    rw [take_add]
    exact handsOut_take hfinished d
  -- Of two calls that end the scan the later one would find it ended.
  have hle : ∀ j k, e.EndsAt j → e.EndsAt k → k ≤ j := by
    intro j k hj hk
    by_contra hlt
    have hended := (hhands (j + 1) k (by omega) hj.2).finished
    rw [hj.2, hk.1] at hended
    cases hended
  refine ⟨he.call_eq, ⟨e.records.length, ?_⟩, ?_, ?_, ?_⟩
  · rw [he.call_eq]
    exact List.getElem?_eq_none le_rfl
  · intro j k hjk hj
    rw [he.call_eq, List.getElem?_eq_none_iff] at hj ⊢
    exact hj.trans hjk
  · intro j k hj hk
    exact le_antisymm (hle k j hk hj) (hle j k hj hk)
  · intro j k hjk hfinished
    have hopen : (e.take j).2.IsClosed :=
      take_induction (motive := IsClosed) (fun _ h => h.next) hclosed j
    exact ⟨hopen hfinished, hhands j k hjk hfinished⟩

theorem delivers_start (p : Prepared) (limit : Option Nat) :
    (start p limit).Delivers (start p limit).records := by
  have hclosed : (start p limit).IsClosed := by
    intro h
    cases h
  exact delivers (isOrderly_start p limit) hclosed

end Extraction

/-! ### Schemas -/

namespace Schema

/-- The schema with another limit on the number of records. -/
def withLimit (schema : Schema) (limit : Option Nat) : Schema :=
  { schema with options := { schema.options with recordLimit := limit } }

/-- The limit has no part in making a schema ready. -/
theorem prepare_withLimit (schema : Schema) (limit : Option Nat) (g : Grid) :
    (schema.withLimit limit).prepare g = schema.prepare g := rfl

theorem extract_withLimit {schema : Schema} {g : Grid} {p : Prepared}
    (h : schema.prepare g = .ok p) (limit : Option Nat) :
    (schema.withLimit limit).extract g = .ok (.start p limit) :=
  extract_eq_ok_iff.mpr ⟨p, (prepare_withLimit schema limit g).trans h, rfl⟩

/-- **A limit keeps the first records.**  If a schema can be extracted from a workbook under any
limit, then it can be without one and under any other.  The extraction without a limit delivers some
records, and that under a limit of `n` the first `n` of them; what is left of the limit never falls
short of the records that are still to give. -/
theorem extract_limit {schema : Schema} {w : Workbook} {e₀ : Extraction}
    (h : schema.extract w = .ok e₀) (n : Nat) :
    ∃ e e' records, (schema.withLimit none).extract w = .ok e ∧
      (schema.withLimit (some n)).extract w = .ok e' ∧
      e.Delivers records ∧ e'.Delivers (records.take n) ∧
      ∀ k, ∃ m, (e'.take k).2.remaining = some m ∧ m + (e'.take k).1.countP Option.isSome = n := by
  obtain ⟨p, hprepare, -⟩ := extract_eq_ok_iff.mp h
  have hrecords : (Extraction.start p (some n)).records =
      (Extraction.start p none).records.take n := rfl
  refine ⟨.start p none, .start p (some n), (Extraction.start p none).records,
    extract_withLimit hprepare none, extract_withLimit hprepare (some n),
    Extraction.delivers_start p none, ?_, ?_⟩
  · rw [← hrecords]
    exact Extraction.delivers_start p (some n)
  · intro k
    exact Extraction.remaining_take rfl k

/-- Without a limit the column has a second record, and with a limit of one it has not. -/
theorem extract_limit_columnTable :
    columnSchema.extract columnTable = .ok (.start columnPrepared none) ∧
      ∃ e e' records, (columnSchema.withLimit none).extract columnTable = .ok e ∧
        (columnSchema.withLimit (some 1)).extract columnTable = .ok e' ∧
        e.Delivers records ∧ e'.Delivers (records.take 1) ∧
        (e.call 1).isSome = true ∧ e'.call 1 = none := by
  have hextract : columnSchema.extract columnTable = .ok (.start columnPrepared none) := rfl
  obtain ⟨e, e', records, he, he', hall, hfirst, -⟩ := extract_limit hextract 1
  refine ⟨hextract, e, e', records, he, he', hall, hfirst, ?_, ?_⟩
  · obtain rfl : .start columnPrepared none = e := Except.ok.inj (hextract.symm.trans he)
    rw [(Extraction.delivers_start columnPrepared none).call_eq]
    decide +kernel
  · rw [hfirst.call_eq]
    simp

end Schema

end SheetRecords
