import SheetRecords.Proofs.Scan.Order
import SheetRecords.Scan.Plan

/-!
# Lists of entries come in scan order

The entries of a planned list lie in strictly increasing positions (`canonicalEntries_sorted`).  Of
several entries for a position the one listed first is kept (`mem_canonicalEntries_iff`), and this
settles the entries (`EntriesSorted.ext`).
-/

namespace SheetRecords

open Cell

/-- Entries in strictly increasing positions. -/
def EntriesSorted (entries : List Entry) : Prop :=
  entries.Pairwise fun a b => a.position < b.position

/-- A plan whose entries, if it is a list, lie in strictly increasing positions. -/
def Plan.IsSorted : Plan → Prop
  | .list entries => EntriesSorted entries.toList
  | _ => True

theorem Plan.IsSorted.entries {plan : Plan} (h : plan.IsSorted) {entries : Array Entry}
    (hplan : plan = .list entries) : EntriesSorted entries.toList := by
  rwa [hplan] at h

/-- The fold keeps its entries in strictly decreasing positions, none of them after an entry that
is still to come. -/
theorem foldl_keepFirst_sorted (entries kept : List Entry)
    (hsorted : entries.Pairwise fun a b => a.position ≤ b.position)
    (hkept : kept.Pairwise fun a b => b.position < a.position)
    (hbefore : ∀ k ∈ kept, ∀ e ∈ entries, k.position ≤ e.position) :
    (entries.foldl keepFirst kept).Pairwise fun a b => b.position < a.position := by
  induction entries generalizing kept with
  | nil => exact hkept
  | cons e rest ih =>
    rw [List.pairwise_cons] at hsorted
    have hrest : ∀ k ∈ kept, ∀ e' ∈ rest, k.position ≤ e'.position := fun k hk e' he' =>
      hbefore k hk e' (List.mem_cons_of_mem _ he')
    rw [List.foldl_cons]
    cases kept with
    | nil =>
      refine ih _ hsorted.2 (List.pairwise_singleton _ _) ?_
      intro k hk e' he'
      rw [List.mem_singleton.mp hk]
      exact hsorted.1 e' he'
    | cons f kept =>
      -- Another entry at the position of the last one kept is left out.
      by_cases heq : f.position = e.position
      · rw [keepFirst, if_pos heq]
        exact ih _ hsorted.2 hkept hrest
      · rw [keepFirst, if_neg heq]
        have hlt : f.position < e.position :=
          lt_of_le_of_ne (hbefore f (List.mem_cons_self ..) e (List.mem_cons_self ..)) heq
        refine ih _ hsorted.2 (List.pairwise_cons.mpr ⟨?_, hkept⟩) ?_
        · intro k hk
          rcases List.mem_cons.mp hk with rfl | hk
          · exact hlt
          · exact ((List.pairwise_cons.mp hkept).1 k hk).trans hlt
        · intro k hk e' he'
          rcases List.mem_cons.mp hk with rfl | hk
          · exact hsorted.1 e' he'
          · exact hrest k hk e' he'

/-- The order that entries are sorted by. -/
def entryLE (a b : Entry) : Bool :=
  (compare a.position b.position).isLE

theorem entryLE_iff {a b : Entry} : entryLE a b = true ↔ a.position ≤ b.position :=
  Std.isLE_compare

theorem entryLE_trans (a b c : Entry) (hab : entryLE a b = true) (hbc : entryLE b c = true) :
    entryLE a c = true :=
  Std.TransCmp.isLE_trans hab hbc

theorem entryLE_total (a b : Entry) : (entryLE a b || entryLE b a) = true := by
  rw [Bool.or_eq_true, entryLE_iff, entryLE_iff]
  exact le_total _ _

theorem pairwise_mergeSort_entries (entries : List Entry) :
    (entries.mergeSort entryLE).Pairwise fun a b => a.position ≤ b.position :=
  (List.pairwise_mergeSort entryLE_trans entryLE_total entries).imp entryLE_iff.mp

/-- Canonical entries lie in strictly increasing positions. -/
theorem canonicalEntries_sorted (entries : List Entry) :
    EntriesSorted (canonicalEntries entries) := by
  have hsorted := pairwise_mergeSort_entries entries
  exact List.pairwise_reverse.mpr
    (foldl_keepFirst_sorted _ [] hsorted List.Pairwise.nil fun k hk => absurd hk List.not_mem_nil)

/-! ### Which entries are kept -/

/-- The fold keeps, besides what it has, the first entry for every other position. -/
theorem mem_foldl_keepFirst_iff {entries kept : List Entry}
    (hsorted : entries.Pairwise fun a b => a.position ≤ b.position)
    (hkept : kept.Pairwise fun a b => b.position < a.position)
    (hbefore : ∀ k ∈ kept, ∀ e ∈ entries, k.position ≤ e.position) {e : Entry} :
    e ∈ entries.foldl keepFirst kept ↔
      e ∈ kept ∨ entries.find? (·.position = e.position) = some e ∧
        ∀ k ∈ kept, k.position ≠ e.position := by
  induction entries generalizing kept with
  | nil => simp
  | cons x rest ih =>
    rw [List.pairwise_cons] at hsorted
    have hrest : ∀ k ∈ kept, ∀ e' ∈ rest, k.position ≤ e'.position := fun k hk e' he' =>
      hbefore k hk e' (List.mem_cons_of_mem _ he')
    rw [List.foldl_cons]
    by_cases hsame : ∃ k ∈ kept, k.position = x.position
    · -- An entry for the position is there already, and is the last one kept.
      obtain ⟨k, hk, hkx⟩ := hsame
      obtain ⟨f, kept, rfl⟩ := List.exists_cons_of_ne_nil (List.ne_nil_of_mem hk)
      have hf : f.position = x.position := by
        refine le_antisymm (hbefore f (List.mem_cons_self ..) x (List.mem_cons_self ..)) ?_
        rw [← hkx]
        rcases List.mem_cons.mp hk with rfl | hk
        · exact le_rfl
        · exact ((List.pairwise_cons.mp hkept).1 k hk).le
      rw [keepFirst, if_pos hf, ih hsorted.2 hkept hrest]
      refine or_congr_right (and_congr_left fun hne => ?_)
      have hx : x.position ≠ e.position := hf ▸ hne f (List.mem_cons_self ..)
      rw [List.find?_cons_of_neg (by simpa using hx)]
    · have hnew : ∀ k ∈ kept, k.position ≠ x.position := fun k hk heq => hsame ⟨k, hk, heq⟩
      have hlt : ∀ k ∈ kept, k.position < x.position := fun k hk =>
        lt_of_le_of_ne (hbefore k hk x (List.mem_cons_self ..)) (hnew k hk)
      have hstep : keepFirst kept x = x :: kept := by
        cases kept with
        | nil => rfl
        | cons f kept => rw [keepFirst, if_neg (hnew f (List.mem_cons_self ..))]
      rw [hstep, ih hsorted.2 (List.pairwise_cons.mpr ⟨hlt, hkept⟩)]
      · by_cases hx : x.position = e.position
        · rw [List.find?_cons_of_pos (by simpa using hx)]
          constructor
          · rintro (he | ⟨-, hne⟩)
            · rcases List.mem_cons.mp he with rfl | he
              · exact .inr ⟨rfl, hnew⟩
              · exact .inl he
            · exact absurd hx (hne x (List.mem_cons_self ..))
          · rintro (he | ⟨heq, -⟩)
            · exact .inl (List.mem_cons_of_mem _ he)
            · rw [Option.some.inj heq]
              exact .inl (List.mem_cons_self ..)
        · rw [List.find?_cons_of_neg (by simpa using hx)]
          have hne : e ≠ x := fun heq => hx (heq ▸ rfl)
          simp only [List.mem_cons, hne, false_or, forall_eq_or_imp]
          exact or_congr_right (and_congr_right fun _ => ⟨fun h => h.2, fun h => ⟨hx, h⟩⟩)
      · intro k hk e' he'
        rcases List.mem_cons.mp hk with rfl | hk
        · exact hsorted.1 e' he'
        · exact hrest k hk e' he'

/-- Sorting keeps the entries for a position in the order in which they are listed. -/
theorem filter_mergeSort_position (entries : List Entry) (p : Position) :
    (entries.mergeSort entryLE).filter (·.position = p) = entries.filter (·.position = p) := by
  have hpairwise : (entries.filter (·.position = p)).Pairwise (entryLE · ·) := by
    refine List.pairwise_of_forall_mem_list fun a ha b hb => ?_
    have ha : a.position = p := by simpa using (List.mem_filter.mp ha).2
    have hb : b.position = p := by simpa using (List.mem_filter.mp hb).2
    rw [entryLE_iff, ha, hb]
  have hsublist := List.sublist_mergeSort entryLE_trans entryLE_total hpairwise
    List.filter_sublist
  have hfilter := hsublist.filter (·.position = p)
  rw [List.filter_filter] at hfilter
  simp only [Bool.and_self] at hfilter
  have hlength : (entries.filter (·.position = p)).length =
      ((entries.mergeSort entryLE).filter (·.position = p)).length :=
    ((List.mergeSort_perm entries entryLE).filter _).length_eq.symm
  exact (hfilter.eq_of_length hlength).symm

/-- **What is kept.**  Of the entries for a position the one listed first is kept. -/
theorem mem_canonicalEntries_iff {entries : List Entry} {e : Entry} :
    e ∈ canonicalEntries entries ↔ entries.find? (·.position = e.position) = some e := by
  have hkept := mem_foldl_keepFirst_iff (pairwise_mergeSort_entries entries) List.Pairwise.nil
    (fun k hk => absurd hk List.not_mem_nil) (e := e)
  rw [canonicalEntries, List.mem_reverse]
  refine hkept.trans ?_
  rw [← List.head?_filter, ← List.head?_filter, filter_mergeSort_position]
  simp

/-- For every position that is listed an entry is kept. -/
theorem exists_mem_canonicalEntries {entries : List Entry} {e : Entry} (he : e ∈ entries) :
    ∃ e' ∈ canonicalEntries entries, e'.position = e.position := by
  obtain ⟨e', hfind⟩ : ∃ e', entries.find? (·.position = e.position) = some e' :=
    Option.isSome_iff_exists.mp (List.find?_isSome.mpr ⟨e, he, decide_eq_true rfl⟩)
  have hposition : e'.position = e.position := by simpa using List.find?_some hfind
  refine ⟨e', mem_canonicalEntries_iff.mpr ?_, hposition⟩
  rw [hposition]
  exact hfind

theorem EntriesSorted.nodup {entries : List Entry} (h : EntriesSorted entries) :
    entries.Nodup := by
  refine h.imp ?_
  rintro a _ hlt rfl
  exact lt_irrefl _ hlt

/-- Entries that lie in strictly increasing positions are settled by their members. -/
theorem EntriesSorted.ext {entries entries' : List Entry} (h : EntriesSorted entries)
    (h' : EntriesSorted entries') (hmem : ∀ e, e ∈ entries ↔ e ∈ entries') :
    entries = entries' := by
  have hperm := (List.perm_ext_iff_of_nodup h.nodup h'.nodup).mpr hmem
  exact hperm.eq_of_pairwise (fun _ _ _ _ hab hba => absurd hab (lt_asymm hba)) h h'

/-- Leaving out positions beforehand or afterwards is the same. -/
theorem canonicalEntries_filter (entries : List Entry) (keep : Position → Bool) :
    canonicalEntries (entries.filter fun e => keep e.position) =
      (canonicalEntries entries).filter fun e => keep e.position := by
  refine (canonicalEntries_sorted _).ext ((canonicalEntries_sorted _).filter _) fun e => ?_
  rw [List.mem_filter, mem_canonicalEntries_iff, mem_canonicalEntries_iff, List.find?_filter]
  cases hkeep : keep e.position with
  | true =>
    have hsame : (fun x : Entry => decide (keep x.position = true ∧
        decide (x.position = e.position) = true)) = fun x => decide (x.position = e.position) := by
      funext x
      by_cases hx : x.position = e.position
      · simp [hx, hkeep]
      · simp [hx]
    rw [hsame]
    simp
  | false =>
    have hnone : (entries.find? fun x => decide (keep x.position = true ∧
        decide (x.position = e.position) = true)) = none := by
      refine List.find?_eq_none.mpr fun x _ hx => ?_
      simp only [decide_eq_true_eq] at hx
      rw [hx.2, hkeep] at hx
      cases hx.1
    rw [hnone]
    simp

end SheetRecords
