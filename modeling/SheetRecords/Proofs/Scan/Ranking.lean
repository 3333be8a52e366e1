import Mathlib.Algebra.Group.Nat.Defs
import Mathlib.Data.List.Induction
import Std.Data.HashMap.Lemmas
import SheetRecords.Proofs.Scan.Order

/-!
# A scan ranks its sheets faithfully

An order keeps each name at its first occurrence (`SheetOrder.dropRepeats_eq_firstOccurrences`),
the rank of a sheet is its place there, and coordinates are compared by rank, row and column, with
the sheets out of reach behind all others (`SheetOrder.ofNames_ranks`).  A `Ranking` finds the ranks
name by name, with a table beside the list of sheets and in words of 32 bits.  List and table follow
the order of the names so far (`Ranking.Follows.add`), and as long as no place has the word of the
sheets out of reach, all answers are those of the order (`Ranking.Follows.agrees`).
-/

namespace SheetRecords

open Cell

namespace SheetOrder

/-! ### First occurrences -/

/-- The members of a list that are not among those before them, in order. -/
def firstOccurrences (names : List String) : List String :=
  (names.zipIdx.filter fun x => x.1 ∉ names.take x.2).map Prod.fst

theorem dropRepeats_append_singleton (names : List String) (name : String) :
    dropRepeats (names ++ [name]) =
      if name ∈ names then dropRepeats names else dropRepeats names ++ [name] := by
  induction names with
  | nil => rfl
  | cons first rest ih =>
    rw [List.cons_append, dropRepeats, ih, dropRepeats]
    by_cases hrest : name ∈ rest
    · rw [if_pos hrest, if_pos (List.mem_cons_of_mem _ hrest)]
    · rw [if_neg hrest, List.filter_append]
      by_cases hfirst : name = first
      · simp [hfirst]
      · simp [hfirst, hrest]

theorem firstOccurrences_append_singleton (names : List String) (name : String) :
    firstOccurrences (names ++ [name]) =
      if name ∈ names then firstOccurrences names else firstOccurrences names ++ [name] := by
  -- What stands before a name does not change by what is put behind it.
  have hbefore : ∀ x ∈ names.zipIdx,
      decide (x.1 ∉ (names ++ [name]).take x.2) = decide (x.1 ∉ names.take x.2) := by
    intro x hx
    obtain ⟨hlt, -⟩ := List.getElem?_eq_some_iff.mp (List.mem_zipIdx_iff_getElem?.mp hx)
    rw [List.take_append_of_le_length hlt.le]
  unfold firstOccurrences
  rw [List.zipIdx_append, List.filter_append, List.filter_congr hbefore, List.map_append]
  split
  · next hname => simp [hname]
  · next hname => simp [hname]

theorem dropRepeats_eq_firstOccurrences (names : List String) :
    dropRepeats names = firstOccurrences names := by
  induction names using List.reverseRecOn with
  | nil => rfl
  | append_singleton names name ih =>
    rw [dropRepeats_append_singleton, firstOccurrences_append_singleton, ih]

theorem size_ofNames_le (names : List String) : (ofNames names).size ≤ names.length := by
  show (dropRepeats names).length ≤ names.length
  rw [dropRepeats_eq_firstOccurrences, firstOccurrences, List.length_map]
  exact (List.length_filter_le _ _).trans (List.length_zipIdx ..).le

/-! ### Ranks and names -/

variable {o : SheetOrder} {name : String}

theorem rank_eq_unreachable_iff : o.rank name = .unreachable ↔ name ∉ o.names := by
  constructor
  · intro hrank hname
    obtain ⟨i, hi⟩ := List.mem_iff_getElem?.mp hname
    rw [rank_of_getElem? hi] at hrank
    cases hrank
  · intro hname
    have hfind : o.names.findIdx? (· = name) = none := by
      refine List.findIdx?_eq_none_iff.mpr fun other hother => ?_
      exact decide_eq_false (ne_of_mem_of_not_mem hother hname)
    rw [rank, hfind]

/-- Sheets within reach are those of the order. -/
theorem isReachable_rank_iff : (o.rank name).isReachable = true ↔ name ∈ o.names := by
  rw [← not_iff_not, ← rank_eq_unreachable_iff]
  cases o.rank name <;> simp [Rank.isReachable, Rank.index?]

theorem name?_rank (h : name ∈ o.names) : o.name? (o.rank name) = some name := by
  obtain ⟨i, hi⟩ := List.mem_iff_getElem?.mp h
  rw [rank_of_getElem? hi]
  exact hi

theorem lt_size_of_rank {i : Nat} (h : (o.rank name).index? = some i) : i < o.size := by
  by_cases hname : name ∈ o.names
  · obtain ⟨j, hj⟩ := List.mem_iff_getElem?.mp hname
    rw [rank_of_getElem? hj] at h
    obtain rfl : j = i := Option.some.inj h
    exact (List.getElem?_eq_some_iff.mp hj).1
  · rw [rank_eq_unreachable_iff.mpr hname] at h
    cases h

/-! ### One name more -/

theorem ofNames_append_of_mem {names : List String} (h : name ∈ names) :
    ofNames (names ++ [name]) = ofNames names := by
  simp only [ofNames, dropRepeats_append_singleton, if_pos h]

theorem names_ofNames_append {names : List String} (h : name ∉ names) :
    (ofNames (names ++ [name])).names = (ofNames names).names ++ [name] := by
  show dropRepeats (names ++ [name]) = dropRepeats names ++ [name]
  rw [dropRepeats_append_singleton, if_neg h]

/-- The last sheet of an order has the greatest place, and the others have the ranks that they have
without it. -/
theorem rank_of_append {o' : SheetOrder} (h : o'.names = o.names ++ [name]) (other : String) :
    o'.rank other = if other = name then .sheet o.names.length else o.rank other := by
  split
  · next hother =>
    refine rank_of_getElem? ?_
    rw [h, hother, List.getElem?_concat_length]
  · next hother =>
    have hlast : [name].findIdx? (· = other) = none := by simp [Ne.symm hother]
    rw [rank, rank, h, List.findIdx?_append, hlast]
    simp

/-! ### Comparing coordinates -/

/-- Coordinates are compared as their positions are. -/
theorem transCmp_compare (o : SheetOrder) : Std.TransCmp o.compare :=
  inferInstanceAs (Std.TransCmp (compareOn o.position))

/-- No two coordinates on sheets of the order are at the same position. -/
theorem compare_eq_eq_iff {a b : Coordinate} (ha : a.sheet ∈ o.names) :
    o.compare a b = .eq ↔ a = b := by
  rw [compare, Std.LawfulEqOrd.compare_eq_iff_eq]
  constructor
  · intro h
    obtain ⟨hrank, haddress⟩ := Position.mk.inj h
    have hb : b.sheet ∈ o.names := by
      by_contra hb
      rw [rank_eq_unreachable_iff.mpr hb, rank_eq_unreachable_iff] at hrank
      exact hrank ha
    have hnames : some a.sheet = some b.sheet := by
      rw [← name?_rank ha, ← name?_rank hb, hrank]
    exact congrArg₂ Coordinate.mk (Option.some.inj hnames) haddress
  · rintro rfl
    rfl

/-- What is out of reach comes behind the sheets of the order. -/
theorem compare_eq_lt_of_not_mem {a b : Coordinate} (ha : a.sheet ∈ o.names)
    (hb : b.sheet ∉ o.names) : o.compare a b = .lt := by
  obtain ⟨i, hi⟩ := List.mem_iff_getElem?.mp ha
  rw [compare, compare_lt_iff_lt, Position.lt_iff]
  left
  show o.rank a.sheet < o.rank b.sheet
  rw [rank_of_getElem? hi, rank_eq_unreachable_iff.mpr hb]
  exact Rank.sheet_lt_unreachable i

end SheetOrder

/-! ### Ranks in words -/

namespace Rank

/-- The word of 32 bits for a rank: the place of the sheet, or the greatest word. -/
def word : Rank → UInt32
  | .sheet i => .ofNat i
  | .unreachable => 4294967295

/-- The place of the sheet, if it has one, is less than the greatest word. -/
def HasWord (r : Rank) : Prop :=
  ∀ i ∈ r.index?, i < 2 ^ 32 - 1

variable {r r' : Rank}

theorem toNat_word (h : r.HasWord) : r.word.toNat = r.index?.getD (2 ^ 32 - 1) := by
  cases r with
  | sheet i =>
    have hi : i < 2 ^ 32 - 1 := h i rfl
    exact UInt32.toNat_ofNat_of_lt' (lt_trans hi (by decide))
  | unreachable => rfl

theorem word_ne_unreachable {i : Nat} (h : (sheet i).HasWord) :
    (sheet i).word ≠ unreachable.word := by
  intro heq
  have hword : unreachable.word.toNat = i := by rw [← heq, toNat_word h]; rfl
  exact absurd hword (ne_of_gt (h i rfl))

/-- Ranks are compared as their words are. -/
theorem compare_word (h : r.HasWord) (h' : r'.HasWord) :
    compare r.word r'.word = compare r r' := by
  have hnumbers : compare r.word r'.word = compare r.word.toNat r'.word.toNat := by
    show compareOfLessAndEq r.word r'.word = compareOfLessAndEq r.word.toNat r'.word.toNat
    simp only [compareOfLessAndEq, UInt32.lt_iff_toNat_lt, UInt32.toNat_inj]
  rw [hnumbers, toNat_word h, toNat_word h', compare_def]
  cases r with
  | sheet i =>
    cases r' with
    | sheet j => rfl
    | unreachable => exact Nat.compare_eq_lt.mpr (h i rfl)
  | unreachable =>
    cases r' with
    | sheet j => exact Nat.compare_eq_gt.mpr (h' j rfl)
    | unreachable => rfl

end Rank

/-- Sheets that are ranked one after the other. -/
structure Ranking where
  names : List String
  /-- The ranks of the names in words of 32 bits. -/
  table : Std.HashMap String UInt32

namespace Ranking

/-- Ranks one more sheet behind the others, unless it has a rank. -/
def add (r : Ranking) (name : String) : Ranking :=
  if r.table.contains name then r
  else ⟨r.names ++ [name], r.table.insert name (.ofNat r.names.length)⟩

def ofNames (names : List String) : Ranking :=
  names.foldl add ⟨[], ∅⟩

def rank (r : Ranking) (name : String) : UInt32 :=
  r.table.getD name Rank.unreachable.word

def name? (r : Ranking) (w : UInt32) : Option String :=
  if w = Rank.unreachable.word then none else r.names[w.toNat]?

def compare (r : Ranking) (a b : Coordinate) : Ordering :=
  (Ord.compare (r.rank a.sheet) (r.rank b.sheet)).then (Ord.compare a.address b.address)

/-- The list and the table are those of an order. -/
structure Follows (r : Ranking) (o : SheetOrder) : Prop where
  names_eq : r.names = o.names
  getElem?_table : ∀ name, r.table[name]? = (o.rank name).index?.map .ofNat

/-- All answers are those of an order. -/
structure Agrees (r : Ranking) (o : SheetOrder) : Prop where
  names_eq : r.names = o.names
  rank_eq : ∀ name, r.rank name = (o.rank name).word
  name?_eq : ∀ name, r.name? (r.rank name) = o.name? (o.rank name)
  compare_eq : ∀ a b, r.compare a b = o.compare a b

variable {r : Ranking} {o : SheetOrder} {names : List String}

/-- One more name is ranked as in the order of the names with it. -/
theorem Follows.add (h : r.Follows (.ofNames names)) (name : String) :
    (r.add name).Follows (.ofNames (names ++ [name])) := by
  have hcontains : r.table.contains name = true ↔ name ∈ names := by
    rw [Std.HashMap.contains_eq_isSome_getElem?, h.getElem?_table, Option.isSome_map,
      ← SheetOrder.mem_dropRepeats]
    exact SheetOrder.isReachable_rank_iff
  unfold Ranking.add
  by_cases hname : name ∈ names
  · -- A name that has a rank is passed over, as it is in the order.
    rw [if_pos (hcontains.mpr hname), SheetOrder.ofNames_append_of_mem hname]
    exact h
  · -- A new name has the place behind all others, whose places stay.
    rw [if_neg (mt hcontains.mp hname)]
    have hnames := SheetOrder.names_ofNames_append hname
    refine ⟨by rw [hnames, h.names_eq], fun other => ?_⟩
    rw [Std.HashMap.getElem?_insert, SheetOrder.rank_of_append hnames, h.names_eq,
      h.getElem?_table]
    by_cases hother : other = name
    · simp [hother, Rank.index?]
    · rw [if_neg hother, if_neg (by simpa using Ne.symm hother)]

/-- The names are ranked as in their order. -/
theorem follows_ofNames (names : List String) : (ofNames names).Follows (.ofNames names) := by
  induction names using List.reverseRecOn with
  | nil => exact ⟨rfl, fun _ => Std.HashMap.getElem?_empty⟩
  | append_singleton names name ih =>
    have hstep : ofNames (names ++ [name]) = (ofNames names).add name := by
      rw [ofNames, List.foldl_append]
      rfl
    rw [hstep]
    exact ih.add name

theorem Follows.rank_eq (h : r.Follows o) (name : String) : r.rank name = (o.rank name).word := by
  rw [rank, Std.HashMap.getD_eq_getD_getElem?, h.getElem?_table]
  cases o.rank name <;> rfl

/-- As long as all places have words, the answers are those of the order. -/
theorem Follows.agrees (h : r.Follows o) (hwords : ∀ name, (o.rank name).HasWord) :
    r.Agrees o where
  names_eq := h.names_eq
  rank_eq := h.rank_eq
  name?_eq name := by
    have hword := hwords name
    rw [h.rank_eq, name?, h.names_eq]
    generalize o.rank name = k at hword ⊢
    cases k with
    | sheet i =>
      rw [if_neg (Rank.word_ne_unreachable hword), Rank.toNat_word hword]
      rfl
    | unreachable => rfl
  compare_eq a b := by
    rw [compare, h.rank_eq, h.rank_eq, Rank.compare_word (hwords _) (hwords _)]
    rfl

end Ranking

namespace SheetOrder

/-! ### Orders of names -/

/-- **Orders of names.**  The order of fewer than `2 ^ 32 - 1` names has each of them just at its
first occurrence.  The rank of a sheet is its place there, a sheet is out of reach just if it is not
named, and at the rank of a named sheet stands its name.  Coordinates are compared in a total
preorder: one on a named sheet is equal to no other one, and comes before all that are not on a
named sheet.  Ranking the names one by one, with a table and in words, gives all the same
answers. -/
theorem ofNames_ranks {names : List String} (hsize : names.length < 2 ^ 32 - 1) :
    let o := ofNames names
    o.names = firstOccurrences names ∧
      (∀ i name, o.names[i]? = some name → o.rank name = .sheet i) ∧
      (∀ name, o.rank name = .unreachable ↔ name ∉ names) ∧
      (∀ name ∈ names, o.name? (o.rank name) = some name) ∧
      Std.TransCmp o.compare ∧
      (∀ a b, a.sheet ∈ names → b.sheet ∈ names → (o.compare a b = .eq ↔ a = b)) ∧
      (∀ a b, a.sheet ∈ names → b.sheet ∉ names → o.compare a b = .lt) ∧
      (Ranking.ofNames names).Agrees o := by
  intro o
  have hmem : ∀ name, name ∈ o.names ↔ name ∈ names := fun name => mem_dropRepeats
  have hwords : ∀ name, (o.rank name).HasWord := by
    intro name i hi
    have hlt : i < o.size := lt_size_of_rank hi
    have hle : o.size ≤ names.length := size_ofNames_le names
    omega
  simp only [← hmem]
  exact ⟨dropRepeats_eq_firstOccurrences names, fun i name => rank_of_getElem?,
    fun name => rank_eq_unreachable_iff, fun name => name?_rank, transCmp_compare o,
    fun a b ha _ => compare_eq_eq_iff ha, fun a b => compare_eq_lt_of_not_mem,
    (Ranking.follows_ofNames names).agrees hwords⟩

/-- Two sheets against the order of the alphabet, the first one named again at the end. -/
def reportNames : List String := ["Zeta", "Alpha", "Zeta"]

theorem ofNames_ranks_reportNames :
    let o := ofNames reportNames
    reportNames.length < 2 ^ 32 - 1 ∧ o.names = ["Zeta", "Alpha"] ∧
      o.rank "Alpha" = .sheet 1 ∧ o.rank "Other" = .unreachable ∧
      o.name? (o.rank "Zeta") = some "Zeta" ∧
      o.compare ⟨"Zeta", ⟨1, 9⟩⟩ ⟨"Alpha", ⟨1, 9⟩⟩ ≠ .eq ∧
      o.compare ⟨"Alpha", ⟨0, 0⟩⟩ ⟨"Other", ⟨0, 0⟩⟩ = .lt ∧
      (Ranking.ofNames reportNames).rank "Alpha" = 1 := by
  intro o
  have hsize : reportNames.length < 2 ^ 32 - 1 := by decide
  obtain ⟨hnames, hrank, hunreachable, hname, -, heq, hlt, hagrees⟩ := ofNames_ranks hsize
  have hsheets : o.names = ["Zeta", "Alpha"] := hnames.trans (by decide)
  have hplace : o.rank "Alpha" = .sheet 1 := hrank 1 "Alpha" (by rw [hsheets]; rfl)
  have hzeta : "Zeta" ∈ reportNames := by decide
  have halpha : "Alpha" ∈ reportNames := by decide
  have hother : "Other" ∉ reportNames := by decide
  refine ⟨hsize, hsheets, hplace, (hunreachable "Other").mpr hother, hname "Zeta" hzeta, ?_,
    hlt _ _ halpha hother, ?_⟩
  · rw [ne_eq, heq _ _ hzeta halpha]
    decide
  · rw [hagrees.rank_eq, hplace]
    rfl

end SheetOrder

end SheetRecords
