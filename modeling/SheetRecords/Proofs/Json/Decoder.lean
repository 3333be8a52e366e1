import Mathlib.Data.List.Nodup
import SheetRecords.Json.Decoder
import SheetRecords.Proofs.Except
import SheetRecords.Proofs.Json.Tree

/-!
# What decoders take out of documents

A record is decoded from an object whose members are for some of its fields (`Decoder.Sets`): it is
what setting these one after the other makes of it (`Decoder.record_object`).  Whatever tree a record
is decoded from, it has the properties of the record without any field that setting a field keeps
(`Decoder.record_invariant`).
-/

namespace SheetRecords.Json.Decoder

variable {α : Type}

/-! ### Records read back -/

/-- The members are for fields of the given names, in their order and each at most once, and to set
them one after the other makes `b` of `a`. -/
structure Sets (set : String → Tree → α → Except DecodeError α) (names : List String)
    (ms : List (String × Tree)) (a b : α) : Prop where
  names_sublist : (ms.map (·.1)).Sublist names
  foldlM_eq : ms.foldlM (fun a m => set m.1 m.2 a) a = .ok b

namespace Sets

variable {set : String → Tree → α → Except DecodeError α} {names names' : List String}
  {ms ms' : List (String × Tree)} {name : String} {t : Tree} {a b c : α}

theorem absent (name : String) (a : α) : Sets set [name] [] a a where
  names_sublist := List.nil_sublist _
  foldlM_eq := rfl

theorem single (h : set name t a = .ok b) : Sets set [name] [(name, t)] a b where
  names_sublist := List.Sublist.refl _
  foldlM_eq := by
    rw [List.foldlM_cons, h]
    rfl

theorem append (h : Sets set names ms a b) (h' : Sets set names' ms' b c) :
    Sets set (names ++ names') (ms ++ ms') a c where
  names_sublist := by
    rw [List.map_append]
    exact h.names_sublist.append h'.names_sublist
  foldlM_eq := by
    rw [List.foldlM_append, h.foldlM_eq]
    exact h'.foldlM_eq

end Sets

theorem members_eq_ok {names : List String} {set : String → Tree → α → Except DecodeError α}
    {ms : List (String × Tree)} {met : List String} {a a' : α} (hnames : ∀ m ∈ ms, m.1 ∈ names)
    (hnodup : (ms.map (·.1)).Nodup) (hmet : ∀ m ∈ ms, m.1 ∉ met)
    (hset : ms.foldlM (fun a m => set m.1 m.2 a) a = .ok a') :
    members names set met a ms = .ok ((ms.map (·.1)).reverse ++ met, a') := by
  induction ms generalizing met a with
  | nil =>
    obtain rfl := Except.ok.inj hset
    rfl
  | cons m ms ih =>
    obtain ⟨name, t⟩ := m
    obtain ⟨hname, hnames⟩ := List.forall_mem_cons.mp hnames
    obtain ⟨hnew, hmet⟩ := List.forall_mem_cons.mp hmet
    obtain ⟨hother, hnodup⟩ := List.nodup_cons.mp hnodup
    obtain ⟨b, hb, hset⟩ := exists_of_bind_eq_ok hset
    have hmet' : ∀ m ∈ ms, m.1 ∉ name :: met := by
      intro m hm hmem
      obtain heq | hmem := List.mem_cons.mp hmem
      · exact hother (List.mem_map.mpr ⟨m, hm, heq⟩)
      · exact hmet m hm hmem
    have hb : set name t a = .ok b := hb
    rw [members, if_neg (by simpa using hname), if_neg (by simpa using hnew), hb]
    show members names set (name :: met) b ms = _
    rw [ih hnames hnodup hmet' hset, List.map_cons, List.reverse_cons, List.append_assoc,
      List.singleton_append]

/-- A record is decoded from an object that holds some of its fields in their order, and with them
those that must be there. -/
theorem record_object {type : String} {names : List String} {required : Nat} {initial a : α}
    {set : String → Tree → α → Except DecodeError α} {ms : List (String × Tree)}
    (h : Sets set names ms initial a) (hnodup : names.Nodup)
    (hrequired : ∀ name ∈ names.take required, name ∈ ms.map (·.1)) :
    record type names required initial set (.object ms none) = .ok a := by
  have hmem (m : String × Tree) (hm : m ∈ ms) : m.1 ∈ names :=
    h.names_sublist.subset (List.mem_map.mpr ⟨m, hm, rfl⟩)
  obtain ⟨met, hmembers, hmet⟩ : ∃ met, members names set [] initial ms = .ok (met, a) ∧
      ∀ name ∈ ms.map (·.1), name ∈ met :=
    ⟨_, members_eq_ok hmem (hnodup.sublist h.names_sublist) (by simp) h.foldlM_eq, by simp⟩
  have hfind : (names.take required).find? (!met.contains ·) = none := by
    rw [List.find?_eq_none]
    intro name hname
    simpa using hmet name (hrequired name hname)
  rw [record, hmembers]
  dsimp only [bind, Except.bind]
  rw [hfind]
  rfl

/-! ### Values read back -/

theorem natural_toTree {bits n : Nat} (h : n < 2 ^ bits) (type : String) :
    natural bits type (.number (.natural n)) = .ok n :=
  if_pos h

theorem optional_eq_ok {decode : Decoder α} {t : Tree} {a : α} (h : decode t = .ok a)
    (hnull : t ≠ .null) : optional decode t = .ok (some a) := by
  rw [optional.eq_2 _ _ hnull, h]
  rfl

theorem items_map {decode : Decoder α} {toTree : α → Tree} {as : List α}
    (h : ∀ a ∈ as, decode (toTree a) = .ok a) :
    items decode (.array (as.map toTree) none) = .ok as := by
  have hmap : (as.map toTree).mapM decode = .ok as := by
    rw [mapM_eq_ok_iff, List.forall₂_map_left_iff, List.forall₂_same]
    exact h
  rw [items, hmap]
  rfl

theorem reference_text {read : String → Except Cell.ReferenceError α} {s : String} {a : α}
    (h : read s = .ok a) : reference read (.text s) = .ok a := by
  show (read s).mapError DecodeError.reference = _
  exact mapError_eq_ok_iff.mpr h

/-! ### Whatever is decoded -/

theorem natural_lt {bits n : Nat} {type : String} {t : Tree} (h : natural bits type t = .ok n) :
    n < 2 ^ bits := by
  unfold natural at h
  split at h
  · split at h
    · next hlt =>
      obtain rfl := Except.ok.inj h
      exact hlt
    · cases h
  · cases h
  · cases h

theorem of_optional {decode : Decoder α} {t : Tree} {a : α}
    (h : optional decode t = .ok (some a)) : decode t = .ok a := by
  unfold optional at h
  split at h
  · cases h
  · obtain ⟨b, hb, heq⟩ := map_eq_ok_iff.mp h
    obtain rfl := Option.some.inj heq
    exact hb

theorem exists_of_items {decode : Decoder α} {t : Tree} {as : List α} (ht : t.IsSound)
    (h : items decode t = .ok as) {a : α} (ha : a ∈ as) : ∃ t', t'.IsSound ∧ decode t' = .ok a := by
  unfold items at h
  split at h
  · next items broken =>
    obtain ⟨values, hvalues, h⟩ := exists_of_bind_eq_ok h
    split at h
    · obtain rfl := Except.ok.inj h
      cases ht with
      | array _ hitems =>
        obtain ⟨t', ht', hdecode⟩ := exists_of_mem_forall₂ (mapM_eq_ok_iff.mp hvalues).flip ha
        exact ⟨t', hitems t' ht', hdecode⟩
    · cases h
  · cases h

theorem exists_of_reference {read : String → Except Cell.ReferenceError α} {t : Tree} {a : α}
    (h : reference read t = .ok a) : ∃ s, read s = .ok a := by
  obtain ⟨s, -, h⟩ := exists_of_bind_eq_ok h
  exact ⟨s, mapError_eq_ok_iff.mp h⟩

section Invariant

variable {P : α → Prop} {set : String → Tree → α → Except DecodeError α}
  (hset : ∀ name t a a', t.IsSound → P a → set name t a = .ok a' → P a')

include hset

theorem members_invariant {names met met' : List String} {a a' : α} {ms : List (String × Tree)}
    (hms : ∀ m ∈ ms, m.2.IsSound) (ha : P a) (h : members names set met a ms = .ok (met', a')) :
    P a' := by
  induction ms generalizing met a with
  | nil =>
    obtain ⟨rfl, rfl⟩ := Prod.mk.inj (Except.ok.inj h)
    exact ha
  | cons m ms ih =>
    obtain ⟨name, t⟩ := m
    obtain ⟨ht, hms⟩ := List.forall_mem_cons.mp hms
    rw [members] at h
    split at h
    · cases h
    · split at h
      · cases h
      · obtain ⟨b, hb, h⟩ := exists_of_bind_eq_ok h
        exact ih hms (hset name t a b ht ha hb) h

theorem positions_invariant {names : List String} {a a' : α} {ts rest : List Tree}
    (hts : ∀ t ∈ ts, t.IsSound) (ha : P a) (h : positions set names a ts = .ok (a', rest)) :
    P a' := by
  fun_induction positions set names a ts with
  | case1 name names a t ts ih =>
    obtain ⟨ht, hts⟩ := List.forall_mem_cons.mp hts
    obtain ⟨b, hb, h⟩ := exists_of_bind_eq_ok h
    exact ih b hts (hset name t a b ht ha hb) h
  | case2 =>
    obtain ⟨rfl, rfl⟩ := Prod.mk.inj (Except.ok.inj h)
    exact ha

/-- Whatever a record is decoded from, it has the properties of the record without any field that
setting a field keeps. -/
theorem record_invariant {type : String} {names : List String} {required : Nat} {initial a : α}
    {t : Tree} (hinitial : P initial) (ht : t.IsSound)
    (h : record type names required initial set t = .ok a) : P a := by
  unfold record at h
  split at h
  · next ms broken =>
    obtain ⟨⟨met, b⟩, hmembers, h⟩ := exists_of_bind_eq_ok h
    cases ht with
    | object _ hms =>
      have hb := members_invariant hset hms hinitial hmembers
      dsimp only at h
      split at h
      · cases h
      · cases h
      · obtain rfl := Except.ok.inj h
        exact hb
  · next ts broken =>
    obtain ⟨⟨b, rest⟩, hpositions, h⟩ := exists_of_bind_eq_ok h
    cases ht with
    | array _ hts =>
      have hb := positions_invariant hset hts hinitial hpositions
      dsimp only at h
      split at h
      · cases h
      · split at h
        · cases h
        · obtain rfl := Except.ok.inj h
          exact hb
  · cases h

end Invariant

end SheetRecords.Json.Decoder
