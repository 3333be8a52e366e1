import Mathlib.Data.List.Forall2

/-!
# Steps that may fail

What is known of the steps if a sequence of them, or the same step for each member of a list,
succeeds, and for which reason it fails otherwise (`failure?`).
-/

namespace SheetRecords

/-- A sequence of two steps succeeds only when both do. -/
theorem exists_of_bind_eq_ok {ε α β : Type} {x : Except ε α} {f : α → Except ε β} {b : β}
    (h : (x >>= f) = .ok b) : ∃ a, x = .ok a ∧ f a = .ok b := by
  cases x with
  | error e => cases h
  | ok a => exact ⟨a, rfl, h⟩

/-- To word an error is not to succeed. -/
theorem mapError_eq_ok_iff {ε ε' α : Type} {x : Except ε α} {f : ε → ε'} {a : α} :
    x.mapError f = .ok a ↔ x = .ok a := by
  cases x <;> simp [Except.mapError]

theorem map_eq_ok_iff {ε α β : Type} {x : Except ε α} {f : α → β} {b : β} :
    f <$> x = .ok b ↔ ∃ a, x = .ok a ∧ f a = b := by
  cases x <;> simp [Functor.map, Except.map]

/-- All of a list succeeds if each member does. -/
theorem mapM_eq_ok_iff {α β ε : Type} {f : α → Except ε β} {l : List α} {l' : List β} :
    l.mapM f = .ok l' ↔ List.Forall₂ (fun a b => f a = .ok b) l l' := by
  induction l generalizing l' with
  | nil => cases l' <;> simp [pure, Except.pure]
  | cons a l ih =>
    rw [List.mapM_cons]
    cases ha : f a with
    | error e => cases l' <;> simp [bind, Except.bind, ha]
    | ok b =>
      cases hl : l.mapM f with
      | error e => cases l' <;> simp [bind, Except.bind, ← ih, ha, hl]
      | ok bs => cases l' <;> simp [bind, Except.bind, pure, Except.pure, ← ih, ha, hl]

/-- Each member of a list has its partner in the other. -/
theorem exists_of_mem_forall₂ {α β : Type} {r : α → β → Prop} {l : List α} {l' : List β}
    (h : List.Forall₂ r l l') {a : α} (ha : a ∈ l) : ∃ b ∈ l', r a b := by
  induction h with
  | nil => cases ha
  | cons hfirst _ ih =>
    rcases List.mem_cons.mp ha with rfl | ha
    · exact ⟨_, List.mem_cons_self .., hfirst⟩
    · obtain ⟨b, hb, hab⟩ := ih ha
      exact ⟨b, List.mem_cons_of_mem _ hb, hab⟩

/-- The same step for each member of a list succeeds if it does for every one. -/
theorem exists_mapM_eq_ok {α β ε : Type} {f : α → Except ε β} {l : List α}
    (h : ∀ a ∈ l, ∃ b, f a = .ok b) : ∃ l', l.mapM f = .ok l' := by
  induction l with
  | nil => exact ⟨[], rfl⟩
  | cons a l ih =>
    obtain ⟨b, hb⟩ := h a (List.mem_cons_self ..)
    obtain ⟨bs, hbs⟩ := ih fun a' ha' => h a' (List.mem_cons_of_mem _ ha')
    refine ⟨b :: bs, mapM_eq_ok_iff.mpr (.cons hb ?_)⟩
    exact mapM_eq_ok_iff.mp hbs

/-- Nothing but the partners of the members comes out. -/
theorem mem_of_mapM_eq_ok {α β ε : Type} {f : α → Except ε β} {l : List α} {l' : List β}
    (h : l.mapM f = .ok l') {b : β} : b ∈ l' ↔ ∃ a ∈ l, f a = .ok b := by
  have hpartners := mapM_eq_ok_iff.mp h
  clear h
  induction hpartners with
  | nil => simp
  | cons hfirst _ ih => simp [ih, hfirst, eq_comm]

/-- The parts of a list have their partners in the parts of the other. -/
theorem exists_append_of_forall₂ {α β : Type} {r : α → β → Prop} {l₁ l₂ : List α} {l : List β}
    (h : List.Forall₂ r (l₁ ++ l₂) l) :
    ∃ l₁' l₂', l = l₁' ++ l₂' ∧ List.Forall₂ r l₁ l₁' ∧ List.Forall₂ r l₂ l₂' := by
  induction l₁ generalizing l with
  | nil => exact ⟨[], l, rfl, .nil, h⟩
  | cons a l₁ ih =>
    obtain ⟨b, rest, hab, hrest, rfl⟩ := List.forall₂_cons_left_iff.mp h
    obtain ⟨l₁', l₂', rfl, h₁, h₂⟩ := ih hrest
    exact ⟨b :: l₁', l₂', rfl, .cons hab h₁, h₂⟩

/-- A member may be exchanged for one that has the same partners. -/
theorem forall₂_append_cons_congr {α β : Type} {r : α → β → Prop} {a a' : α}
    (h : ∀ b, r a' b ↔ r a b) (l₁ l₂ : List α) (l : List β) :
    List.Forall₂ r (l₁ ++ a' :: l₂) l ↔ List.Forall₂ r (l₁ ++ a :: l₂) l := by
  induction l₁ generalizing l with
  | nil =>
    rw [List.nil_append, List.nil_append, List.forall₂_cons_left_iff, List.forall₂_cons_left_iff]
    simp only [h]
  | cons x l₁ ih =>
    rw [List.cons_append, List.cons_append, List.forall₂_cons_left_iff, List.forall₂_cons_left_iff]
    simp only [ih]

/-! ### Reasons of failures -/

/-- Why something fails, if it does. -/
def failure? {ε α : Type} : Except ε α → Option ε
  | .error e => some e
  | .ok _ => none

theorem failure?_eq_none_iff {ε α : Type} {x : Except ε α} :
    failure? x = none ↔ ∃ a, x = .ok a := by
  cases x <;> simp [failure?]

/-- A sequence fails for the reason of its first step, or else for that of the second. -/
theorem failure?_bind {ε α β : Type} (x : Except ε α) (f : α → Except ε β) :
    failure? (x >>= f) =
      match x with
      | .error e => some e
      | .ok a => failure? (f a) := by
  cases x <;> rfl

theorem failure?_bind_pure {ε α β : Type} (x : Except ε α) (f : α → β) :
    failure? (x >>= fun a => pure (f a)) = failure? x := by
  cases x <;> rfl

/-- The same step for each member of a list fails for the reason of the first one that does. -/
theorem failure?_mapM {ε α β : Type} (f : α → Except ε β) (l : List α) :
    failure? (l.mapM f) = l.findSome? fun a => failure? (f a) := by
  induction l with
  | nil => rfl
  | cons a l ih =>
    rw [List.mapM_cons, List.findSome?_cons, failure?_bind, ← ih]
    cases f a with
    | error e => rfl
    | ok b => exact failure?_bind_pure ..

end SheetRecords
