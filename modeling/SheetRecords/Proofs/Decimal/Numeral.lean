import Mathlib.Data.List.TakeWhile
import Mathlib.Tactic.Common
import SheetRecords.Decimal.Numeral

/-!
# The texts that are read as floats

A numeral is written with a sign or without one, with digits around a point, after it, before it or
without it, and with an exponent or without one (`Numeral.IsWritten`).  Just such texts are read,
and as the numerals that they are (`Numeral.parse?_eq_some_iff`).  A float is read from a numeral,
or from one of the words for infinity and `NaN` (`readFloat?_eq_some_iff`), which have no digits.
-/

namespace SheetRecords.Decimal

/-! ### The grammar -/

/-- A sign, a minus sign or not. -/
inductive IsSign : Bool → List Char → Prop where
  | minus : IsSign true ['-']
  | plus : IsSign false ['+']
  | absent : IsSign false []

/-- An integer: a sign and digits. -/
inductive IsInteger : Int → List Char → Prop where
  | signed {isNegative : Bool} {sign digits : List Char} (hsign : IsSign isNegative sign)
      (hne : digits ≠ []) (hdigits : ∀ c ∈ digits, c.isDigit = true) :
      IsInteger
        (if isNegative then -(Nat.ofDigitChars 10 digits 0 : Int)
          else (Nat.ofDigitChars 10 digits 0 : Int))
        (sign ++ digits)

/-- A point and the digits behind it. -/
inductive IsFraction : List Char → List Char → Prop where
  | written {digits : List Char} (hdigits : ∀ c ∈ digits, c.isDigit = true) :
      IsFraction digits ('.' :: digits)
  | absent : IsFraction [] []

/-- An exponent: an integer behind the letter `e`. -/
inductive IsExponent : Int → List Char → Prop where
  | written {e : Char} {n : Int} {cs : List Char} (he : e = 'e' ∨ e = 'E') (hn : IsInteger n cs) :
      IsExponent n (e :: cs)
  | absent : IsExponent 0 []

/-- The text of a numeral, which has a digit before the point or behind it. -/
inductive Numeral.IsWritten (n : Numeral) : List Char → Prop where
  | parts {sign fraction exponent : List Char} (hsign : IsSign n.isNegative sign)
      (hwhole : ∀ c ∈ n.whole, c.isDigit = true) (hfraction : IsFraction n.fraction fraction)
      (hexponent : IsExponent n.exponent exponent) (hdigit : n.whole ≠ [] ∨ n.fraction ≠ []) :
      n.IsWritten (sign ++ (n.whole ++ (fraction ++ exponent)))

variable {cs rest : List Char}

theorem IsFraction.isDigit_of_mem {digits : List Char} (h : IsFraction digits cs) {c : Char}
    (hc : c ∈ digits) : c ∈ cs ∧ c.isDigit = true := by
  cases h with
  | written hdigits => exact ⟨List.mem_cons_of_mem _ hc, hdigits c hc⟩
  | absent => cases hc

/-! ### Digits -/

theorem ne_of_isDigit {c d : Char} (hc : c.isDigit = true) (hd : d.isDigit = false) : c ≠ d := by
  rintro rfl
  rw [hc] at hd
  cases hd

/-- Digits have no case. -/
theorem toLower_of_isDigit {c : Char} (h : c.isDigit = true) : c.toLower = c := by
  delta Char.isDigit at h
  delta Char.toLower
  rw [dif_neg]
  simp [UInt32.le_iff_toNat_le] at h ⊢
  omega

/-- Digits are read up to the first other character. -/
theorem span_digits {digits : List Char} (hdigits : ∀ c ∈ digits, c.isDigit = true)
    (hrest : ∀ c ∈ rest.head?, c.isDigit = false) :
    (digits ++ rest).takeWhile Char.isDigit = digits ∧
      (digits ++ rest).dropWhile Char.isDigit = rest := by
  rw [List.takeWhile_append_of_pos hdigits, List.dropWhile_append_of_pos hdigits]
  cases rest with
  | nil => exact ⟨List.append_nil _, rfl⟩
  | cons c rest =>
    have hc : ¬ c.isDigit = true := by simp [hrest c rfl]
    rw [List.takeWhile_cons_of_neg hc, List.dropWhile_cons_of_neg hc]
    exact ⟨List.append_nil _, rfl⟩

theorem isDigit_of_mem_takeWhile {c : Char} (h : c ∈ cs.takeWhile Char.isDigit) :
    c.isDigit = true :=
  List.all_eq_true.mp List.all_takeWhile c h

/-! ### The parts of a numeral -/

/-- The sign that is read stands in front of the rest. -/
theorem exists_readSign (cs : List Char) :
    ∃ sign, IsSign (readSign cs).1 sign ∧ cs = sign ++ (readSign cs).2 := by
  unfold readSign
  split
  · exact ⟨_, .minus, rfl⟩
  · exact ⟨_, .plus, rfl⟩
  · exact ⟨_, .absent, rfl⟩

theorem readSign_append {isNegative : Bool} {sign : List Char} (hsign : IsSign isNegative sign)
    (hrest : ∀ c ∈ rest.head?, c ≠ '-' ∧ c ≠ '+') :
    readSign (sign ++ rest) = (isNegative, rest) := by
  cases hsign with
  | minus => rfl
  | plus => rfl
  | absent =>
    rw [List.nil_append]
    unfold readSign
    split
    · exact absurd rfl (hrest _ rfl).1
    · exact absurd rfl (hrest _ rfl).2
    · rfl

/-- What begins with a digit begins with no sign. -/
theorem readSign_append_digits {isNegative : Bool} {sign digits : List Char}
    (hsign : IsSign isNegative sign) (hdigits : ∀ c ∈ digits, c.isDigit = true) :
    readSign (sign ++ digits) = (isNegative, digits) := by
  refine readSign_append hsign fun c hc => ?_
  have hdigit := hdigits c (List.mem_of_head? hc)
  exact ⟨ne_of_isDigit hdigit rfl, ne_of_isDigit hdigit rfl⟩

theorem readInteger?_eq_some_iff {n : Int} : readInteger? cs = some n ↔ IsInteger n cs := by
  constructor
  · intro h
    obtain ⟨sign, hsign, hcs⟩ := exists_readSign cs
    unfold readInteger? at h
    generalize readSign cs = split at h hsign hcs
    obtain ⟨isNegative, digits⟩ := split
    simp only at h hsign hcs
    split at h
    · cases h
    · next hdigits =>
      simp only [Bool.or_eq_true, List.isEmpty_iff, Bool.not_eq_true', not_or, Bool.not_eq_false,
        List.all_eq_true] at hdigits
      obtain rfl := Option.some.inj h
      rw [hcs]
      exact .signed hsign hdigits.1 hdigits.2
  · rintro ⟨hsign, hne, hdigits⟩
    unfold readInteger?
    rw [readSign_append_digits hsign hdigits]
    exact if_neg (by simpa [hne] using hdigits)

theorem exists_readFraction (cs : List Char) :
    ∃ fraction, IsFraction (readFraction cs).1 fraction ∧ cs = fraction ++ (readFraction cs).2 := by
  unfold readFraction
  split
  · next rest =>
    refine ⟨_, .written fun c hc => isDigit_of_mem_takeWhile hc, ?_⟩
    rw [List.cons_append, List.takeWhile_append_dropWhile]
  · exact ⟨_, .absent, rfl⟩

theorem readFraction_append {digits fraction : List Char} (h : IsFraction digits fraction)
    (hrest : ∀ c ∈ rest.head?, c.isDigit = false ∧ c ≠ '.') :
    readFraction (fraction ++ rest) = (digits, rest) := by
  cases h with
  | written hdigits =>
    obtain ⟨htake, hdrop⟩ := span_digits hdigits fun c hc => (hrest c hc).1
    rw [List.cons_append, readFraction, htake, hdrop]
  | absent =>
    rw [List.nil_append]
    unfold readFraction
    split
    · exact absurd rfl (hrest _ rfl).2
    · rfl

theorem readExponent?_eq_some_iff {n : Int} : readExponent? cs = some n ↔ IsExponent n cs := by
  cases cs with
  | nil =>
    constructor
    · intro h
      obtain rfl := Option.some.inj h
      exact .absent
    · rintro ⟨⟩
      rfl
  | cons e cs =>
    rw [readExponent?]
    by_cases he : e = 'e' ∨ e = 'E'
    · rw [if_pos (by simpa using he), readInteger?_eq_some_iff]
      constructor
      · exact .written he
      · rintro ⟨-, hn⟩
        exact hn
    · rw [if_neg (by simpa using he)]
      constructor
      · intro h
        cases h
      · rintro ⟨he', -⟩
        exact absurd he' he

/-! ### Numerals -/

namespace Numeral

/-- An exponent begins with a letter. -/
theorem of_head?_exponent {n : Int} (h : IsExponent n cs) {c : Char} (hc : c ∈ cs.head?) :
    c.isDigit = false ∧ c ≠ '.' := by
  cases h with
  | written he hn =>
    obtain rfl := Option.some.inj hc
    rcases he with rfl | rfl
    · decide
    · decide
  | absent => cases hc

/-- What follows the digits before the point is no digit. -/
theorem of_head?_fraction {digits fraction exponent : List Char} {n : Int}
    (hfraction : IsFraction digits fraction) (hexponent : IsExponent n exponent) {c : Char}
    (hc : c ∈ (fraction ++ exponent).head?) : c.isDigit = false := by
  cases hfraction with
  | written hdigits =>
    obtain rfl := Option.some.inj hc
    rfl
  | absent => exact (of_head?_exponent hexponent hc).1

/-- What follows the sign is no sign, but a digit or the point. -/
theorem of_head?_unsigned {whole digits fraction exponent : List Char}
    (hwhole : ∀ c ∈ whole, c.isDigit = true) (hfraction : IsFraction digits fraction)
    (hdigit : whole ≠ [] ∨ digits ≠ []) {c : Char}
    (hc : c ∈ (whole ++ (fraction ++ exponent)).head?) : c ≠ '-' ∧ c ≠ '+' := by
  cases whole with
  | cons d whole =>
    obtain rfl := Option.some.inj hc
    have hd := hwhole d (List.mem_cons_self ..)
    exact ⟨ne_of_isDigit hd rfl, ne_of_isDigit hd rfl⟩
  | nil =>
    cases hfraction with
    | written hdigits =>
      obtain rfl := Option.some.inj hc
      decide
    | absent => exact absurd rfl (hdigit.resolve_left (not_not.mpr rfl))

/-- Reading a numeral part by part. -/
theorem parse?_eq (cs : List Char) :
    parse? cs =
      let (isNegative, rest) := readSign cs
      let whole := rest.takeWhile Char.isDigit
      let (fraction, exponent) := readFraction (rest.dropWhile Char.isDigit)
      if whole = [] ∧ fraction = [] then none
      else (readExponent? exponent).map (⟨isNegative, whole, fraction, ·⟩) := by
  unfold parse?
  generalize readSign cs = split
  obtain ⟨isNegative, rest⟩ := split
  dsimp only
  generalize readFraction (rest.dropWhile Char.isDigit) = split
  obtain ⟨fraction, exponent⟩ := split
  dsimp only
  by_cases hnone : rest.takeWhile Char.isDigit = [] ∧ fraction = []
  · rw [if_pos hnone, hnone.1, hnone.2]
    rfl
  · have hsome : ((rest.takeWhile Char.isDigit).isEmpty && fraction.isEmpty) = false := by
      rw [Bool.eq_false_iff, ne_eq, Bool.and_eq_true, List.isEmpty_iff, List.isEmpty_iff]
      exact hnone
    rw [if_neg hnone, hsome]
    cases readExponent? exponent <;> rfl

/-- **Numerals** are read from the texts that are written as they are. -/
theorem parse?_eq_some_iff {n : Numeral} : parse? cs = some n ↔ n.IsWritten cs := by
  rw [parse?_eq]
  constructor
  · intro h
    obtain ⟨sign, hsign, hcs⟩ := exists_readSign cs
    generalize readSign cs = split at h hsign hcs
    obtain ⟨isNegative, rest⟩ := split
    obtain ⟨fraction, hfraction, hrest⟩ := exists_readFraction (rest.dropWhile Char.isDigit)
    simp only at h hsign hcs
    generalize readFraction (rest.dropWhile Char.isDigit) = split at h hfraction hrest
    obtain ⟨digits, exponent⟩ := split
    simp only at h hfraction hrest
    split at h
    · cases h
    · next hdigit =>
      obtain ⟨e, he, rfl⟩ := Option.map_eq_some_iff.mp h
      have hsplit : cs = sign ++ (rest.takeWhile Char.isDigit ++ (fraction ++ exponent)) := by
        rw [← hrest, List.takeWhile_append_dropWhile, hcs]
      rw [hsplit]
      exact .parts hsign (fun c hc => isDigit_of_mem_takeWhile hc) hfraction
        (readExponent?_eq_some_iff.mp he) (not_and_or.mp hdigit)
  · intro h
    cases h with
    | @parts sign fraction exponent hsign hwhole hfraction hexponent hdigit =>
      have hread : readSign (sign ++ (n.whole ++ (fraction ++ exponent))) =
          (n.isNegative, n.whole ++ (fraction ++ exponent)) :=
        readSign_append hsign fun c hc => of_head?_unsigned hwhole hfraction hdigit hc
      have hspan := span_digits hwhole fun c hc => of_head?_fraction hfraction hexponent hc
      have hdigits := readFraction_append hfraction fun c hc => of_head?_exponent hexponent hc
      simp only [hread, hspan, hdigits, if_neg (not_and_or.mpr hdigit),
        readExponent?_eq_some_iff.mpr hexponent]
      rfl

/-- A numeral has a digit. -/
theorem IsWritten.exists_isDigit {n : Numeral} (h : n.IsWritten cs) :
    ∃ c ∈ cs, c.isDigit = true := by
  cases h with
  | @parts sign fraction exponent hsign hwhole hfraction hexponent hdigit =>
    rcases hdigit with hne | hne
    · obtain ⟨c, digits, hcons⟩ := List.exists_cons_of_ne_nil hne
      exact ⟨c, by simp [hcons], hwhole c (by simp [hcons])⟩
    · obtain ⟨c, digits, hcons⟩ := List.exists_cons_of_ne_nil hne
      obtain ⟨hmem, hc⟩ := hfraction.isDigit_of_mem (c := c) (by simp [hcons])
      exact ⟨c, by simp [hmem], hc⟩

end Numeral

/-! ### Floats -/

/-- A sign and a word, in either case. -/
inductive IsSignedWord (word : String) : Bool → List Char → Prop where
  | signed {isNegative : Bool} {sign letters : List Char} (hsign : IsSign isNegative sign)
      (hletters : String.ofList (letters.map Char.toLower) = word) :
      IsSignedWord word isNegative (sign ++ letters)

/-- The sign is read apart from the word, provided that the word does not begin with one. -/
theorem isSignedWord_iff {word : String} {isNegative : Bool}
    (hword : ∀ c ∈ word.toList, c ≠ '-' ∧ c ≠ '+') :
    IsSignedWord word isNegative cs ↔ (readSign cs).1 = isNegative ∧
      String.ofList ((readSign cs).2.map Char.toLower) = word := by
  constructor
  · intro h
    cases h with
    | @signed sign letters hsign hletters =>
      have hhead : ∀ c ∈ letters.head?, c ≠ '-' ∧ c ≠ '+' := by
        intro c hc
        have hmem : c.toLower ∈ word.toList := by
          rw [← hletters, String.toList_ofList]
          exact List.mem_map_of_mem (List.mem_of_head? hc)
        -- A sign has no case, so that it would be in the word.
        obtain ⟨hminus, hplus⟩ := hword _ hmem
        constructor
        · rintro rfl
          exact hminus rfl
        · rintro rfl
          exact hplus rfl
      rw [readSign_append hsign hhead]
      exact ⟨rfl, hletters⟩
  · rintro ⟨rfl, hletters⟩
    obtain ⟨sign, hsign, hcs⟩ := exists_readSign cs
    rw [hcs]
    have hread : (readSign (sign ++ (readSign cs).2)).1 = (readSign cs).1 := by rw [← hcs]
    rw [hread]
    exact .signed hsign hletters

/-- A word without digits has none in either case. -/
theorem IsSignedWord.isDigit_eq_false {word : String} {isNegative : Bool}
    (h : IsSignedWord word isNegative cs) (hword : ∀ c ∈ word.toList, c.isDigit = false)
    {c : Char} (hc : c ∈ cs) : c.isDigit = false := by
  rw [Bool.eq_false_iff]
  intro hdigit
  cases h with
  | @signed sign letters hsign hletters =>
    rcases List.mem_append.mp hc with hc | hc
    · cases hsign with
      | minus => exact ne_of_isDigit hdigit rfl (List.mem_singleton.mp hc)
      | plus => exact ne_of_isDigit hdigit rfl (List.mem_singleton.mp hc)
      | absent => cases hc
    · have hmem : c ∈ word.toList := by
        rw [← hletters, String.toList_ofList, ← toLower_of_isDigit hdigit]
        exact List.mem_map_of_mem hc
      rw [hword c hmem] at hdigit
      cases hdigit

/-- The text of an infinity. -/
def IsInfinity (isNegative : Bool) (cs : List Char) : Prop :=
  IsSignedWord "inf" isNegative cs ∨ IsSignedWord "infinity" isNegative cs

theorem readWord?_eq_some_iff {x : Float} :
    readWord? cs = some x ↔ ∃ isNegative,
      IsInfinity isNegative cs ∧ x = (if isNegative then -(1 / 0) else 1 / 0) ∨
        IsSignedWord "nan" isNegative cs ∧ x = if isNegative then -(0 / 0) else 0 / 0 := by
  have hinf : ∀ {isNegative}, IsSignedWord "inf" isNegative cs ↔ _ :=
    isSignedWord_iff (by simp)
  have hinfinity : ∀ {isNegative}, IsSignedWord "infinity" isNegative cs ↔ _ :=
    isSignedWord_iff (by simp)
  have hnan : ∀ {isNegative}, IsSignedWord "nan" isNegative cs ↔ _ :=
    isSignedWord_iff (by simp)
  unfold readWord? IsInfinity
  simp only [hinf, hinfinity, hnan]
  generalize readSign cs = split
  obtain ⟨isNegative, letters⟩ := split
  simp only
  generalize String.ofList (letters.map Char.toLower) = word
  split
  · simp [eq_comm]
  · simp [eq_comm]
  · simp [eq_comm]
  · next hne hne' hne'' =>
    constructor
    · intro h
      cases h
    · rintro ⟨isNegative, ⟨⟨-, hword⟩ | ⟨-, hword⟩, -⟩ | ⟨⟨-, hword⟩, -⟩⟩
      · exact (hne hword).elim
      · exact (hne' hword).elim
      · exact (hne'' hword).elim

/-- The text of a numeral is no word. -/
theorem readWord?_of_isDigit (h : ∃ c ∈ cs, c.isDigit = true) : readWord? cs = none := by
  obtain ⟨c, hc, hdigit⟩ := h
  have hno : ∀ {word isNegative}, IsSignedWord word isNegative cs →
      (∀ c ∈ word.toList, c.isDigit = false) → False := by
    intro word isNegative hword hnone
    rw [hword.isDigit_eq_false hnone hc] at hdigit
    cases hdigit
  refine Option.eq_none_iff_forall_ne_some.mpr fun x hx => ?_
  obtain ⟨isNegative, ⟨hword | hword, -⟩ | ⟨hword, -⟩⟩ := readWord?_eq_some_iff.mp hx
  · exact hno hword (by simp)
  · exact hno hword (by simp)
  · exact hno hword (by simp)

/-- **Floats** are read from numerals and from the words for infinity and `NaN`. -/
theorem readFloat?_eq_some_iff {x : Float} :
    readFloat? cs = some x ↔
      (∃ n : Numeral, n.IsWritten cs ∧ n.toFloat = x) ∨ ∃ isNegative,
        IsInfinity isNegative cs ∧ x = (if isNegative then -(1 / 0) else 1 / 0) ∨
          IsSignedWord "nan" isNegative cs ∧ x = if isNegative then -(0 / 0) else 0 / 0 := by
  rw [← readWord?_eq_some_iff]
  simp only [← Numeral.parse?_eq_some_iff]
  unfold readFloat?
  cases hparse : Numeral.parse? cs with
  | none => simp
  | some n =>
    have hword := readWord?_of_isDigit (Numeral.parse?_eq_some_iff.mp hparse).exists_isDigit
    simp [hword]

/-- A text with a digit is read as a float just if it is a numeral. -/
theorem readFloat?_of_isDigit (h : ∃ c ∈ cs, c.isDigit = true) {x : Float} :
    readFloat? cs = some x ↔ ∃ n : Numeral, n.IsWritten cs ∧ n.toFloat = x := by
  rw [readFloat?_eq_some_iff, ← readWord?_eq_some_iff, readWord?_of_isDigit h]
  simp

end SheetRecords.Decimal
