import Mathlib.Data.Nat.Digits.Defs
import SheetRecords.Proofs.Cell.Address

/-!
# The texts that are read as addresses

Which texts `Address.parse` accepts, and as what: those that are written as an address in A1
notation (`Address.IsWritten`), with or without a plus sign before the row number
(`Address.parse_accepts`).  The letters of a column are a number in bijective base 26
(`lettersNumber`), the digits of a row a decimal number.
-/

namespace SheetRecords

namespace Text

/-- Trimming takes blanks off both ends. -/
theorem exists_trimBlanks (cs : List Char) :
    ∃ before after, cs = before ++ trimBlanks cs ++ after ∧
      (∀ c ∈ before, isBlank c = true) ∧ ∀ c ∈ after, isBlank c = true := by
  have hblank : ∀ l : List Char, ∀ c ∈ l.takeWhile isBlank, isBlank c = true := by
    intro l c hc
    exact List.all_eq_true.mp List.all_takeWhile c hc
  refine ⟨cs.takeWhile isBlank,
    ((cs.dropWhile isBlank).reverse.takeWhile isBlank).reverse, ?_, hblank cs, ?_⟩
  · rw [trimBlanks, List.append_assoc, ← List.reverse_append, List.takeWhile_append_dropWhile,
      List.reverse_reverse, List.takeWhile_append_dropWhile]
  · intro c hc
    exact hblank _ c (List.mem_reverse.mp hc)

/-- Blanks around a text that neither begins nor ends with one are trimmed. -/
theorem trimBlanks_surround {before cs after : List Char}
    (hbefore : ∀ c ∈ before, isBlank c = true) (hafter : ∀ c ∈ after, isBlank c = true)
    (hne : cs ≠ []) (hhead : ∀ c ∈ cs.head?, isBlank c = false)
    (hlast : ∀ c ∈ cs.getLast?, isBlank c = false) :
    trimBlanks (before ++ cs ++ after) = cs := by
  -- Dropping stops at the first character of the text, from either end.
  have hdrop : ∀ l l' : List Char, (∀ c ∈ l, isBlank c = true) → l' ≠ [] →
      (∀ c ∈ l'.head?, isBlank c = false) → ∀ rest,
      (l ++ (l' ++ rest)).dropWhile isBlank = l' ++ rest := by
    intro l l' hl hl' hhead rest
    rw [List.dropWhile_append_of_pos hl]
    cases l' with
    | nil => exact absurd rfl hl'
    | cons c l' => exact List.dropWhile_cons_of_neg (by simp [hhead c rfl])
  unfold trimBlanks
  rw [List.append_assoc, hdrop before cs hbefore hne hhead after, List.reverse_append]
  have hreverse := hdrop after.reverse cs.reverse (by simpa using hafter) (by simpa using hne)
    (by simpa using hlast) []
  rw [List.append_nil] at hreverse
  rw [hreverse, List.reverse_reverse]

end Text

namespace Cell

/-! ### Letters -/

/-- The number that letters stand for in bijective base 26. -/
def lettersNumber (letters : List Char) : Nat :=
  Nat.ofDigits 26 (letters.reverse.map letterValue)

theorem lettersNumber_cons (c : Char) (letters : List Char) :
    lettersNumber (c :: letters) = letterValue c * 26 ^ letters.length + lettersNumber letters := by
  simp only [lettersNumber, List.reverse_cons, List.map_append, List.map_cons, List.map_nil,
    Nat.ofDigits_append, Nat.ofDigits_singleton, List.length_map, List.length_reverse]
  rw [Nat.mul_comm, Nat.add_comm]

theorem lettersNumber_cons_pos (c : Char) (letters : List Char) :
    0 < lettersNumber (c :: letters) := by
  have hvalue : 0 < letterValue c * 26 ^ letters.length :=
    Nat.mul_pos (Nat.succ_pos _) (by positivity)
  rw [lettersNumber_cons]
  omega

/-- Letters are read as the number that they stand for, behind those read before. -/
theorem readLetters_eq_ok_iff {n m : Nat} {letters : List Char} (hn : n ≤ columnLimit) :
    readLetters n letters = .ok m ↔
      (∀ c ∈ letters, c.isAlpha = true) ∧
        n * 26 ^ letters.length + lettersNumber letters = m ∧ m ≤ columnLimit := by
  induction letters generalizing n with
  | nil =>
    simp only [readLetters, Except.ok.injEq, List.not_mem_nil, false_imp_iff, implies_true,
      true_and, List.length_nil, pow_zero, mul_one]
    show n = m ↔ n + 0 = m ∧ m ≤ columnLimit
    omega
  | cons c letters ih =>
    have hnumber : n * 26 ^ (c :: letters).length + lettersNumber (c :: letters) =
        (n * 26 + letterValue c) * 26 ^ letters.length + lettersNumber letters := by
      rw [lettersNumber_cons, List.length_cons, pow_succ]
      ring
    rw [hnumber, List.forall_mem_cons, readLetters]
    by_cases hc : c.isAlpha = true
    · rw [if_pos hc]
      by_cases hnext : columnLimit < n * 26 + letterValue c
      · -- What is beyond the limit stays so, whatever letters follow.
        have hgrows : n * 26 + letterValue c ≤ (n * 26 + letterValue c) * 26 ^ letters.length :=
          Nat.le_mul_of_pos_right _ (by positivity)
        simp only [if_pos hnext]
        constructor
        · intro h
          cases h
        · rintro ⟨-, hm, hlimit⟩
          omega
      · simp only [if_neg hnext]
        rw [ih (by omega)]
        simp only [hc, true_and]
    · rw [if_neg hc]
      constructor
      · intro h
        cases h
      · rintro ⟨⟨halpha, -⟩, -⟩
        exact absurd halpha hc

/-- Letters are read as a column just if they are ASCII letters and stand for its number, counted
from one, which is within the limit. -/
theorem columnOfLetters_eq_ok_iff {letters : List Char} {column : Nat} :
    columnOfLetters letters = .ok column ↔
      letters ≠ [] ∧ (∀ c ∈ letters, c.isAlpha = true) ∧
        lettersNumber letters = column + 1 ∧ column < columnLimit := by
  cases letters with
  | nil => simp [columnOfLetters]
  | cons c letters =>
    have hpos := lettersNumber_cons_pos c letters
    rw [columnOfLetters, map_eq_ok_iff]
    simp only [readLetters_eq_ok_iff (Nat.zero_le _), Nat.zero_mul, Nat.zero_add]
    constructor
    · rintro ⟨m, ⟨halpha, hm, hlimit⟩, rfl⟩
      refine ⟨List.cons_ne_nil _ _, halpha, ?_, ?_⟩
      · omega
      · omega
    · rintro ⟨-, halpha, hnumber, hlimit⟩
      exact ⟨column + 1, ⟨halpha, hnumber, hlimit⟩, rfl⟩

namespace Address

/-! ### Digits -/

/-- A row number may have a plus sign before its digits. -/
theorem rowNumber?_eq_some_iff {cs : List Char} {n : Nat} :
    rowNumber? cs = some n ↔ ∃ sign digits : List Char, (sign = [] ∨ sign = ['+']) ∧
      cs = sign ++ digits ∧ digits ≠ [] ∧ (∀ c ∈ digits, c.isDigit = true) ∧
      Nat.ofDigitChars 10 digits 0 = n ∧ n < 2 ^ 32 := by
  have hread : ∀ digits : List Char,
      (if digits.isEmpty || !digits.all Char.isDigit then none
        else if Nat.ofDigitChars 10 digits 0 < Nat.pow 2 32 then
          some (Nat.ofDigitChars 10 digits 0) else none) = some n ↔
      digits ≠ [] ∧ (∀ c ∈ digits, c.isDigit = true) ∧
        Nat.ofDigitChars 10 digits 0 = n ∧ n < 2 ^ 32 := by
    intro digits
    constructor
    · intro h
      split_ifs at h with hdigits hlt
      obtain rfl := Option.some.inj h
      simp only [Bool.or_eq_true, List.isEmpty_iff, Bool.not_eq_true', not_or,
        Bool.not_eq_false, List.all_eq_true] at hdigits
      exact ⟨hdigits.1, hdigits.2, rfl, hlt⟩
    · rintro ⟨hne, hall, rfl, hlt⟩
      rw [if_neg (by simpa [hne] using hall)]
      exact if_pos hlt
  unfold rowNumber?
  split
  · next rest =>
    rw [hread]
    constructor
    · intro h
      exact ⟨['+'], rest, .inr rfl, rfl, h⟩
    · rintro ⟨sign, digits, rfl | rfl, hcs, h⟩
      · -- A plus sign is no digit.
        have hdigits : '+' :: rest = digits := hcs
        have hplus := h.2.1 '+' (by rw [← hdigits]; exact List.mem_cons_self ..)
        exact absurd hplus (by decide)
      · obtain rfl := (List.cons.inj hcs).2
        exact h
  · next hplus =>
    rw [hread]
    constructor
    · intro h
      exact ⟨[], cs, .inl rfl, rfl, h⟩
    · rintro ⟨sign, digits, rfl | rfl, rfl, h⟩
      · exact h
      · exact absurd rfl (hplus digits)

/-! ### Addresses -/

/-- A dollar sign, or nothing. -/
def mark (absolute : Bool) : List Char :=
  if absolute then ['$'] else []

theorem exists_mark (cs : List Char) : ∃ absolute, cs = mark absolute ++ dropDollar cs := by
  unfold dropDollar
  split
  · exact ⟨true, rfl⟩
  · exact ⟨false, rfl⟩

theorem dropDollar_mark (absolute : Bool) {cs : List Char} (h : ∀ c ∈ cs.head?, c ≠ '$') :
    dropDollar (mark absolute ++ cs) = cs := by
  cases absolute with
  | true => rfl
  | false => exact dropDollar_eq_self h

/-- The parts of an address in A1 notation. -/
structure Spelling where
  absoluteColumn : Bool
  letters : List Char
  absoluteRow : Bool
  digits : List Char

namespace Spelling

/-- The parts one after the other, with something between a row number and what is before it. -/
def chars (p : Spelling) (sign : List Char) : List Char :=
  mark p.absoluteColumn ++ (p.letters ++ (mark p.absoluteRow ++ (sign ++ p.digits)))

/-- The parts are those of an address within the limits of a sheet: ASCII letters for the column,
counted from one in bijective base 26, and ASCII digits for the row, counted from one. -/
structure Names (p : Spelling) (a : Address) : Prop where
  letters_ne_nil : p.letters ≠ []
  letters : ∀ c ∈ p.letters, c.isAlpha = true
  column : lettersNumber p.letters = a.column + 1
  digits_ne_nil : p.digits ≠ []
  digits : ∀ c ∈ p.digits, c.isDigit = true
  row : Nat.ofDigitChars 10 p.digits 0 = a.row + 1
  isInside : a.IsInside

variable {p : Spelling} {a : Address} {sign : List Char}

/-- An address is written with letters, digits, dollar signs and its sign. -/
theorem Names.mem_chars (h : p.Names a) {c : Char} (hc : c ∈ p.chars sign) :
    c.isAlphanum = true ∨ c = '$' ∨ c ∈ sign := by
  have hmark : ∀ absolute, c ∈ mark absolute → c = '$' := by
    intro absolute hmem
    cases absolute with
    | true => exact List.mem_singleton.mp hmem
    | false => cases hmem
  simp only [chars, List.mem_append] at hc
  rw [Char.isAlphanum, Bool.or_eq_true]
  rcases hc with hc | hc | hc | hc | hc
  · exact .inr (.inl (hmark _ hc))
  · exact .inl (.inl (h.letters c hc))
  · exact .inr (.inl (hmark _ hc))
  · exact .inr (.inr hc)
  · exact .inl (.inr (h.digits c hc))

/-- Neither end of an address is blank. -/
theorem Names.trimBlanks_surround (h : p.Names a) {before after : List Char}
    (hbefore : ∀ c ∈ before, Text.isBlank c = true) (hafter : ∀ c ∈ after, Text.isBlank c = true)
    (hsign : ∀ c ∈ sign, Text.isBlank c = false) :
    Text.trimBlanks (before ++ p.chars sign ++ after) = p.chars sign := by
  have hchars : ∀ c ∈ p.chars sign, Text.isBlank c = false := by
    intro c hc
    rcases h.mem_chars hc with hc | rfl | hc
    · exact Text.isBlank_of_isAlphanum hc
    · decide
    · exact hsign c hc
  have hne : p.chars sign ≠ [] := by simp [chars, h.letters_ne_nil]
  refine Text.trimBlanks_surround hbefore hafter hne ?_ ?_
  · intro c hc
    exact hchars c (List.mem_of_mem_head? hc)
  · intro c hc
    exact hchars c (List.mem_of_mem_getLast? hc)

/-- The parts of an address are told apart by the first character that is no letter. -/
theorem Names.span (h : p.Names a) (hsign : sign = [] ∨ sign = ['+']) :
    (dropDollar (p.chars sign)).takeWhile Char.isAlpha = p.letters ∧
      dropDollar ((dropDollar (p.chars sign)).dropWhile Char.isAlpha) = sign ++ p.digits := by
  obtain ⟨c, digits, hdigits⟩ := List.exists_cons_of_ne_nil h.digits_ne_nil
  have hdigit : c.isDigit = true := h.digits c (by simp [hdigits])
  have hsigned : ∀ d ∈ (sign ++ p.digits).head?, d.isAlpha = false ∧ d ≠ '$' := by
    intro d hd
    rcases hsign with rfl | rfl
    · rw [hdigits] at hd
      obtain rfl : c = d := Option.some.inj hd
      refine ⟨Text.isAlpha_of_isDigit hdigit, ?_⟩
      rintro rfl
      exact absurd hdigit (by decide)
    · obtain rfl : '+' = d := Option.some.inj hd
      decide
  have hrow : ∀ d ∈ (mark p.absoluteRow ++ (sign ++ p.digits)).head?, d.isAlpha = false := by
    intro d hd
    cases hmark : p.absoluteRow with
    | true =>
      rw [hmark] at hd
      obtain rfl : '$' = d := Option.some.inj hd
      decide
    | false =>
      rw [hmark] at hd
      exact (hsigned d hd).1
  have hcolumn : dropDollar (p.chars sign) =
      p.letters ++ (mark p.absoluteRow ++ (sign ++ p.digits)) := by
    refine dropDollar_mark _ fun d hd => ?_
    rw [List.head?_append_of_ne_nil _ h.letters_ne_nil] at hd
    rintro rfl
    exact absurd (h.letters _ (List.mem_of_mem_head? hd)) (by decide)
  rw [hcolumn, List.takeWhile_append_of_pos h.letters, List.dropWhile_append_of_pos h.letters]
  cases hrest : mark p.absoluteRow ++ (sign ++ p.digits) with
  | nil => simp [hdigits] at hrest
  | cons d rest =>
    have hd : ¬ d.isAlpha = true := by
      rw [hrow d (by rw [hrest]; rfl)]
      exact Bool.false_ne_true
    rw [List.takeWhile_cons_of_neg hd, List.dropWhile_cons_of_neg hd, List.append_nil, ← hrest]
    exact ⟨rfl, dropDollar_mark _ fun d hd => (hsigned d hd).2⟩

end Spelling

/-- The text is an address in A1 notation, with a sign before its row number if one is given, and
blanks around it. -/
def IsWritten (sign : List Char) (s : String) (a : Address) : Prop :=
  ∃ (p : Spelling) (before after : List Char), p.Names a ∧
    s.toList = before ++ p.chars sign ++ after ∧
    (∀ c ∈ before, Text.isBlank c = true) ∧ ∀ c ∈ after, Text.isBlank c = true

/-- What is written as an address is read as that address. -/
theorem IsWritten.parse_eq_ok {sign : List Char} {s : String} {a : Address}
    (hsign : sign = [] ∨ sign = ['+']) (h : a.IsWritten sign s) : parse s = .ok a := by
  obtain ⟨p, before, after, hp, hs, hbefore, hafter⟩ := h
  have hblank : ∀ c ∈ sign, Text.isBlank c = false := by
    intro c hc
    rcases hsign with rfl | rfl
    · cases hc
    · rw [List.mem_singleton.mp hc]
      rfl
  have htrim := hp.trimBlanks_surround hbefore hafter hblank
  obtain ⟨hletters, hdigits⟩ := hp.span hsign
  obtain ⟨hrow, hcolumn⟩ := hp.isInside
  rw [parse_eq_ok_iff, hs, htrim]
  show columnOfLetters _ = _ ∧ rowNumber? _ = _ ∧ _
  rw [hletters, hdigits]
  have hbits : rowLimit < 2 ^ 32 := by decide
  refine ⟨columnOfLetters_eq_ok_iff.mpr ⟨hp.letters_ne_nil, hp.letters, hp.column, hcolumn⟩,
    rowNumber?_eq_some_iff.mpr ⟨sign, p.digits, hsign, rfl, hp.digits_ne_nil, hp.digits, hp.row, ?_⟩,
    hrow⟩
  omega

/-- A text that is read as an address is one that is written so. -/
theorem isWritten_of_parse {s : String} {a : Address} (h : parse s = .ok a) :
    ∃ sign, (sign = [] ∨ sign = ['+']) ∧ a.IsWritten sign s := by
  obtain ⟨hcolumn, hrow, hlimit⟩ := parse_eq_ok_iff.mp h
  obtain ⟨before, after, hs, hbefore, hafter⟩ := Text.exists_trimBlanks s.toList
  obtain ⟨absoluteColumn, hcolumnMark⟩ := exists_mark (Text.trimBlanks s.toList)
  generalize dropDollar (Text.trimBlanks s.toList) = cs at hcolumn hrow hcolumnMark
  obtain ⟨absoluteRow, hrowMark⟩ := exists_mark (cs.dropWhile Char.isAlpha)
  obtain ⟨hlettersNe, hletters, hnumber, hinside⟩ := columnOfLetters_eq_ok_iff.mp hcolumn
  obtain ⟨sign, digits, hsign, hdigits, hdigitsNe, hall, hvalue, -⟩ :=
    rowNumber?_eq_some_iff.mp hrow
  refine ⟨sign, hsign, ⟨absoluteColumn, cs.takeWhile Char.isAlpha, absoluteRow, digits⟩, before,
    after, ⟨hlettersNe, hletters, hnumber, hdigitsNe, hall, hvalue, hlimit, hinside⟩, ?_, hbefore,
    hafter⟩
  show s.toList = before ++ (mark absoluteColumn ++
    (cs.takeWhile Char.isAlpha ++ (mark absoluteRow ++ (sign ++ digits)))) ++ after
  rw [← hdigits, ← hrowMark, List.takeWhile_append_dropWhile, ← hcolumnMark]
  exact hs

/-- **Texts of addresses.**  A text is read as an address just if it is written in A1 notation,
where a plus sign may stand before the row number: blanks aside, there are the letters of the column
and the digits of the row, each after a dollar sign or without one, and nothing else.  All other
texts are errors. -/
theorem parse_accepts (s : String) :
    (∀ a, parse s = .ok a ↔ a.IsWritten [] s ∨ a.IsWritten ['+'] s) ∧
      ((∃ e, parse s = .error e) ↔ ∀ a : Address, ¬ a.IsWritten [] s ∧ ¬ a.IsWritten ['+'] s) := by
  have haccepts : ∀ a, parse s = .ok a ↔ a.IsWritten [] s ∨ a.IsWritten ['+'] s := by
    intro a
    constructor
    · intro h
      obtain ⟨sign, rfl | rfl, hwritten⟩ := isWritten_of_parse h
      · exact .inl hwritten
      · exact .inr hwritten
    · rintro (h | h)
      · exact h.parse_eq_ok (.inl rfl)
      · exact h.parse_eq_ok (.inr rfl)
  refine ⟨haccepts, ?_⟩
  simp only [← not_or, ← haccepts]
  cases parse s <;> simp

/-- The plus sign before the row number is read over, though the text is no address in A1
notation. -/
theorem parse_plus_sign :
    parse "A+1" = .ok ⟨0, 0⟩ ∧ ∀ a : Address, ¬ a.IsWritten [] "A+1" := by
  refine ⟨by decide +kernel, ?_⟩
  rintro a ⟨p, before, after, hp, hs, hbefore, hafter⟩
  have hplus : '+' ∈ before ++ p.chars [] ++ after := by
    rw [← hs]
    decide
  simp only [List.mem_append] at hplus
  rcases hplus with (hplus | hplus) | hplus
  · exact absurd (hbefore _ hplus) (by decide)
  · rcases hp.mem_chars hplus with h | h | h
    · exact absurd h (by decide)
    · exact absurd h (by decide)
    · cases h
  · exact absurd (hafter _ hplus) (by decide)

end Address

end Cell

end SheetRecords
