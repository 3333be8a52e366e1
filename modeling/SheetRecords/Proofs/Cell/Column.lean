import Mathlib.Data.List.Induction
import SheetRecords.Cell.Walk
import SheetRecords.Proofs.Cell.Grammar

/-!
# Column letters decode uniquely

A text is read as a column just if it consists of ASCII letters and its capitals are the letters
that the column is written with (`columnOfLetters_decodes`).  Reading goes from the first letter on
and writing from the last one back; they meet in `bijectiveLetters_append`, where one more letter is
one more digit in bijective base 26.  The limit is looked at after each letter, so that the number
read before the next one is never greater: reading in words of 32 bits (`Word.columnOfLetters?`)
comes to the same at any length.
-/

namespace SheetRecords.Cell

/-! ### Capitals -/

/-- The capital of an ASCII letter is one of the 26. -/
theorem toNat_toUpper_of_isAlpha {c : Char} (hc : c.isAlpha = true) :
    'A'.toNat ≤ c.toUpper.toNat ∧ c.toUpper.toNat ≤ 'Z'.toNat := by
  delta Char.isAlpha Char.isUpper Char.isLower at hc
  simp [UInt32.le_iff_toNat_le] at hc
  unfold Char.toUpper
  split
  · next hlower =>
    simp [UInt32.le_iff_toNat_le] at hlower ⊢
    omega
  · next hupper =>
    simp [UInt32.le_iff_toNat_le] at hupper ⊢
    omega

theorem letterValue_le {c : Char} (hc : c.isAlpha = true) : letterValue c ≤ 26 := by
  obtain ⟨-, hz⟩ := toNat_toUpper_of_isAlpha hc
  have hspan : 'Z'.toNat - 'A'.toNat + 1 = 26 := by decide
  unfold letterValue
  omega

/-! ### Letters and numbers -/

theorem lettersNumber_append_singleton (letters : List Char) (c : Char) :
    lettersNumber (letters ++ [c]) = lettersNumber letters * 26 + letterValue c := by
  simp only [lettersNumber, List.reverse_append, List.reverse_singleton, List.singleton_append,
    List.map_cons, Nat.ofDigits_cons]
  omega

/-- A letter put behind the letters of a number is its next digit. -/
theorem bijectiveLetters_append (n : Nat) {c : Char} (hc : c.isAlpha = true) :
    bijectiveLetters (n * 26 + letterValue c) = bijectiveLetters n ++ [c.toUpper] := by
  obtain ⟨ha, hz⟩ := toNat_toUpper_of_isAlpha hc
  have hspan : 'Z'.toNat = 'A'.toNat + 25 := by decide
  have hdiv : (n * 26 + (c.toUpper.toNat - 'A'.toNat)) / 26 = n := by omega
  have hmod : (n * 26 + (c.toUpper.toNat - 'A'.toNat)) % 26 = c.toUpper.toNat - 'A'.toNat := by
    omega
  rw [letterValue, ← Nat.add_assoc, bijectiveLetters, hdiv, hmod, Nat.add_sub_cancel' ha,
    Char.ofNat_toNat]

/-- The letters of the number that letters stand for are their capitals. -/
theorem bijectiveLetters_lettersNumber {letters : List Char}
    (h : ∀ c ∈ letters, c.isAlpha = true) :
    bijectiveLetters (lettersNumber letters) = letters.map Char.toUpper := by
  -- Letter by letter from the end, where writing takes its digits.
  induction letters using List.reverseRecOn with
  | nil => simp [lettersNumber, bijectiveLetters]
  | append_singleton letters c ih =>
    simp only [List.mem_append, List.mem_singleton] at h
    rw [lettersNumber_append_singleton, bijectiveLetters_append _ (h c (.inr rfl)),
      ih fun d hd => h d (.inl hd), List.map_append, List.map_singleton]

/-- The letters of a number stand for it. -/
theorem lettersNumber_bijectiveLetters (n : Nat) : lettersNumber (bijectiveLetters n) = n := by
  induction n using bijectiveLetters.induct with
  | case1 => simp [lettersNumber, bijectiveLetters]
  | case2 n ih =>
    obtain ⟨-, hvalue, -⟩ := capital_spec ⟨n % 26, Nat.mod_lt n (by decide)⟩
    rw [bijectiveLetters, lettersNumber_append_singleton, ih, hvalue]
    show n / 26 * 26 + (n % 26 + 1) = n + 1
    omega

/-- A number is that of letters just if its letters are their capitals. -/
theorem lettersNumber_eq_iff {letters : List Char} {n : Nat}
    (h : ∀ c ∈ letters, c.isAlpha = true) :
    lettersNumber letters = n ↔ letters.map Char.toUpper = bijectiveLetters n := by
  constructor
  · rintro rfl
    rw [bijectiveLetters_lettersNumber h]
  · intro hcapitals
    calc lettersNumber letters
        = lettersNumber (bijectiveLetters (lettersNumber letters)) :=
          (lettersNumber_bijectiveLetters _).symm
      _ = lettersNumber (bijectiveLetters n) := by
          rw [bijectiveLetters_lettersNumber h, hcapitals]
      _ = n := lettersNumber_bijectiveLetters n

theorem toUpper_eq_columnLetters_iff {s : String} {column : Nat} :
    s.toUpper = columnLetters column ↔
      s.toList.map Char.toUpper = bijectiveLetters (column + 1) := by
  rw [← String.toList_inj, String.toUpper, String.toList_map, columnLetters, String.toList_ofList]

/-! ### Reading in words -/

namespace Word

/-- The value of an ASCII letter as a digit, in words of 32 bits. -/
def letterValue? (c : Char) : Option Nat := do
  add? 32 (← sub? c.toUpper.toNat 'A'.toNat) 1

/-- Reads letters behind those already read as `n`, in words of 32 bits. -/
def readLetters? (n : Nat) : List Char → Option (Except ReferenceError Nat)
  | [] => some (.ok n)
  | c :: rest =>
    if c.isAlpha then do
      let next ← add? 32 (← mul? 32 n 26) (← letterValue? c)
      if columnLimit < next then return .error (.outside (.column (← sub? next 1)))
      else readLetters? next rest
    else some (.error (.notALetter c))

/-- Reads the letters of a column in words of 32 bits and keeps the lower 16 bits of it. -/
def columnOfLetters? : List Char → Option (Except ReferenceError Nat)
  | [] => some (.error .noLetters)
  | c :: rest => do
    match ← readLetters? 0 (c :: rest) with
    | .ok n => return .ok ((← sub? n 1) % Nat.pow 2 16)
    | .error e => return .error e

theorem letterValue?_eq {c : Char} (hc : c.isAlpha = true) :
    letterValue? c = some (letterValue c) := by
  have hsub : sub? c.toUpper.toNat 'A'.toNat = some (c.toUpper.toNat - 'A'.toNat) :=
    if_pos (toNat_toUpper_of_isAlpha hc).1
  have hvalue := letterValue_le hc
  rw [letterValue?, hsub]
  exact if_pos (lt_of_le_of_lt hvalue (by decide))

/-- What is read within the limit leaves room for one more letter in a word. -/
theorem readLetters?_eq {n : Nat} (hn : n ≤ columnLimit) (letters : List Char) :
    readLetters? n letters = some (readLetters n letters) := by
  induction letters generalizing n with
  | nil => rfl
  | cons c letters ih =>
    rw [readLetters?, readLetters]
    by_cases hc : c.isAlpha = true
    · have hvalue := letterValue_le hc
      have hpos : 1 ≤ n * 26 + letterValue c := by
        rw [letterValue]
        omega
      have hbound : n * 26 + letterValue c < Nat.pow 2 32 :=
        calc n * 26 + letterValue c ≤ columnLimit * 26 + 26 := by omega
          _ < Nat.pow 2 32 := by decide
      have hmul : mul? 32 n 26 = some (n * 26) := if_pos (by omega)
      have hadd : add? 32 (n * 26) (letterValue c) = some (n * 26 + letterValue c) := if_pos hbound
      have hsub : sub? (n * 26 + letterValue c) 1 = some (n * 26 + letterValue c - 1) :=
        if_pos hpos
      simp only [if_pos hc, hmul, letterValue?_eq hc, hadd, hsub, Option.bind_eq_bind,
        Option.bind_some]
      split
      · rfl
      · exact ih (by omega)
    · rw [if_neg hc, if_neg hc]

/-- In words the same column is read, or the same fault found, whatever the letters. -/
theorem columnOfLetters?_eq (letters : List Char) :
    columnOfLetters? letters = some (columnOfLetters letters) := by
  cases letters with
  | nil => rfl
  | cons c letters =>
    rw [columnOfLetters?, columnOfLetters, readLetters?_eq (Nat.zero_le _)]
    cases hread : readLetters 0 (c :: letters) with
    | error e => rfl
    | ok n =>
      obtain ⟨-, hnumber, hlimit⟩ := (readLetters_eq_ok_iff (Nat.zero_le _)).mp hread
      have hpos : 1 ≤ n := by
        rw [← hnumber, Nat.zero_mul, Nat.zero_add]
        exact lettersNumber_cons_pos c letters
      have hbits : columnLimit < Nat.pow 2 16 := by decide
      have hsub : sub? n 1 = some (n - 1) := if_pos hpos
      have hword : (n - 1) % Nat.pow 2 16 = n - 1 := Nat.mod_eq_of_lt (by omega)
      simp only [Option.bind_eq_bind, Option.bind_some, hsub, hword]
      rfl

end Word

/-! ### Texts of columns -/

/-- The text consists of ASCII letters, and their capitals are the letters of a column within the
limits of a sheet. -/
def SpellsColumn (s : String) (column : Nat) : Prop :=
  (∀ c ∈ s.toList, c.isAlpha = true) ∧ s.toUpper = columnLetters column ∧ column < columnLimit

/-- **Column letters.**  A text is read as a column just if it spells that column with ASCII letters
of either case, and all other texts are errors.  At any length, no number on the way goes beyond
its word of 32 bits or below zero, and the column has a word of 16 bits. -/
theorem columnOfLetters_decodes (s : String) :
    (∀ column, columnOfLetters s.toList = .ok column ↔ SpellsColumn s column) ∧
      ((∃ e, columnOfLetters s.toList = .error e) ↔ ∀ column, ¬ SpellsColumn s column) ∧
      Word.columnOfLetters? s.toList = some (columnOfLetters s.toList) := by
  have hdecodes : ∀ column, columnOfLetters s.toList = .ok column ↔ SpellsColumn s column := by
    intro column
    rw [columnOfLetters_eq_ok_iff, SpellsColumn, toUpper_eq_columnLetters_iff]
    constructor
    · rintro ⟨-, halpha, hnumber, hlimit⟩
      exact ⟨halpha, (lettersNumber_eq_iff halpha).mp hnumber, hlimit⟩
    · rintro ⟨halpha, hcapitals, hlimit⟩
      refine ⟨?_, halpha, (lettersNumber_eq_iff halpha).mpr hcapitals, hlimit⟩
      -- A column has letters.
      intro hnil
      simp [hnil, bijectiveLetters] at hcapitals
  refine ⟨hdecodes, ?_, Word.columnOfLetters?_eq _⟩
  simp only [← hdecodes]
  cases columnOfLetters s.toList <;> simp

/-- The last column within the limits, and the first one beyond them. -/
example : columnOfLetters "xFd".toList = .ok 16383 ∧
    columnOfLetters "XFE".toList = .error (.outside (.column 16384)) := by
  decide

end SheetRecords.Cell
