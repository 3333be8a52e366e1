import Mathlib.Algebra.Group.Nat.Defs
import SheetRecords.Cell.Address
import SheetRecords.Proofs.Except

/-!
# Addresses read back

An address within the limits of a sheet is read back from its text, and no text is read as an
address beyond them (`Address.parse_text_iff`).  The letters of a column are read by the recursion
that writes them, a row number by its digits; what may stand around them in a text that is read,
blanks and dollar signs, is never written.
-/

namespace SheetRecords

namespace Text

/-- Nothing is trimmed from a list that neither begins nor ends with a blank. -/
theorem trimBlanks_eq_self {cs : List Char} (hhead : ∀ c ∈ cs.head?, isBlank c = false)
    (hlast : ∀ c ∈ cs.getLast?, isBlank c = false) : trimBlanks cs = cs := by
  have hdrop : ∀ l : List Char, (∀ c ∈ l.head?, isBlank c = false) → l.dropWhile isBlank = l := by
    intro l hl
    cases l with
    | nil => rfl
    | cons c l => rw [List.dropWhile_cons_of_neg (by simp [hl c rfl])]
  unfold trimBlanks
  rw [hdrop cs hhead, hdrop cs.reverse (by simpa using hlast), List.reverse_reverse]

theorem isBlank_of_isAlphanum {c : Char} (h : c.isAlphanum = true) : isBlank c = false := by
  delta Char.isAlphanum Char.isAlpha Char.isUpper Char.isLower Char.isDigit at h
  simp [UInt32.le_iff_toNat_le, isBlank, blankCodePoints] at h ⊢
  omega

theorem isAlpha_of_isDigit {c : Char} (h : c.isDigit = true) : c.isAlpha = false := by
  delta Char.isDigit at h
  delta Char.isAlpha Char.isUpper Char.isLower
  simp [UInt32.le_iff_toNat_le] at h ⊢
  omega

end Text

namespace Cell

/-! ### Column letters -/

/-- What is said of the 26 capitals one by one. -/
theorem capital_spec : ∀ k : Fin 26, (Char.ofNat ('A'.toNat + k)).isAlpha = true ∧
    letterValue (Char.ofNat ('A'.toNat + k)) = k + 1 ∧ Char.ofNat ('A'.toNat + k) ≠ '$' := by
  decide

theorem exists_of_mem_bijectiveLetters {n : Nat} {c : Char} (hc : c ∈ bijectiveLetters n) :
    ∃ k : Fin 26, c = Char.ofNat ('A'.toNat + k) := by
  induction n using bijectiveLetters.induct with
  | case1 => simp [bijectiveLetters] at hc
  | case2 n ih =>
    rw [bijectiveLetters, List.mem_append, List.mem_singleton] at hc
    rcases hc with hc | rfl
    · exact ih hc
    · exact ⟨⟨n % 26, Nat.mod_lt n (by decide)⟩, rfl⟩

theorem readLetters_append (n : Nat) (cs ds : List Char) :
    readLetters n (cs ++ ds) = readLetters n cs >>= (readLetters · ds) := by
  induction cs generalizing n with
  | nil => rfl
  | cons c cs ih =>
    simp only [List.cons_append, readLetters]
    split
    · split
      · rfl
      · exact ih _
    · rfl

/-- Letters are read as the number that they were written for. -/
theorem readLetters_bijectiveLetters {n : Nat} (hn : n ≤ columnLimit) :
    readLetters 0 (bijectiveLetters n) = .ok n := by
  induction n using bijectiveLetters.induct with
  | case1 => simp [bijectiveLetters, readLetters]
  | case2 n ih =>
    obtain ⟨halpha, hvalue, -⟩ := capital_spec ⟨n % 26, Nat.mod_lt n (by decide)⟩
    have hnext : n / 26 * 26 + (n % 26 + 1) = n + 1 := by omega
    rw [bijectiveLetters, readLetters_append, ih (by omega)]
    show readLetters (n / 26) [_] = _
    rw [readLetters, if_pos halpha]
    simp only [hvalue, hnext]
    rw [if_neg (by omega)]
    rfl

theorem columnOfLetters_of_ne_nil {letters : List Char} (h : letters ≠ []) :
    columnOfLetters letters = (· - 1) <$> readLetters 0 letters := by
  cases letters with
  | nil => exact absurd rfl h
  | cons c letters => rfl

theorem columnOfLetters_bijectiveLetters {column : Nat} (h : column < columnLimit) :
    columnOfLetters (bijectiveLetters (column + 1)) = .ok column := by
  rw [columnOfLetters_of_ne_nil (by simp [bijectiveLetters]), readLetters_bijectiveLetters h]
  rfl

theorem le_of_readLetters {n m : Nat} {cs : List Char} (hn : n ≤ columnLimit)
    (h : readLetters n cs = .ok m) : m ≤ columnLimit := by
  induction cs generalizing n with
  | nil =>
    obtain rfl := Except.ok.inj h
    exact hn
  | cons c cs ih =>
    simp only [readLetters] at h
    split at h
    · split at h
      · cases h
      · exact ih (by omega) h
    · cases h

theorem lt_of_columnOfLetters {letters : List Char} {column : Nat}
    (h : columnOfLetters letters = .ok column) : column < columnLimit := by
  by_cases hnil : letters = []
  · rw [hnil] at h
    cases h
  rw [columnOfLetters_of_ne_nil hnil] at h
  cases hread : readLetters 0 letters with
  | error e =>
    rw [hread] at h
    cases h
  | ok m =>
    rw [hread] at h
    have hm : m ≤ columnLimit := le_of_readLetters (Nat.zero_le _) hread
    have hcolumn : m - 1 = column := Except.ok.inj h
    have hlimit : 0 < columnLimit := by decide
    omega

/-! ### Row numbers -/

/-- The digits of a number are read as that number. -/
theorem Address.rowNumber?_toDigits {n : Nat} (h : n < 2 ^ 32) :
    rowNumber? (Nat.toDigits 10 n) = some n := by
  have hdigits : ∀ c ∈ Nat.toDigits 10 n, c.isDigit = true := fun c hc =>
    Nat.isDigit_of_mem_toDigits (by decide) (by decide) hc
  have hall : (Nat.toDigits 10 n).all Char.isDigit = true := List.all_eq_true.mpr hdigits
  unfold rowNumber?
  split
  · next rest hplus => exact absurd (hdigits '+' (by simp [hplus])) (by decide)
  · dsimp only
    rw [if_neg (by simp [hall]), Nat.ofDigitChars_ten_toDigits]
    exact if_pos h

namespace Address

/-- The address lies within the limits of a sheet. -/
def IsInside (a : Address) : Prop :=
  a.row < rowLimit ∧ a.column < columnLimit

/-- What is read as an address: letters of a column and the number of a row, each after a dollar
sign or without one. -/
theorem parse_eq_ok_iff {s : String} {a : Address} :
    parse s = .ok a ↔
      let cs := dropDollar (Text.trimBlanks s.toList)
      columnOfLetters (cs.takeWhile Char.isAlpha) = .ok a.column ∧
        rowNumber? (dropDollar (cs.dropWhile Char.isAlpha)) = some (a.row + 1) ∧
        a.row < rowLimit := by
  unfold parse
  dsimp only
  generalize Text.trimBlanks s.toList = cs
  constructor
  · intro h
    split at h
    · cases h
    split at h
    · cases h
    obtain ⟨column, hcolumn, h⟩ := exists_of_bind_eq_ok h
    split at h
    · cases h
    split at h
    · cases h
    · cases h
    · next row hrow =>
      split at h
      · cases h
      · next hlimit =>
        obtain rfl := Except.ok.inj h
        exact ⟨hcolumn, hrow, Nat.lt_of_not_le hlimit⟩
  · rintro ⟨hcolumn, hrow, hlimit⟩
    have hletters : (dropDollar cs).takeWhile Char.isAlpha ≠ [] := by
      intro hnil
      rw [hnil] at hcolumn
      cases hcolumn
    have hdigits : dropDollar ((dropDollar cs).dropWhile Char.isAlpha) ≠ [] := by
      intro hnil
      rw [hnil] at hrow
      cases hrow
    have hcs : cs ≠ [] := by
      rintro rfl
      exact hletters rfl
    rw [if_neg (by simpa using hcs), if_neg (by simpa using hletters), hcolumn]
    show (if _ then _ else _) = _
    rw [if_neg (by simpa using hdigits), hrow]
    show (if _ then _ else _) = _
    rw [if_neg (by omega)]
    rfl

/-- The letters and the digits of an address, as they are told apart. -/
theorem toList_text (a : Address) :
    a.text.toList = bijectiveLetters (a.column + 1) ++ Nat.toDigits 10 (a.row + 1) := by
  rw [text, columnLetters, String.toList_append, String.toList_ofList, Nat.toString_eq_repr,
    Nat.toList_repr]

theorem isInside_of_parse {s : String} {a : Address} (h : parse s = .ok a) : a.IsInside := by
  obtain ⟨hcolumn, -, hrow⟩ := parse_eq_ok_iff.mp h
  exact ⟨hrow, lt_of_columnOfLetters hcolumn⟩

/-- The text of an address has letters and digits only. -/
theorem isAlphanum_of_mem_text {a : Address} {c : Char} (hc : c ∈ a.text.toList) :
    c.isAlphanum = true := by
  rw [toList_text, List.mem_append] at hc
  rw [Char.isAlphanum, Bool.or_eq_true]
  rcases hc with hc | hc
  · obtain ⟨k, rfl⟩ := exists_of_mem_bijectiveLetters hc
    exact .inl (capital_spec k).1
  · exact .inr (Nat.isDigit_of_mem_toDigits (by decide) (by decide) hc)

theorem text_ne_nil (a : Address) : a.text.toList ≠ [] := by
  simp [toList_text, bijectiveLetters]

theorem trimBlanks_text (a : Address) : Text.trimBlanks a.text.toList = a.text.toList :=
  Text.trimBlanks_eq_self
    (fun _ hc => Text.isBlank_of_isAlphanum (isAlphanum_of_mem_text (List.mem_of_mem_head? hc)))
    fun _ hc => Text.isBlank_of_isAlphanum (isAlphanum_of_mem_text (List.mem_of_mem_getLast? hc))

theorem dropDollar_eq_self {cs : List Char} (h : ∀ c ∈ cs.head?, c ≠ '$') : dropDollar cs = cs := by
  unfold dropDollar
  split
  · exact absurd rfl (h '$' rfl)
  · rfl

/-- The letters and the digits of an address are told apart by the first digit. -/
theorem span_text (a : Address) :
    a.text.toList.takeWhile Char.isAlpha = bijectiveLetters (a.column + 1) ∧
      a.text.toList.dropWhile Char.isAlpha = Nat.toDigits 10 (a.row + 1) := by
  have hletters : ∀ c ∈ bijectiveLetters (a.column + 1), c.isAlpha = true := by
    intro c hc
    obtain ⟨k, rfl⟩ := exists_of_mem_bijectiveLetters hc
    exact (capital_spec k).1
  have hdigits : ∀ c ∈ Nat.toDigits 10 (a.row + 1), c.isAlpha = false := by
    intro c hc
    exact Text.isAlpha_of_isDigit (Nat.isDigit_of_mem_toDigits (by decide) (by decide) hc)
  rw [toList_text, List.takeWhile_append_of_pos hletters, List.dropWhile_append_of_pos hletters]
  cases hrow : Nat.toDigits 10 (a.row + 1) with
  | nil => simp
  | cons c cs =>
    have hc : c.isAlpha = false := hdigits c (by simp [hrow])
    simp [hc]

/-- An address is read back from its text just if it lies within the limits. -/
theorem parse_text_iff {a : Address} : parse a.text = .ok a ↔ a.IsInside := by
  refine ⟨isInside_of_parse, fun ⟨hrow, hcolumn⟩ => parse_eq_ok_iff.mpr ?_⟩
  have hcolumnText : dropDollar a.text.toList = a.text.toList := by
    refine dropDollar_eq_self fun c hc => ?_
    rw [toList_text, List.head?_append_of_ne_nil _ (by simp [bijectiveLetters])] at hc
    obtain ⟨k, rfl⟩ := exists_of_mem_bijectiveLetters (List.mem_of_mem_head? hc)
    exact (capital_spec k).2.2
  have hrowText : dropDollar (Nat.toDigits 10 (a.row + 1)) = Nat.toDigits 10 (a.row + 1) := by
    refine dropDollar_eq_self fun c hc => ?_
    rintro rfl
    exact absurd (Nat.isDigit_of_mem_toDigits (by decide) (by decide) (List.mem_of_mem_head? hc))
      (by decide)
  obtain ⟨hletters, hdigits⟩ := span_text a
  show columnOfLetters ((dropDollar (Text.trimBlanks a.text.toList)).takeWhile _) = _ ∧
    rowNumber? (dropDollar ((dropDollar (Text.trimBlanks a.text.toList)).dropWhile _)) = _ ∧ _
  rw [trimBlanks_text, hcolumnText, hletters, hdigits, hrowText]
  have hbits : rowLimit < 2 ^ 32 := by decide
  exact ⟨columnOfLetters_bijectiveLetters hcolumn, rowNumber?_toDigits (by omega), hrow⟩

end Address

end Cell

end SheetRecords
