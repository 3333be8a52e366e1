import Mathlib.Data.List.TakeWhile
import SheetRecords.Cell.Reference
import SheetRecords.Proofs.Cell.Address

/-!
# References read back

A range is read back from its text just if both its corners lie within the limits of a sheet
(`Range.parse_text_iff`), and a reference just if its target is and its sheet, where it names one,
has a name that is not empty (`Reference.read_render_iff`).  The sheet name may be any other text: it
is either plain, and ends at the last exclamation mark, or quoted, and ends at the first quote that
is not doubled.  What is read never names a sheet with the empty name, so that it reads back.
-/

namespace SheetRecords.Cell

/-! ### Ranges -/

namespace Range

theorem ext_corners {r s : Range} (hfirst : r.first = s.first) (hlast : r.last = s.last) :
    r = s := by
  cases r
  cases s
  cases hfirst
  cases hlast
  rfl

/-- Both corners lie within the limits of a sheet. -/
def IsInside (r : Range) : Prop :=
  r.first.IsInside ∧ r.last.IsInside

theorem spanning_corners (r : Range) : spanning r.first r.last = r := by
  have hrows := r.rows_le
  have hcolumns := r.columns_le
  refine ext_corners ?_ ?_
  · show Address.mk _ _ = _
    rw [Nat.min_eq_left hrows, Nat.min_eq_left hcolumns]
  · show Address.mk _ _ = _
    rw [Nat.max_eq_right hrows, Nat.max_eq_right hcolumns]

theorem isInside_spanning {a b : Address} (ha : a.IsInside) (hb : b.IsInside) :
    (spanning a b).IsInside := by
  obtain ⟨har, hac⟩ := ha
  obtain ⟨hbr, hbc⟩ := hb
  refine ⟨⟨?_, ?_⟩, ?_, ?_⟩ <;> simp only [spanning] <;> omega

theorem single_eq_self {r : Range} (h : r.first = r.last) : single r.first = r :=
  ext_corners rfl h

/-- A text without a colon is read as a range of one cell. -/
theorem parse_of_colon_not_mem {s : String} (h : ':' ∉ Text.trimBlanks s.toList) {r : Range} :
    parse s = .ok r ↔
      ∃ a, Address.parse (String.ofList (Text.trimBlanks s.toList)) = .ok a ∧ single a = r := by
  have hdrop : (Text.trimBlanks s.toList).dropWhile (· != ':') = [] := by
    rw [List.dropWhile_eq_nil_iff]
    intro c hc
    have hne : c ≠ ':' := fun heq => h (heq ▸ hc)
    simpa using hne
  unfold parse
  dsimp only
  rw [hdrop]
  exact map_eq_ok_iff

/-- A text with a colon is read as a range if both parts around it are cells. -/
theorem parse_of_colon {s : String} {before after : List Char}
    (h : Text.trimBlanks s.toList = before ++ ':' :: after) (hbefore : ':' ∉ before) {r : Range} :
    parse s = .ok r ↔ ∃ a b, Address.parse (String.ofList before) = .ok a ∧
      Address.parse (String.ofList after) = .ok b ∧ spanning a b = r := by
  have hne : ∀ c ∈ before, (c != ':') = true := by
    intro c hc
    have hne : c ≠ ':' := fun heq => hbefore (heq ▸ hc)
    simpa using hne
  have htake : (before ++ ':' :: after).takeWhile (· != ':') = before := by
    rw [List.takeWhile_append_of_pos hne]
    simp
  have hdrop : (before ++ ':' :: after).dropWhile (· != ':') = ':' :: after := by
    rw [List.dropWhile_append_of_pos hne]
    simp
  unfold parse
  dsimp only
  rw [h, htake, hdrop]
  constructor
  · intro h
    obtain ⟨a, ha, h⟩ := exists_of_bind_eq_ok h
    obtain ⟨b, hb, h⟩ := exists_of_bind_eq_ok h
    exact ⟨a, b, mapError_eq_ok_iff.mp ha, mapError_eq_ok_iff.mp hb, Except.ok.inj h⟩
  · rintro ⟨a, b, ha, hb, rfl⟩
    dsimp only
    rw [ha, hb]
    rfl

/-- What is read as a range lies within the limits of a sheet. -/
theorem isInside_of_parse {s : String} {r : Range} (h : parse s = .ok r) : r.IsInside := by
  by_cases hcolon : ':' ∈ Text.trimBlanks s.toList
  · obtain ⟨before, after, hcs, hbefore⟩ := List.eq_append_cons_of_mem hcolon
    obtain ⟨a, b, ha, hb, rfl⟩ := (parse_of_colon hcs hbefore).mp h
    exact isInside_spanning (Address.isInside_of_parse ha) (Address.isInside_of_parse hb)
  · obtain ⟨a, ha, rfl⟩ := (parse_of_colon_not_mem hcolon).mp h
    exact ⟨Address.isInside_of_parse ha, Address.isInside_of_parse ha⟩

theorem colon_not_mem_text (a : Address) : ':' ∉ a.text.toList := fun h =>
  absurd (Address.isAlphanum_of_mem_text h) (by decide)

theorem isRangeChar_of_mem_text {r : Range} {c : Char} (hc : c ∈ r.text.toList) :
    c.isAlphanum = true ∨ c = ':' := by
  unfold text at hc
  split at hc
  · exact .inl (Address.isAlphanum_of_mem_text hc)
  · simp only [String.toList_append, List.mem_append] at hc
    rcases hc with (hc | hc) | hc
    · exact .inl (Address.isAlphanum_of_mem_text hc)
    · exact .inr (by simpa using hc)
    · exact .inl (Address.isAlphanum_of_mem_text hc)

theorem isBlank_of_mem_text {r : Range} {c : Char} (hc : c ∈ r.text.toList) :
    Text.isBlank c = false := by
  rcases isRangeChar_of_mem_text hc with h | rfl
  · exact Text.isBlank_of_isAlphanum h
  · decide

theorem trimBlanks_text (r : Range) : Text.trimBlanks r.text.toList = r.text.toList :=
  Text.trimBlanks_eq_self (fun _ hc => isBlank_of_mem_text (List.mem_of_mem_head? hc))
    fun _ hc => isBlank_of_mem_text (List.mem_of_mem_getLast? hc)

/-- A range is read back from its text just if both its corners lie within the limits. -/
theorem parse_text_iff {r : Range} : parse r.text = .ok r ↔ r.IsInside := by
  refine ⟨isInside_of_parse, fun ⟨hfirst, hlast⟩ => ?_⟩
  by_cases hcell : r.first = r.last
  · have htext : r.text = r.first.text := if_pos hcell
    have hcolon : ':' ∉ Text.trimBlanks r.first.text.toList := by
      rw [Address.trimBlanks_text]
      exact colon_not_mem_text _
    rw [htext, parse_of_colon_not_mem hcolon, Address.trimBlanks_text, String.ofList_toList]
    exact ⟨r.first, Address.parse_text_iff.mpr hfirst, single_eq_self hcell⟩
  · have htext : r.text = r.first.text ++ ":" ++ r.last.text := if_neg hcell
    have hcs : Text.trimBlanks r.text.toList = r.first.text.toList ++ ':' :: r.last.text.toList := by
      rw [trimBlanks_text, htext]
      simp
    rw [parse_of_colon hcs (colon_not_mem_text _), String.ofList_toList, String.ofList_toList]
    exact ⟨r.first, r.last, Address.parse_text_iff.mpr hfirst, Address.parse_text_iff.mpr hlast,
      spanning_corners r⟩

end Range

/-! ### Sheet names -/

theorem readQuoted_cons_of_ne {c : Char} (hc : c ≠ nameQuote) (rest : List Char) :
    readQuoted (c :: rest) = (readQuoted rest).map fun (name, after) => (c :: name, after) := by
  rw [readQuoted.eq_3 _ _ (fun rest h _ => hc h)]
  exact if_neg hc

theorem readQuoted_quote {after : List Char} (hafter : ∀ c ∈ after.head?, c ≠ nameQuote) :
    readQuoted (nameQuote :: after) = some ([], after) := by
  rw [readQuoted.eq_3 _ _ (fun rest _ h => hafter nameQuote (by simp [h]) rfl)]
  exact if_pos rfl

/-- A quoted name ends at the first quote that is not doubled. -/
theorem readQuoted_doubleQuotes (name : List Char) {after : List Char}
    (hafter : ∀ c ∈ after.head?, c ≠ nameQuote) :
    readQuoted (doubleQuotes name ++ nameQuote :: after) = some (name, after) := by
  induction name with
  | nil => exact readQuoted_quote hafter
  | cons c name ih =>
    by_cases hc : c = nameQuote
    · have hdouble : doubleQuotes (c :: name) = nameQuote :: nameQuote :: doubleQuotes name := by
        simp [doubleQuotes, hc]
      rw [hdouble, List.cons_append, List.cons_append, readQuoted, ih, hc]
      rfl
    · have hsingle : doubleQuotes (c :: name) = c :: doubleQuotes name := by
        simp [doubleQuotes, hc]
      rw [hsingle, List.cons_append, readQuoted_cons_of_ne hc, ih]
      rfl

theorem splitAtLastMark_of_not_mem {cs : List Char} (h : '!' ∉ cs) : splitAtLastMark cs = none := by
  induction cs with
  | nil => rfl
  | cons c cs ih =>
    rw [List.mem_cons, not_or] at h
    rw [splitAtLastMark, ih h.2]
    exact if_neg (Ne.symm h.1)

/-- A plain name ends at the last exclamation mark. -/
theorem splitAtLastMark_append (before : List Char) {after : List Char} (hafter : '!' ∉ after) :
    splitAtLastMark (before ++ '!' :: after) = some (before, after) := by
  induction before with
  | nil =>
    rw [List.nil_append, splitAtLastMark, splitAtLastMark_of_not_mem hafter]
    rfl
  | cons c before ih => rw [List.cons_append, splitAtLastMark, ih]

/-- What is written after a sheet name: no blanks, no exclamation marks, and no quote in front. -/
structure IsTargetText (target : String) : Prop where
  ne_nil : target.toList ≠ []
  isBlank_eq_false : ∀ c ∈ target.toList, Text.isBlank c = false
  mark_not_mem : '!' ∉ target.toList
  quote_not_mem : nameQuote ∉ target.toList

theorem Address.isTargetText_text (a : Address) : IsTargetText a.text where
  ne_nil := a.text_ne_nil
  isBlank_eq_false _ hc := Text.isBlank_of_isAlphanum (isAlphanum_of_mem_text hc)
  mark_not_mem h := absurd (isAlphanum_of_mem_text h) (by decide)
  quote_not_mem h := absurd (isAlphanum_of_mem_text h) (by decide)

theorem Range.isTargetText_text (r : Range) : IsTargetText r.text where
  ne_nil := by
    unfold text
    split
    · exact r.first.text_ne_nil
    · simp
  isBlank_eq_false _ hc := isBlank_of_mem_text hc
  mark_not_mem h := absurd (isRangeChar_of_mem_text h) (by decide)
  quote_not_mem h := absurd (isRangeChar_of_mem_text h) (by decide)

/-- A text without a sheet name is left as it is. -/
theorem splitSheet_target {target : String} (h : IsTargetText target) :
    splitSheet target = .ok (none, target) := by
  have htrim : Text.trimBlanks target.toList = target.toList :=
    Text.trimBlanks_eq_self (fun _ hc => h.isBlank_eq_false _ (List.mem_of_mem_head? hc))
      fun _ hc => h.isBlank_eq_false _ (List.mem_of_mem_getLast? hc)
  unfold splitSheet
  dsimp only
  rw [htrim, splitAtLastMark_of_not_mem h.mark_not_mem]
  split
  · next quoted hquoted => exact absurd (by simp [hquoted]) h.quote_not_mem
  · simp

/-- The blanks within a sheet name do not stand at the ends of a reference. -/
theorem trimBlanks_append_target {target : String} (h : IsTargetText target) {cs : List Char}
    (hne : cs ≠ []) (hhead : ∀ c ∈ cs.head?, Text.isBlank c = false) :
    Text.trimBlanks (cs ++ '!' :: target.toList) = cs ++ '!' :: target.toList := by
  refine Text.trimBlanks_eq_self (fun c hc => ?_) fun c hc => ?_
  · rw [List.head?_append_of_ne_nil _ hne] at hc
    exact hhead c hc
  · rw [List.getLast?_append_of_ne_nil _ (by simp), List.getLast?_cons_of_ne_nil h.ne_nil] at hc
    exact h.isBlank_eq_false c (List.mem_of_mem_getLast? hc)

theorem isBlank_of_isPlainNameChar {c : Char} (h : isPlainNameChar c = true) :
    Text.isBlank c = false := by
  simp only [isPlainNameChar, Bool.or_eq_true, beq_iff_eq] at h
  rcases h with (h | rfl) | rfl
  · exact Text.isBlank_of_isAlphanum h
  · decide
  · decide

theorem splitSheet_plain {target : String} (h : IsTargetText target) {name : List Char}
    (hname : name ≠ []) (hplain : ∀ c ∈ name, isPlainNameChar c = true) {s : String}
    (hs : s.toList = name ++ '!' :: target.toList) :
    splitSheet s = .ok (some (String.ofList name), target) := by
  have hhead : ∀ c ∈ name.head?, Text.isBlank c = false := fun c hc =>
    isBlank_of_isPlainNameChar (hplain c (List.mem_of_mem_head? hc))
  unfold splitSheet
  dsimp only
  rw [hs, trimBlanks_append_target h hname hhead]
  split
  · next quoted hquoted =>
    -- A plain name does not begin with a quote.
    have hquote : nameQuote ∈ name.head? := by
      rw [← List.head?_append_of_ne_nil name hname, hquoted]
      rfl
    exact absurd (hplain _ (List.mem_of_mem_head? hquote)) (by decide)
  · rw [splitAtLastMark_append name h.mark_not_mem]
    cases name with
    | nil => exact absurd rfl hname
    | cons c name => simp

theorem splitSheet_quoted {target : String} (h : IsTargetText target) (name : List Char) {s : String}
    (hs : s.toList = nameQuote :: doubleQuotes name ++ [nameQuote] ++ '!' :: target.toList) :
    splitSheet s =
      if name.isEmpty then .error (.noMark s) else .ok (some (String.ofList name), target) := by
  have hhead : ∀ c ∈ (nameQuote :: doubleQuotes name ++ [nameQuote]).head?,
      Text.isBlank c = false := by
    intro c hc
    obtain rfl : nameQuote = c := by simpa using hc
    decide
  have htrim : Text.trimBlanks s.toList = s.toList := by
    rw [hs, trimBlanks_append_target h (by simp) hhead]
  have hread : readQuoted (doubleQuotes name ++ nameQuote :: '!' :: target.toList) =
      some (name, '!' :: target.toList) :=
    readQuoted_doubleQuotes name fun c hc => by
      obtain rfl : '!' = c := by simpa using hc
      decide
  unfold splitSheet
  dsimp only
  rw [htrim, String.ofList_toList, hs, List.append_assoc, List.singleton_append]
  unfold nameQuote at hread ⊢
  rw [List.cons_append]
  simp only [hread, String.ofList_toList]

/-- A sheet name is told apart from what is written after it, unless it is empty. -/
theorem splitSheet_quoteSheet {target : String} (h : IsTargetText target) (name : String) :
    splitSheet (quoteSheet name ++ "!" ++ target) =
      if name = "" then .error (.noMark (quoteSheet name ++ "!" ++ target))
      else .ok (some name, target) := by
  by_cases hplain : (!name.isEmpty && name.toList.all isPlainNameChar) = true
  · have hquote : quoteSheet name = name := if_pos hplain
    simp only [Bool.and_eq_true, Bool.not_eq_true', List.all_eq_true] at hplain
    obtain ⟨hname, hplain⟩ := hplain
    have hname : name ≠ "" := by simpa using hname
    rw [if_neg hname, hquote, splitSheet_plain h (by simpa using hname) hplain (by simp),
      String.ofList_toList]
  · have hquote : quoteSheet name =
        String.ofList (nameQuote :: doubleQuotes name.toList ++ [nameQuote]) := if_neg hplain
    rw [splitSheet_quoted h name.toList (by simp [hquote]), String.ofList_toList]
    by_cases hname : name = ""
    · rw [if_pos hname, if_pos (by simp [hname])]
    · rw [if_neg hname, if_neg (by simpa using hname)]

/-- No text is read as naming a sheet with the empty name. -/
theorem ne_empty_of_splitSheet {s name rest : String} (h : splitSheet s = .ok (some name, rest)) :
    name ≠ "" := by
  unfold splitSheet at h
  dsimp only at h
  split at h
  · split at h
    · cases h
    · next name' rest' hread =>
      split at h
      · cases h
      · next hempty =>
        obtain rfl : String.ofList name' = name :=
          Option.some.inj (congrArg Prod.fst (Except.ok.inj h))
        simpa using hempty
    · cases h
  · split at h
    · cases h
    · cases h
    · next name' rest' hempty hsplit =>
      obtain rfl : String.ofList name' = name :=
        Option.some.inj (congrArg Prod.fst (Except.ok.inj h))
      intro hname
      exact hempty (by simpa using hname)

/-! ### References -/

namespace Reference

variable {α : Type} {targetText : α → String} {readTarget : String → Except ReferenceError α}

/-- A reference is read back from its text just if its target is and its sheet is not the empty
name. -/
theorem read_render_iff {r : Reference α} (h : IsTargetText (targetText r.target)) :
    read readTarget (render targetText r) = .ok r ↔
      r.sheet ≠ some "" ∧ readTarget (targetText r.target) = .ok r.target := by
  obtain ⟨sheet, target⟩ := r
  cases sheet with
  | none =>
    show read readTarget (targetText target) = _ ↔ _
    unfold read
    rw [splitSheet_target h]
    show Reference.mk none <$> readTarget (targetText target) = _ ↔ _
    rw [map_eq_ok_iff]
    simp
  | some name =>
    show read readTarget (quoteSheet name ++ "!" ++ targetText target) = _ ↔ _
    unfold read
    rw [splitSheet_quoteSheet h]
    by_cases hname : name = ""
    · rw [if_pos hname]
      simp [hname, bind, Except.bind]
    · rw [if_neg hname]
      show Reference.mk (some name) <$> readTarget (targetText target) = _ ↔ _
      rw [map_eq_ok_iff]
      simp [hname]

/-- What is read as a reference does not name a sheet with the empty name, and its target is read as
well. -/
theorem of_read {s : String} {r : Reference α} (h : read readTarget s = .ok r) :
    r.sheet ≠ some "" ∧ ∃ rest, readTarget rest = .ok r.target := by
  obtain ⟨⟨sheet, rest⟩, hsplit, h⟩ := exists_of_bind_eq_ok h
  obtain ⟨target, htarget, h⟩ := exists_of_bind_eq_ok h
  obtain rfl := Except.ok.inj h
  refine ⟨?_, rest, htarget⟩
  rintro rfl
  exact ne_empty_of_splitSheet hsplit rfl

end Reference

theorem CellReference.parse_text_iff {r : CellReference} :
    CellReference.parse r.text = .ok r ↔ r.sheet ≠ some "" ∧ r.target.IsInside :=
  (Reference.read_render_iff r.target.isTargetText_text).trans
    (and_congr_right fun _ => Address.parse_text_iff)

theorem RangeReference.parse_text_iff {r : RangeReference} :
    RangeReference.parse r.text = .ok r ↔ r.sheet ≠ some "" ∧ r.target.IsInside :=
  (Reference.read_render_iff r.target.isTargetText_text).trans
    (and_congr_right fun _ => Range.parse_text_iff)

theorem CellReference.isInside_of_parse {s : String} {r : CellReference}
    (h : CellReference.parse s = .ok r) : r.sheet ≠ some "" ∧ r.target.IsInside := by
  obtain ⟨hsheet, rest, htarget⟩ := Reference.of_read h
  exact ⟨hsheet, Address.isInside_of_parse htarget⟩

theorem RangeReference.isInside_of_parse {s : String} {r : RangeReference}
    (h : RangeReference.parse s = .ok r) : r.sheet ≠ some "" ∧ r.target.IsInside := by
  obtain ⟨hsheet, rest, htarget⟩ := Reference.of_read h
  exact ⟨hsheet, Range.isInside_of_parse htarget⟩

/-- What is read as a reference to a cell is read back from its text. -/
theorem CellReference.parse_text_of_parse {s : String} {r : CellReference}
    (h : CellReference.parse s = .ok r) : CellReference.parse r.text = .ok r :=
  CellReference.parse_text_iff.mpr (CellReference.isInside_of_parse h)

theorem RangeReference.parse_text_of_parse {s : String} {r : RangeReference}
    (h : RangeReference.parse s = .ok r) : RangeReference.parse r.text = .ok r :=
  RangeReference.parse_text_iff.mpr (RangeReference.isInside_of_parse h)

/-- A coordinate is read as a reference that must name its sheet. -/
theorem Coordinate.parse_eq_ok_iff {s : String} {c : Coordinate} :
    parse s = .ok c ↔ CellReference.parse s = .ok ⟨some c.sheet, c.address⟩ := by
  unfold parse CellReference.parse Reference.read
  cases hsplit : splitSheet s with
  | error e => simp [bind, Except.bind]
  | ok p =>
    obtain ⟨sheet, rest⟩ := p
    cases sheet with
    | none =>
      show (.error _ : Except _ _) = _ ↔ Reference.mk none <$> Address.parse rest = _
      rw [map_eq_ok_iff]
      simp
    | some name =>
      show Coordinate.mk name <$> Address.parse rest = _ ↔
        Reference.mk (some name) <$> Address.parse rest = _
      rw [map_eq_ok_iff, map_eq_ok_iff]
      cases c
      simp

/-- **References are read back from their texts.**  A coordinate is read back just if its sheet has a
name that is not empty and its cell lies within the limits of a sheet; so are a reference to a cell
and one to a range, which need not name a sheet.  The name may hold any characters.  What is read
from any text as one of the three is read back from its own text. -/
theorem references_read_back :
    (∀ c : Coordinate, Coordinate.parse c.text = .ok c ↔ c.sheet ≠ "" ∧ c.address.IsInside) ∧
      (∀ r : CellReference,
        CellReference.parse r.text = .ok r ↔ r.sheet ≠ some "" ∧ r.target.IsInside) ∧
      (∀ r : RangeReference,
        RangeReference.parse r.text = .ok r ↔ r.sheet ≠ some "" ∧ r.target.IsInside) ∧
      (∀ s c, Coordinate.parse s = .ok c → Coordinate.parse c.text = .ok c) ∧
      (∀ s r, CellReference.parse s = .ok r → CellReference.parse r.text = .ok r) ∧
      ∀ s r, RangeReference.parse s = .ok r → RangeReference.parse r.text = .ok r := by
  refine ⟨fun c => ?_, fun r => CellReference.parse_text_iff, fun r => RangeReference.parse_text_iff,
    fun s c h => ?_, fun s r h => CellReference.parse_text_of_parse h,
    fun s r h => RangeReference.parse_text_of_parse h⟩
  · rw [Coordinate.parse_eq_ok_iff, Coordinate.text, CellReference.parse_text_iff]
    simp
  · have hread := CellReference.parse_text_of_parse (Coordinate.parse_eq_ok_iff.mp h)
    exact Coordinate.parse_eq_ok_iff.mpr hread

/-- A name with a quote, a mark and a blank in front, a name that is a quote, and a range from its
lower right corner. -/
theorem references_read_back_quoted :
    Coordinate.parse " ' It''s!'!$b$3 " = .ok ⟨" It's!", ⟨2, 1⟩⟩ ∧
      CellReference.parse "''''!A1" = .ok ⟨some "'", ⟨0, 0⟩⟩ ∧
      RangeReference.parse "a!b!C3:a1" = .ok ⟨some "a!b", .spanning ⟨0, 0⟩ ⟨2, 2⟩⟩ ∧
      Coordinate.parse (Coordinate.text ⟨" It's!", ⟨2, 1⟩⟩) = .ok ⟨" It's!", ⟨2, 1⟩⟩ ∧
      CellReference.parse (CellReference.text ⟨some "'", ⟨0, 0⟩⟩) = .ok ⟨some "'", ⟨0, 0⟩⟩ ∧
      RangeReference.parse (RangeReference.text ⟨some "a!b", .spanning ⟨0, 0⟩ ⟨2, 2⟩⟩) =
        .ok ⟨some "a!b", .spanning ⟨0, 0⟩ ⟨2, 2⟩⟩ := by
  have hcoordinate : Coordinate.parse " ' It''s!'!$b$3 " = .ok ⟨" It's!", ⟨2, 1⟩⟩ := by
    decide +kernel
  have hcell : CellReference.parse "''''!A1" = .ok ⟨some "'", ⟨0, 0⟩⟩ := by decide +kernel
  have hrange : RangeReference.parse "a!b!C3:a1" = .ok ⟨some "a!b", .spanning ⟨0, 0⟩ ⟨2, 2⟩⟩ := by
    decide +kernel
  obtain ⟨-, -, -, hcoordinates, hcells, hranges⟩ := references_read_back
  exact ⟨hcoordinate, hcell, hrange, hcoordinates _ _ hcoordinate, hcells _ _ hcell,
    hranges _ _ hrange⟩

end SheetRecords.Cell
