import Mathlib.Data.List.TakeWhile
import SheetRecords.Json.Printer
import SheetRecords.Proofs.Except
import SheetRecords.Proofs.Json.Number
import SheetRecords.Proofs.Text.Utf8

/-!
# Tokens read back

A text is read back from between its quotes (`readText_quote`): what is written of a character is
read as that character, whether it is escaped or not (`readText_escape`).  A natural number of 64
bits is read back from its digits (`Number.readsBack_natural`), and a number ends where nothing
follows that it goes on with (`readNumber_append`).

So a stretch of text has tokens of its own whatever comes after it (`Scans`), as long as a number at
its end is not gone on with, and the tokens of stretches that follow each other are put together
(`Scans.append_mark`, `Scans.intercalate`).  The numbers among the tokens of any text are sound
(`isSound_of_mem_tokens`).
-/

namespace SheetRecords.Json

open Text.Utf8

/-! ### Bytes as characters -/

/-- The bytes of a text, each as the character with its number. -/
def chars (s : String) : List Char :=
  (encode s).map byteChar

theorem splitChar_eq (c : Char) : splitChar c = (encodeChar c).map byteChar := by
  rw [splitChar, String.singleton_eq_ofList, encode_ofList, List.flatMap_singleton]

theorem chars_append (s t : String) : chars (s ++ t) = chars s ++ chars t := by
  rw [chars, encode_append, List.map_append]
  rfl

theorem chars_ofList (cs : List Char) : chars (String.ofList cs) = cs.flatMap splitChar := by
  rw [chars, encode_ofList, List.map_flatMap]
  exact List.flatMap_congr fun c _ => (splitChar_eq c).symm

theorem toNat_byteChar (b : UInt8) : (byteChar b).toNat = b.toNat := by
  have hvalid : b.toNat.isValidChar := .inl (Nat.lt_trans b.toNat_lt (by decide))
  rw [byteChar, Char.ofNat, dif_pos hvalid]
  rfl

theorem toUInt8_byteChar (b : UInt8) : (byteChar b).toUInt8 = b := by
  refine UInt8.toNat_inj.mp ?_
  show (byteChar b).toNat % 2 ^ 8 = b.toNat
  rw [toNat_byteChar, Nat.mod_eq_of_lt b.toNat_lt]

theorem splitChar_of_lt {c : Char} (h : c.toNat < 0x80) : splitChar c = [c] := by
  have hbyte : (UInt8.ofNat c.toNat).toNat = c.toNat := by
    rw [UInt8.toNat_ofNat', Nat.mod_eq_of_lt (by omega)]
  rw [splitChar_eq, encodeChar_of_lt h, List.map_singleton, byteChar, hbyte, Char.ofNat_toNat]

theorem flatMap_splitChar {cs : List Char} (h : ∀ c ∈ cs, c.toNat < 0x80) :
    cs.flatMap splitChar = cs := by
  rw [List.flatMap_congr fun c hc => splitChar_of_lt (h c hc), List.flatMap_singleton']

/-- What is between quotes is put together again. -/
theorem joinBytes_flatMap (cs : List Char) :
    joinBytes (cs.flatMap splitChar) = .ok (String.ofList cs) := by
  have hbytes : (cs.flatMap splitChar).map Char.toUInt8 = cs.flatMap encodeChar := by
    rw [List.map_flatMap]
    refine List.flatMap_congr fun c _ => ?_
    rw [splitChar_eq, List.map_map]
    exact (List.map_congr_left fun b _ => toUInt8_byteChar b).trans (List.map_id _)
  rw [joinBytes, hbytes, decode_flatMap]

/-! ### Texts -/

/-- A character that stands for itself between quotes. -/
def IsPlain (c : Char) : Prop :=
  c ≠ '"' ∧ c ≠ '\\' ∧ 0x20 ≤ c.toNat

theorem readText_cons_plain {c : Char} (h : IsPlain c) (done rest : List Char) :
    readText done (c :: rest) = readText (c :: done) rest := by
  obtain ⟨hquote, hescape, hlow⟩ := h
  rw [readText.eq_7 _ _ _ hquote (fun _ _ _ _ _ h _ => hescape h) (fun _ h _ => hescape h)
    (fun h _ => hescape h) (fun _ _ h _ => hescape h), if_neg (Nat.not_lt.mpr hlow)]

theorem readText_plain {cs : List Char} (h : ∀ c ∈ cs, IsPlain c) (done tail : List Char) :
    readText done (cs ++ tail) = readText (cs.reverse ++ done) tail := by
  induction cs generalizing done with
  | nil => rfl
  | cons c cs ih =>
    obtain ⟨hc, hcs⟩ := List.forall_mem_cons.mp h
    rw [List.cons_append, readText_cons_plain hc, ih hcs, List.reverse_cons, List.append_assoc,
      List.singleton_append]

theorem isPlain_of_mem_splitChar {c : Char} (h : IsPlain c) {d : Char} (hd : d ∈ splitChar c) :
    IsPlain d := by
  by_cases hlt : c.toNat < 0x80
  · rw [splitChar_of_lt hlt, List.mem_singleton] at hd
    exact hd ▸ h
  · rw [splitChar_eq] at hd
    obtain ⟨b, hb, rfl⟩ := List.mem_map.mp hd
    have hle := le_toNat_of_mem_encodeChar (Nat.le_of_not_lt hlt) hb
    rw [← toNat_byteChar b] at hle
    refine ⟨?_, ?_, by omega⟩ <;> intro heq <;> rw [heq] at hle <;> revert hle <;> decide

theorem readText_escaped {c d : Char} (h : escaped? c = some d) (done tail : List Char) :
    readText done ('\\' :: c :: tail) = readText (d :: done) tail := by
  have hne : c ≠ 'u' := by
    rintro rfl
    cases h
  rw [readText.eq_6 _ _ _ (fun _ _ _ _ _ h _ => hne h) hne, h]

theorem hexDigit?_hexChar {n : Nat} (h : n < 16) : hexDigit? (hexChar n) = some n := by
  revert n
  decide

theorem toNat_hexChar_lt {n : Nat} (h : n < 16) : (hexChar n).toNat < 0x80 := by
  revert n
  decide

/-- A control character is read back from its code. -/
theorem readText_code {c : Char} (h : c.toNat < 0x20) (done tail : List Char) :
    readText done
        ('\\' :: 'u' :: '0' :: '0' :: hexChar (c.toNat / 16) :: hexChar (c.toNat % 16) :: tail) =
      readText ((splitChar c).reverse ++ done) tail := by
  have hword : hexWord? '0' '0' (hexChar (c.toNat / 16)) (hexChar (c.toNat % 16)) =
      some c.toNat := by
    have hzero : hexDigit? '0' = some 0 := by decide
    unfold hexWord?
    rw [hzero, hexDigit?_hexChar (by omega), hexDigit?_hexChar (by omega)]
    show some _ = some _
    congr 1
    omega
  have hlow : isLowHalf c.toNat = false := by unfold isLowHalf; simp; omega
  have hhigh : isHighHalf c.toNat = false := by unfold isHighHalf; simp; omega
  rw [readText, hword]
  simp only [hlow, hhigh, Bool.false_eq_true, if_false, Char.ofNat_toNat]

/-- What is written of a character is read as that character. -/
theorem readText_escape (c : Char) (done tail : List Char) :
    readText done ((escape c).flatMap splitChar ++ tail) =
      readText ((splitChar c).reverse ++ done) tail := by
  have hescaped {c d : Char} (h : escaped? c = some d) (hc : c.toNat < 0x80) (hd : d.toNat < 0x80) :
      readText done (['\\', c].flatMap splitChar ++ tail) =
        readText ((splitChar d).reverse ++ done) tail := by
    rw [flatMap_splitChar (by simpa using hc), splitChar_of_lt hd]
    exact readText_escaped h done tail
  unfold escape
  split
  case h_8 hquote hslash _ _ _ _ _ =>
    split
    · next hlow =>
      have hascii : ∀ d ∈ ['\\', 'u', '0', '0', hexChar (c.toNat / 16), hexChar (c.toNat % 16)],
          d.toNat < 0x80 := by
        have hhigh := toNat_hexChar_lt (n := c.toNat / 16) (by omega)
        have hlow := toNat_hexChar_lt (n := c.toNat % 16) (by omega)
        simp [hhigh, hlow]
      rw [flatMap_splitChar hascii]
      exact readText_code hlow done tail
    · next hlow =>
      rw [List.flatMap_singleton]
      have hplain : IsPlain c := ⟨hquote, hslash, Nat.le_of_not_lt hlow⟩
      exact readText_plain (fun _ => isPlain_of_mem_splitChar hplain) done tail
  all_goals exact hescaped rfl (by decide) (by decide)

theorem readText_flatMap (cs : List Char) (done tail : List Char) :
    readText done ((cs.flatMap escape).flatMap splitChar ++ tail) =
      readText ((cs.flatMap splitChar).reverse ++ done) tail := by
  induction cs generalizing done with
  | nil => rfl
  | cons c cs ih =>
    rw [List.flatMap_cons, List.flatMap_append, List.append_assoc, readText_escape, ih,
      List.flatMap_cons, List.reverse_append, List.append_assoc]

theorem chars_quote (s : String) :
    chars (quote s) = '"' :: ((s.toList.flatMap escape).flatMap splitChar ++ ['"']) := by
  have hquote : splitChar '"' = ['"'] := splitChar_of_lt (by decide)
  rw [quote, chars_ofList, List.cons_append, List.flatMap_cons, List.flatMap_append,
    List.flatMap_singleton, hquote, List.singleton_append]

/-- A text is read back from between its quotes. -/
theorem readText_quote (s : String) (rest : List Char) :
    readText [] ((s.toList.flatMap escape).flatMap splitChar ++ '"' :: rest) = .ok (s, rest) := by
  rw [readText_flatMap, List.append_nil, readText, List.reverse_reverse, joinBytes_flatMap,
    String.ofList_toList]
  rfl

/-! ### Numbers -/

/-- Nothing that a number goes on with. -/
def EndsNumber (rest : List Char) : Prop :=
  ∀ c ∈ rest.head?, c.isDigit = false ∧ c ≠ '.' ∧ c ≠ 'e' ∧ c ≠ 'E'

theorem endsNumber_cons {c : Char} (h : c.isDigit = false ∧ c ≠ '.' ∧ c ≠ 'e' ∧ c ≠ 'E')
    (rest : List Char) : EndsNumber (c :: rest) := by
  rintro c' ⟨⟩
  exact h

theorem endsNumber_nil : EndsNumber [] := by
  simp [EndsNumber]

/-- What follows a text does not change which character it begins with. -/
theorem append_ne_cons {c : Char} {cs : List Char} (hne : cs ≠ []) (h : ∀ rest, cs ≠ c :: rest)
    (tail rest : List Char) : cs ++ tail ≠ c :: rest := by
  obtain ⟨d, cs, rfl⟩ := List.exists_cons_of_ne_nil hne
  intro heq
  exact h cs (by rw [(List.cons.inj heq).1])

/-- The sign of a number, and what is after it. -/
def splitSign : List Char → Bool × List Char
  | '-' :: rest => (true, rest)
  | cs => (false, cs)

/-- The sign of an exponent, and what is after it. -/
def splitExponentSign : List Char → Bool × List Char
  | '+' :: rest => (false, rest)
  | '-' :: rest => (true, rest)
  | cs => (false, cs)

theorem splitSign_append {cs : List Char} (h : cs ≠ []) (tail : List Char) :
    splitSign (cs ++ tail) = ((splitSign cs).1, (splitSign cs).2 ++ tail) := by
  fun_cases splitSign cs with
  | case1 rest => rfl
  | case2 cs hsign => exact splitSign.eq_2 _ (append_ne_cons h hsign tail)

theorem splitExponentSign_append {cs : List Char} (h : cs ≠ []) (tail : List Char) :
    splitExponentSign (cs ++ tail) =
      ((splitExponentSign cs).1, (splitExponentSign cs).2 ++ tail) := by
  fun_cases splitExponentSign cs with
  | case1 rest => rfl
  | case2 rest => rfl
  | case3 cs hplus hminus =>
    exact splitExponentSign.eq_3 _ (append_ne_cons h hplus tail) (append_ne_cons h hminus tail)

theorem readExponent_cons {c : Char} (hc : c = 'e' ∨ c = 'E') (cs : List Char) :
    readExponent (c :: cs) =
      (readDigits (splitExponentSign cs).2).map fun (digits, rest) =>
        let n : Int := Nat.ofDigitChars 10 digits 0
        (some (if (splitExponentSign cs).1 then -n else n), rest) :=
  if_pos hc

theorem readExponent_cons_of_ne {c : Char} (hc : ¬(c = 'e' ∨ c = 'E')) (cs : List Char) :
    readExponent (c :: cs) = .ok (none, c :: cs) :=
  if_neg hc

section Append

variable {cs digits rest tail : List Char} (htail : EndsNumber tail)

include htail

theorem takeWhile_isDigit_append (cs : List Char) :
    (cs ++ tail).takeWhile Char.isDigit = cs.takeWhile Char.isDigit ∧
      (cs ++ tail).dropWhile Char.isDigit = cs.dropWhile Char.isDigit ++ tail := by
  induction cs with
  | nil =>
    cases tail with
    | nil => exact ⟨rfl, rfl⟩
    | cons c tail => simp [(htail c rfl).1]
  | cons c cs ih => by_cases hc : c.isDigit = true <;> simp [hc, ih]

theorem readDigits_append (h : readDigits cs = .ok (digits, rest)) :
    readDigits (cs ++ tail) = .ok (digits, rest ++ tail) := by
  obtain ⟨htake, hdrop⟩ := takeWhile_isDigit_append htail cs
  cases cs with
  | nil => cases h
  | cons c cs =>
    unfold readDigits at h ⊢
    dsimp only [List.cons_append] at h htake hdrop ⊢
    split at h
    · next hc =>
      obtain ⟨rfl, rfl⟩ := Prod.mk.inj (Except.ok.inj h)
      rw [if_pos hc, htake, hdrop]
    · cases h

theorem head?_append_any_isDigit :
    (cs ++ tail).head?.any Char.isDigit = cs.head?.any Char.isDigit := by
  cases cs with
  | cons c cs => rfl
  | nil =>
    cases tail with
    | nil => rfl
    | cons c tail => simpa using (htail c rfl).1

theorem readWhole_append (h : readWhole cs = .ok (digits, rest)) :
    readWhole (cs ++ tail) = .ok (digits, rest ++ tail) := by
  fun_cases readWhole cs with
  | case1 cs hdigit =>
    rw [readWhole, if_pos hdigit] at h
    cases h
  | case2 cs hdigit =>
    rw [readWhole, if_neg hdigit] at h
    obtain ⟨rfl, rfl⟩ := Prod.mk.inj (Except.ok.inj h)
    rw [List.cons_append, readWhole, head?_append_any_isDigit htail, if_neg hdigit]
  | case3 cs hzero =>
    rw [readWhole.eq_2 _ hzero] at h
    have hne : cs ≠ [] := by
      rintro rfl
      cases h
    rw [readWhole.eq_2 _ (append_ne_cons hne hzero tail), readDigits_append htail h]

theorem readFraction_append (h : readFraction cs = .ok (digits, rest)) :
    readFraction (cs ++ tail) = .ok (digits, rest ++ tail) := by
  fun_cases readFraction cs with
  | case1 cs => exact readDigits_append htail h
  | case2 cs hpoint =>
    rw [readFraction.eq_2 _ hpoint] at h
    obtain ⟨rfl, rfl⟩ := Prod.mk.inj (Except.ok.inj h)
    refine readFraction.eq_2 _ fun rest heq => ?_
    cases cs with
    | nil =>
      -- the number ends here, so what follows it is no point
      obtain rfl : tail = '.' :: rest := heq
      exact (htail '.' rfl).2.1 rfl
    | cons c cs => exact append_ne_cons (List.cons_ne_nil c cs) hpoint tail rest heq

theorem readExponent_append {e : Option Int} (h : readExponent cs = .ok (e, rest)) :
    readExponent (cs ++ tail) = .ok (e, rest ++ tail) := by
  cases cs with
  | nil =>
    obtain ⟨rfl, rfl⟩ := Prod.mk.inj (Except.ok.inj h)
    cases tail with
    | nil => rfl
    | cons c tail =>
      exact readExponent_cons_of_ne (not_or.mpr (htail c rfl).2.2) tail
  | cons c cs =>
    by_cases hc : c = 'e' ∨ c = 'E'
    · rw [readExponent_cons hc] at h
      rw [List.cons_append, readExponent_cons hc]
      cases hdigits : readDigits (splitExponentSign cs).2 with
      | error e => rw [hdigits] at h; cases h
      | ok p =>
        obtain ⟨digits, rest'⟩ := p
        have hcs : cs ≠ [] := by
          rintro rfl
          cases hdigits
        rw [hdigits] at h
        obtain ⟨rfl, rfl⟩ := Prod.mk.inj (Except.ok.inj h)
        rw [splitExponentSign_append hcs, readDigits_append htail hdigits]
        rfl
    · rw [readExponent_cons_of_ne hc] at h
      obtain ⟨rfl, rfl⟩ := Prod.mk.inj (Except.ok.inj h)
      exact readExponent_cons_of_ne hc (cs ++ tail)

end Append

theorem readNumber_eq_ok_iff {cs rest : List Char} {n : Number} :
    readNumber cs = .ok (n, rest) ↔ ∃ whole fraction exponent afterWhole afterFraction,
      readWhole (splitSign cs).2 = .ok (whole, afterWhole) ∧
      readFraction afterWhole = .ok (fraction, afterFraction) ∧
      readExponent afterFraction = .ok (exponent, rest) ∧
      Number.ofParts? (splitSign cs).1 whole fraction exponent = some n := by
  constructor
  · intro h
    obtain ⟨⟨whole, afterWhole⟩, hwhole, h⟩ :=
      exists_of_bind_eq_ok (x := readWhole (splitSign cs).2) h
    obtain ⟨⟨fraction, afterFraction⟩, hfraction, h⟩ := exists_of_bind_eq_ok h
    obtain ⟨⟨exponent, rest'⟩, hexponent, h⟩ := exists_of_bind_eq_ok h
    dsimp only at hfraction hexponent h
    split at h
    · next hparts =>
      obtain ⟨rfl, rfl⟩ := Prod.mk.inj (Except.ok.inj h)
      exact ⟨whole, fraction, exponent, afterWhole, afterFraction, hwhole, hfraction, hexponent,
        hparts⟩
    · cases h
  · rintro ⟨whole, fraction, exponent, afterWhole, afterFraction, hwhole, hfraction, hexponent,
      hparts⟩
    show (readWhole (splitSign cs).2 >>= _) = _
    rw [hwhole]
    show (readFraction afterWhole >>= _) = _
    rw [hfraction]
    show (readExponent afterFraction >>= _) = _
    rw [hexponent]
    dsimp only [bind, Except.bind]
    split
    · next hparts' =>
      obtain rfl := Option.some.inj (hparts.symm.trans hparts')
      rfl
    · next hparts' => cases hparts.symm.trans hparts'

/-- A number ends where nothing follows that it goes on with. -/
theorem readNumber_append {cs rest tail : List Char} {n : Number} (htail : EndsNumber tail)
    (h : readNumber cs = .ok (n, rest)) : readNumber (cs ++ tail) = .ok (n, rest ++ tail) := by
  have hcs : cs ≠ [] := by
    rintro rfl
    cases h
  obtain ⟨whole, fraction, exponent, afterWhole, afterFraction, hwhole, hfraction, hexponent,
    hparts⟩ := readNumber_eq_ok_iff.mp h
  rw [readNumber_eq_ok_iff, splitSign_append hcs]
  exact ⟨whole, fraction, exponent, afterWhole ++ tail, afterFraction ++ tail,
    readWhole_append htail hwhole, readFraction_append htail hfraction,
    readExponent_append htail hexponent, hparts⟩

theorem toNat_lt_of_isDigit {c : Char} (h : c.isDigit = true) : c.toNat < 0x80 := by
  simp only [Char.isDigit, Bool.and_eq_true, decide_eq_true_eq] at h
  exact Nat.lt_of_le_of_lt h.2 (by decide)

/-- No number but zero is written with a leading zero. -/
theorem eq_zero_of_head?_toDigits {n : Nat} (h : (Nat.toDigits 10 n).head? = some '0') : n = 0 := by
  induction n using Nat.strongRecOn with
  | ind n ih =>
    by_cases hlt : n < 10
    · have hall : ∀ n < 10, [Nat.digitChar n].head? = some '0' → n = 0 := by decide
      rw [Nat.toDigits_of_lt_base hlt] at h
      exact hall n hlt h
    · rw [Nat.toDigits_of_base_le (by decide) (by omega),
        List.head?_append_of_ne_nil _ Nat.toDigits_ne_nil] at h
      have hzero := ih (n / 10) (by omega) h
      omega

theorem readWhole_toDigits (n : Nat) :
    readWhole (Nat.toDigits 10 n) = .ok (Nat.toDigits 10 n, []) := by
  have hdigits : ∀ c ∈ Nat.toDigits 10 n, c.isDigit = true := fun c hc =>
    Nat.isDigit_of_mem_toDigits (by decide) (by decide) hc
  obtain rfl | hn := Nat.eq_zero_or_pos n
  · decide
  have hhead : ∀ rest, Nat.toDigits 10 n = '0' :: rest → False := fun rest heq =>
    hn.ne' (eq_zero_of_head?_toDigits (by rw [heq]; rfl))
  rw [readWhole.eq_2 _ hhead]
  obtain ⟨c, cs, heq⟩ := List.exists_cons_of_ne_nil (Nat.toDigits_ne_nil (n := n) (b := 10))
  rw [heq] at hdigits ⊢
  unfold readDigits
  dsimp only
  rw [if_pos (hdigits c List.mem_cons_self), List.takeWhile_eq_self_iff.mpr hdigits,
    List.dropWhile_eq_nil_iff.mpr hdigits]

deriving instance DecidableEq for Number

/-- The number is read back from its text, of which nothing is left. -/
def Number.ReadsBack (n : Number) : Prop :=
  readNumber (chars n.text) = .ok (n, [])

instance (n : Number) : Decidable n.ReadsBack :=
  inferInstanceAs (Decidable (_ = _))

theorem Number.readsBack_natural {n : Nat} (h : n < 2 ^ 64) : (Number.natural n).ReadsBack := by
  have hdigits : ∀ c ∈ Nat.toDigits 10 n, c.isDigit = true := fun c hc =>
    Nat.isDigit_of_mem_toDigits (by decide) (by decide) hc
  have hchars : chars (Number.natural n).text = Nat.toDigits 10 n := by
    have htext : (Number.natural n).text = String.ofList (Nat.toDigits 10 n) := by
      rw [text, Nat.toString_eq_repr, ← Nat.toList_repr, String.ofList_toList]
    rw [htext, chars_ofList]
    exact flatMap_splitChar fun c hc => toNat_lt_of_isDigit (hdigits c hc)
  have hsign : splitSign (Nat.toDigits 10 n) = (false, Nat.toDigits 10 n) := by
    refine splitSign.eq_2 _ fun rest heq => ?_
    exact absurd (hdigits '-' (by rw [heq]; exact List.mem_cons_self)) (by decide)
  rw [ReadsBack, hchars, readNumber_eq_ok_iff, hsign]
  refine ⟨Nat.toDigits 10 n, [], none, [], [], readWhole_toDigits n, rfl, rfl, ?_⟩
  unfold ofParts?
  simp only [Nat.ofDigitChars_ten_toDigits]
  exact if_pos (by simpa using h)

theorem isDigit_of_readNumber {c : Char} {cs rest : List Char} {n : Number}
    (h : readNumber (c :: cs) = .ok (n, rest)) : c = '-' ∨ c.isDigit = true := by
  obtain ⟨whole, -, -, afterWhole, -, hwhole, -⟩ := readNumber_eq_ok_iff.mp h
  refine or_iff_not_imp_left.mpr fun hsign => ?_
  rw [splitSign.eq_2 _ fun rest heq => hsign (List.cons.inj heq).1] at hwhole
  by_cases hzero : c = '0'
  · exact hzero ▸ by decide
  · rw [readWhole.eq_2 _ fun rest heq => hzero (List.cons.inj heq).1] at hwhole
    by_contra hdigit
    rw [readDigits, if_neg hdigit] at hwhole
    cases hwhole

/-! ### Tokens -/

theorem readWord_append (t : Token) (word rest : List Char) :
    readWord t word (word ++ rest) = (t, rest) := by
  induction word with
  | nil => rfl
  | cons c word ih => rw [List.cons_append, readWord, if_pos rfl, ih]

theorem isSpace_of_isDigit {c : Char} (h : c.isDigit = true) : isSpace c = false := by
  rw [Bool.eq_false_iff]
  intro hspace
  simp only [isSpace, Bool.or_eq_true, beq_iff_eq] at hspace
  obtain ((rfl | rfl) | rfl) | rfl := hspace <;> exact absurd h (by decide)

theorem readToken_of_readNumber {c : Char} {cs rest : List Char} {n : Number}
    (h : readNumber (c :: cs) = .ok (n, rest)) : readToken c cs = (.number n, rest) := by
  have hc := isDigit_of_readNumber h
  unfold readToken
  split
  case h_11 => rw [if_pos hc, h]
  all_goals exact absurd hc (by decide)

theorem readToken_quote (s : String) (rest : List Char) :
    readToken '"' ((s.toList.flatMap escape).flatMap splitChar ++ '"' :: rest) =
      (.text s, rest) := by
  unfold readToken
  rw [readText_quote]
  rfl

/-- A token of a single character. -/
structure IsMark (c : Char) (t : Token) : Prop where
  isSpace_eq_false : isSpace c = false
  endsNumber : ∀ rest, EndsNumber (c :: rest)
  ne_bad : ∀ e, t ≠ .bad e
  readToken_eq : ∀ rest, readToken c rest = (t, rest)

theorem isMark_comma : IsMark ',' .comma :=
  ⟨by decide, endsNumber_cons (by decide), nofun, fun _ => rfl⟩

theorem isMark_colon : IsMark ':' .colon :=
  ⟨by decide, endsNumber_cons (by decide), nofun, fun _ => rfl⟩

theorem isMark_openArray : IsMark '[' .openArray :=
  ⟨by decide, endsNumber_cons (by decide), nofun, fun _ => rfl⟩

theorem isMark_closeArray : IsMark ']' .closeArray :=
  ⟨by decide, endsNumber_cons (by decide), nofun, fun _ => rfl⟩

theorem isMark_openObject : IsMark '\x7b' .openObject :=
  ⟨by decide, endsNumber_cons (by decide), nofun, fun _ => rfl⟩

theorem isMark_closeObject : IsMark '\x7d' .closeObject :=
  ⟨by decide, endsNumber_cons (by decide), nofun, fun _ => rfl⟩

theorem readTokens_cons {c : Char} {cs rest : List Char} {t : Token} (hspace : isSpace c = false)
    (hgood : ∀ e, t ≠ .bad e) (hread : readToken c cs = (t, rest)) (done : List Token)
    (budget : Nat) :
    readTokens done (c :: cs) (budget + 1) = readTokens (t :: done) rest budget := by
  have hdrop : (c :: cs).dropWhile isSpace = c :: cs := by rw [List.dropWhile_cons, hspace]; rfl
  rw [readTokens.eq_def, hdrop]
  dsimp only
  rw [hread]
  cases t with
  | bad e => exact absurd rfl (hgood e)
  | _ => rfl

/-- The tokens of a stretch of text, whatever comes after it that a number does not go on with. -/
structure Scans (cs : List Char) (ts : List Token) : Prop where
  length_le : ts.length ≤ cs.length
  readTokens_append : ∀ rest, EndsNumber rest → ∀ done budget,
    readTokens done (cs ++ rest) (ts.length + budget) = readTokens (ts.reverse ++ done) rest budget

namespace Scans

variable {c : Char} {cs cs' : List Char} {t : Token} {ts ts' : List Token}

theorem nil : Scans [] [] where
  length_le := le_refl _
  readTokens_append rest _ done budget := by simp

theorem append (h : Scans cs ts) (h' : Scans cs' ts')
    (hends : ∀ rest, EndsNumber rest → EndsNumber (cs' ++ rest)) :
    Scans (cs ++ cs') (ts ++ ts') where
  length_le := by
    have hle := h.length_le
    have hle' := h'.length_le
    simp only [List.length_append]
    omega
  readTokens_append rest hrest done budget := by
    rw [List.append_assoc, List.length_append, Nat.add_assoc,
      h.readTokens_append _ (hends rest hrest), h'.readTokens_append _ hrest, List.reverse_append,
      List.append_assoc]

/-- One token, which may end where no number goes on. -/
theorem single (hspace : isSpace c = false) (hgood : ∀ e, t ≠ .bad e)
    (hread : ∀ rest, EndsNumber rest → readToken c (cs ++ rest) = (t, rest)) :
    Scans (c :: cs) [t] where
  length_le := by simp
  readTokens_append rest hrest done budget := by
    rw [List.cons_append, List.length_singleton, Nat.add_comm,
      readTokens_cons hspace hgood (hread rest hrest)]
    rfl

/-- A token of one character in front. -/
theorem cons (hmark : IsMark c t) (h : Scans cs ts) : Scans (c :: cs) (t :: ts) where
  length_le := by simpa using h.length_le
  readTokens_append rest hrest done budget := by
    rw [List.cons_append, List.length_cons, Nat.add_right_comm,
      readTokens_cons hmark.isSpace_eq_false hmark.ne_bad (hmark.readToken_eq _),
      h.readTokens_append rest hrest, List.reverse_cons, List.append_assoc, List.singleton_append]

theorem append_mark (h : Scans cs ts) (hmark : IsMark c t) (h' : Scans cs' ts') :
    Scans (cs ++ c :: cs') (ts ++ t :: ts') :=
  h.append (h'.cons hmark) fun _ _ => hmark.endsNumber _

theorem text (s : String) : Scans (chars (quote s)) [.text s] := by
  rw [chars_quote]
  refine single (by decide) nofun fun rest _ => ?_
  rw [List.append_assoc, List.singleton_append]
  exact readToken_quote s rest

theorem number {n : Number} (h : n.ReadsBack) : Scans (chars n.text) [.number n] := by
  unfold Number.ReadsBack at h
  cases hcs : chars n.text with
  | nil => rw [hcs] at h; cases h
  | cons c cs =>
    rw [hcs] at h
    refine single ?_ nofun fun rest hrest => ?_
    · obtain rfl | hdigit := isDigit_of_readNumber h
      · decide
      · exact isSpace_of_isDigit hdigit
    · exact readToken_of_readNumber (readNumber_append hrest h)

/-- A word without its first letter. -/
theorem word (hspace : isSpace c = false) (hgood : ∀ e, t ≠ .bad e)
    (hread : ∀ rest, readToken c rest = readWord t cs rest) : Scans (c :: cs) [t] :=
  single hspace hgood fun rest _ => (hread _).trans (readWord_append t cs rest)

/-- Stretches with commas between them. -/
theorem intercalate {css : List (List Char)} {tss : List (List Token)}
    (h : List.Forall₂ Scans css tss) :
    Scans ([','].intercalate css) ([.comma].intercalate tss) := by
  induction h with
  | nil => exact nil
  | @cons cs ts css tss hfirst hrest ih =>
    cases hrest with
    | nil => simpa only [List.intercalate_singleton] using hfirst
    | cons hsecond hrest =>
      rw [List.intercalate_cons_cons, List.intercalate_cons_cons, List.append_assoc,
        List.append_assoc, List.singleton_append, List.singleton_append]
      exact hfirst.append_mark isMark_comma ih

/-- The tokens of a whole text. -/
theorem tokens_eq {s : String} (h : Scans (chars s) ts) : tokens (encode s) = ts := by
  have hle := h.length_le
  have hlength : (encode s).length = ts.length + ((chars s).length - ts.length) := by
    rw [chars, List.length_map] at hle ⊢
    omega
  have hread := h.readTokens_append [] endsNumber_nil [] ((chars s).length - ts.length)
  rw [List.append_nil, List.append_nil] at hread
  rw [tokens, hlength, ← chars, hread, readTokens.eq_def]
  simp

end Scans

/-! ### The numbers of tokens -/

/-- A token that is not a number out of bounds. -/
def Token.IsSound : Token → Prop
  | .number n => n.IsSound
  | _ => True

theorem isSound_readWord {t : Token} (h : t.IsSound) (word cs : List Char) :
    (readWord t word cs).1.IsSound := by
  fun_induction readWord t word cs with
  | case1 cs => exact h
  | case2 => trivial
  | case3 w word cs ih => exact ih
  | case4 => trivial

theorem isSound_of_readNumber {cs rest : List Char} {n : Number}
    (h : readNumber cs = .ok (n, rest)) : n.IsSound := by
  obtain ⟨_, _, _, _, _, -, -, -, hparts⟩ := readNumber_eq_ok_iff.mp h
  exact Number.isSound_of_ofParts? hparts

theorem isSound_readToken (c : Char) (rest : List Char) : (readToken c rest).1.IsSound := by
  unfold readToken
  split
  case h_7 | h_8 | h_9 => exact isSound_readWord (by trivial) _ _
  case h_10 => split <;> trivial
  case h_11 =>
    split
    · split
      · next hread => exact isSound_of_readNumber hread
      · trivial
    · trivial
  all_goals trivial

theorem isSound_of_mem_readTokens {done : List Token} (hdone : ∀ t ∈ done, t.IsSound)
    (cs : List Char) (budget : Nat) : ∀ t ∈ readTokens done cs budget, t.IsSound := by
  fun_induction readTokens done cs budget with
  | case1 => simpa using hdone
  | case2 | case3 => simpa [or_imp, forall_and, Token.IsSound] using hdone
  | case4 done cs budget c rest _ t rest' _ hread ih =>
    have hsound := isSound_readToken c rest
    rw [hread] at hsound
    exact ih (List.forall_mem_cons.mpr ⟨hsound, hdone⟩)

/-- The numbers of a text are sound. -/
theorem isSound_of_mem_tokens {bytes : List UInt8} {t : Token} (h : t ∈ tokens bytes) : t.IsSound :=
  isSound_of_mem_readTokens (by simp) _ _ t h

end SheetRecords.Json
