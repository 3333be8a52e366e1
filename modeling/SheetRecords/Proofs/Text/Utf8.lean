import Mathlib.Data.List.Basic
import SheetRecords.Text.Utf8

/-!
# UTF-8 reads back

What is written of a text is what is written of its characters one after the other
(`encode_ofList`), a character beyond ASCII as bytes beyond ASCII (`le_toNat_of_mem_encodeChar`).
Each character is read back from the bytes that begin with its own (`readChar?_encodeChar`), so a
text is read back as a whole (`decode_flatMap`).
-/

namespace SheetRecords.Text.Utf8

/-! ### Writing -/

/-- A character as bytes. -/
abbrev encodeChar (c : Char) : List UInt8 :=
  String.utf8EncodeChar c

theorem toList_byteArray (bytes : ByteArray) : bytes.toList = bytes.data.toList := by
  have hloop (i : Nat) (done : List UInt8) :
      ByteArray.toList.loop bytes i done = done.reverse ++ bytes.data.toList.drop i := by
    fun_induction ByteArray.toList.loop bytes i done with
    | case1 i done h ih =>
      have hlt : i < bytes.data.size := h
      have hget : bytes.get! i = bytes.data.toList[i] := getElem!_pos bytes.data i hlt
      rw [ih, hget, List.reverse_cons, List.append_assoc, List.singleton_append,
        List.getElem_cons_drop]
    | case2 i done h =>
      have hle : bytes.data.size ≤ i := Nat.not_lt.mp h
      rw [List.drop_eq_nil_of_le (by simpa using hle), List.append_nil]
  exact hloop 0 []

theorem encode_ofList (cs : List Char) : encode (String.ofList cs) = cs.flatMap encodeChar := by
  rw [encode, toList_byteArray, String.toUTF8_eq_toByteArray, String.toByteArray_ofList,
    List.utf8Encode, List.toList_data_toByteArray]

theorem encode_append (s t : String) : encode (s ++ t) = encode s ++ encode t := by
  simp only [encode, toList_byteArray, String.toUTF8_eq_toByteArray, String.toByteArray_append,
    ByteArray.toList_data_append]

theorem encodeChar_of_lt {c : Char} (h : c.toNat < 0x80) :
    encodeChar c = [UInt8.ofNat c.toNat] := by
  have hle : c.val.toNat ≤ 0x7f := Nat.le_of_lt_succ h
  simp only [encodeChar, String.utf8EncodeChar, if_pos hle]
  rfl

theorem le_toNat_of_mem_encodeChar {c : Char} (h : 0x80 ≤ c.toNat) {b : UInt8}
    (hb : b ∈ encodeChar c) : 0x80 ≤ b.toNat := by
  have hlt : ¬ c.val.toNat ≤ 0x7f := Nat.not_le.mpr h
  simp only [encodeChar, String.utf8EncodeChar, if_neg hlt] at hb
  generalize c.val.toNat = v at hb
  split at hb
  · simp only [List.mem_cons, List.not_mem_nil, or_false] at hb
    rcases hb with rfl | rfl <;> simp <;> omega
  · split at hb <;> simp only [List.mem_cons, List.not_mem_nil, or_false] at hb
    · rcases hb with rfl | rfl | rfl <;> simp <;> omega
    · rcases hb with rfl | rfl | rfl | rfl <;> simp <;> omega

/-! ### Reading back -/

theorem continuation?_append {tail : List UInt8} (h : ∀ b ∈ tail, isContinuation b = true)
    (rest : List UInt8) : continuation? tail.length (tail ++ rest) = some (tail, rest) := by
  induction tail with
  | nil => rfl
  | cons b tail ih =>
    obtain ⟨hb, htail⟩ := List.forall_mem_cons.mp h
    simp only [List.length_cons, List.cons_append, continuation?, hb, if_true, ih htail,
      Option.map_some]

section LengthMark

variable {b : UInt8}

theorem lengthMark?_of_one (h : b.toNat < 0x80) : lengthMark? b = some (0, b.toNat, 0) :=
  if_pos h

theorem lengthMark?_of_two (h : 0xC0 ≤ b.toNat) (h' : b.toNat < 0xE0) :
    lengthMark? b = some (1, b.toNat - 0xC0, 0x80) := by
  unfold lengthMark?
  rw [if_neg (by omega), if_neg (by omega), if_pos h']

theorem lengthMark?_of_three (h : 0xE0 ≤ b.toNat) (h' : b.toNat < 0xF0) :
    lengthMark? b = some (2, b.toNat - 0xE0, 0x800) := by
  unfold lengthMark?
  rw [if_neg (by omega), if_neg (by omega), if_neg (by omega), if_pos h']

theorem lengthMark?_of_four (h : 0xF0 ≤ b.toNat) (h' : b.toNat < 0xF8) :
    lengthMark? b = some (3, b.toNat - 0xF0, 0x10000) := by
  unfold lengthMark?
  rw [if_neg (by omega), if_neg (by omega), if_neg (by omega), if_neg (by omega), if_pos h']

end LengthMark

theorem readChar?_encodeChar (c : Char) (rest : List UInt8) :
    readChar? (encodeChar c ++ rest) = some (c, rest) := by
  obtain ⟨v, hval⟩ : ∃ v, c.val.toNat = v := ⟨_, rfl⟩
  have hvalid : v.isValidChar := hval ▸ c.valid
  have hc : Char.ofNat v = c := hval ▸ Char.ofNat_toNat c
  have hlt : v < 0x110000 := by unfold Nat.isValidChar at hvalid; omega
  -- it is enough that the length mark fits and the bytes give the code point back
  have hread {b : UInt8} {tail : List UInt8} {head least : Nat}
      (hmark : lengthMark? b = some (tail.length, head, least))
      (htail : ∀ b ∈ tail, isContinuation b = true) (hleast : least ≤ v)
      (hpoint : codePoint head tail = v) : readChar? (b :: tail ++ rest) = some (c, rest) := by
    simp only [List.cons_append, readChar?, hmark, continuation?_append htail, hpoint]
    rw [if_pos ⟨hleast, hvalid⟩, hc]
  simp only [encodeChar, String.utf8EncodeChar, hval]
  split
  · refine hread (lengthMark?_of_one ?_) (by simp) (Nat.zero_le v) ?_
    · simp; omega
    · simp [codePoint]; omega
  split
  · refine hread (lengthMark?_of_two ?_ ?_) ?_ (by omega) ?_
    · simp; omega
    · simp; omega
    · simp [isContinuation]; omega
    · simp [codePoint]; omega
  split
  · refine hread (lengthMark?_of_three ?_ ?_) ?_ (by omega) ?_
    · simp; omega
    · simp; omega
    · simp [isContinuation]; omega
    · simp [codePoint]; omega
  · refine hread (lengthMark?_of_four ?_ ?_) ?_ (by omega) ?_
    · simp; omega
    · simp; omega
    · simp [isContinuation]; omega
    · simp [codePoint]; omega

theorem decodeFrom_flatMap (done cs : List Char) :
    decodeFrom done (cs.flatMap encodeChar) = (done.reverse ++ cs, []) := by
  induction cs generalizing done with
  | nil =>
    rw [decodeFrom]
    split
    · simp
    · rename_i h
      simp [readChar?] at h
  | cons c cs ih =>
    rw [List.flatMap_cons, decodeFrom]
    have hread := readChar?_encodeChar c (cs.flatMap encodeChar)
    split
    · rename_i h
      rw [hread] at h
      cases h
    · rename_i c' rest h
      rw [hread] at h
      obtain ⟨rfl, rfl⟩ := Prod.mk.inj (Option.some.inj h)
      rw [ih, List.reverse_cons, List.append_assoc, List.singleton_append]

/-- A text is read back from its bytes. -/
theorem decode_flatMap (cs : List Char) : decode (cs.flatMap encodeChar) = (cs, []) :=
  decodeFrom_flatMap [] cs

end SheetRecords.Text.Utf8
