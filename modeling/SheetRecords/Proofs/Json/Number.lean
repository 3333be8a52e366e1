import SheetRecords.Json.Number
import SheetRecords.Proofs.Decimal.Finite

/-!
# The numbers of documents are finite

Whatever digits a number has, it is an integer that fits 64 bits or a finite float
(`Number.isSound_of_ofParts?`), so as a float it is finite (`Number.isFinite_toFloat`).
-/

namespace SheetRecords.Json.Number

open Decimal

/-- An integer that fits 64 bits or a finite float. -/
def IsSound : Number → Prop
  | .natural n => n < 2 ^ 64
  | .negative n => n ≤ 2 ^ 63
  | .float x => x.isFinite = true

theorem isFinite_toFloat {n : Number} (h : n.IsSound) : n.toFloat.isFinite = true := by
  cases n with
  | natural n => exact isFinite_ofNat h
  | negative n => exact isFinite_neg (isFinite_ofNat (lt_of_le_of_lt h (by decide)))
  | float x => exact h

theorem readWord_lt {n : Nat} (h : n < 2 ^ 64) (cs : List Char) : (readWord n cs).1 < 2 ^ 64 := by
  induction cs generalizing n with
  | nil => exact h
  | cons c rest ih =>
    unfold readWord
    simp only
    split
    · rename_i hnext
      exact ih hnext
    · exact h

/-! ### Powers of ten -/

/-- A test that a float is at least two. -/
def isTwoOrMore (y : Float) : Bool :=
  match y.toModel.unpack with
  | .finite .positive m e _ => decide (0 < m.log2 + e)
  | _ => false

theorem isTwoOrMore_of_test {y : Float} (h : isTwoOrMore y = true) : IsTwoOrMore y := by
  unfold isTwoOrMore at h
  split at h
  · rename_i m e hm heq
    exact ⟨m, e, hm, heq, of_decide_eq_true h⟩
  · cases h

theorem isTwoOrMore_power {e : Nat} (hpos : 0 < e) (hle : e ≤ maxPower) :
    IsTwoOrMore (power e) := by
  -- each power is rounded by itself and not a product of others, so they are tested one by one
  have hall : ∀ e < 308, isTwoOrMore (power (e + 1)) = true := by decide +kernel
  obtain ⟨e, rfl⟩ := Nat.exists_eq_add_of_lt hpos
  refine isTwoOrMore_of_test ?_
  rw [Nat.zero_add]
  exact hall e (by unfold maxPower at hle; omega)

theorem isFinite_power {e : Nat} (hle : e ≤ maxPower) : (power e).isFinite = true := by
  obtain rfl | hpos := Nat.eq_zero_or_pos e
  · decide +kernel
  · exact (isTwoOrMore_power hpos hle).isFinite

/-! ### Reckoning a value -/

theorem isFinite_scaleDown {x : Float} (hx : x.isFinite = true) {e : Nat} (he : 0 < e) :
    (scaleDown x e).isFinite = true := by
  fun_induction scaleDown x e with
  | case1 x e hle => exact isFinite_div hx (isTwoOrMore_power he hle)
  | case2 x e hlt hzero => exact hx
  | case3 x e hlt hzero ih =>
    have hmax : IsTwoOrMore (power maxPower) := isTwoOrMore_power (by decide) (le_refl _)
    exact ih (isFinite_div hx hmax) (by omega)

theorem isFinite_scaleUp? {x y : Float} (hx : x.isFinite = true) {e : Nat}
    (h : scaleUp? x e = some y) : y.isFinite = true := by
  unfold scaleUp? at h
  split at h
  · obtain ⟨-, ⟨⟩⟩ := Option.ite_none_right_eq_some.mp h
    exact hx
  · rename_i hle
    obtain ⟨hinf, ⟨⟩⟩ := Option.ite_none_left_eq_some.mp h
    exact isFinite_mul hx (isFinite_power (not_lt.mp hle)) (Bool.eq_false_iff.mpr hinf)

theorem isFinite_magnitude? {whole fraction : List Char} {exponent : Int} {x : Float}
    (h : magnitude? whole fraction exponent = some x) : x.isFinite = true := by
  unfold magnitude? at h
  simp only at h
  have hlt := readWord_lt (readWord_lt (Nat.two_pow_pos 64) whole) fraction
  split at h
  · exact isFinite_scaleUp? (isFinite_ofNat hlt) h
  · obtain rfl := Option.some.inj h
    exact isFinite_scaleDown (isFinite_ofNat hlt) (by omega)

/-- A number is sound whatever its digits are. -/
theorem isSound_of_ofParts? {isNegative : Bool} {whole fraction : List Char}
    {exponent : Option Int} {n : Number}
    (h : ofParts? isNegative whole fraction exponent = some n) : n.IsSound := by
  have hsigned {x : Float} (hx : x.isFinite = true) :
      (Number.float (if isNegative then -x else x)).IsSound := by
    cases isNegative
    · exact hx
    · exact isFinite_neg hx
  unfold ofParts? at h
  simp only at h
  split at h
  · rename_i hinteger
    have hlt : Nat.ofDigitChars 10 whole 0 < 2 ^ 64 := by
      simp only [Bool.and_eq_true, decide_eq_true_eq] at hinteger
      exact hinteger.2
    split at h
    · obtain rfl := Option.some.inj h
      exact hlt
    · split at h
      · rename_i hneg
        obtain rfl := Option.some.inj h
        simp only [Bool.and_eq_true, decide_eq_true_eq] at hneg
        exact hneg.2
      · obtain rfl := Option.some.inj h
        exact hsigned (isFinite_ofNat hlt)
  · obtain ⟨x, hx, rfl⟩ := Option.map_eq_some_iff.mp h
    exact hsigned (isFinite_magnitude? hx)

end SheetRecords.Json.Number
