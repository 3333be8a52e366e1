import Mathlib

/-!
# Finite floats

A float that is no zero is `m * 2 ^ e` up to its sign, where `m` has 53 bits and `e` is at least
`-1074`, and it is finite as long as `e` is at most `971` (`isFinite_iff`).  What rounding makes of
`m * 2 ^ e` has an exponent that `e` and the size of `m` bound (`bounded_roundWithAccuracy`).  So a
product of finite floats that does not overflow is finite, and so are a quotient by a float that is
at least two, a negation and a natural number of 64 bits.
-/

namespace SheetRecords.Decimal

open Float.Model Float.Model.UnpackedFloat

/-- Zero or a finite number with an exponent up to the given one. -/
inductive Bounded (bound : Int) : UnpackedFloat → Prop where
  | zero (s : Sign) : Bounded bound (.zero s)
  | finite {s : Sign} {m : Nat} {e : Int} {hm : 0 < m} (h : e ≤ bound) :
    Bounded bound (.finite s m e hm)

variable {u : UnpackedFloat} {bound bound' : Int} {x y : Float}

theorem Bounded.mono (h : Bounded bound u) (hle : bound ≤ bound') : Bounded bound' u := by
  cases h with
  | zero s => exact .zero s
  | finite h => exact .finite (le_trans h hle)

theorem Bounded.isFinite (h : Bounded bound u) : u.isFinite = true := by
  cases h <;> rfl

/-! ### Rounding -/

theorem mantissa_shiftRight (em : ExtendedMantissa) (n : Nat) :
    (em >>> n).mantissa = em.mantissa / 2 ^ n := by
  induction n with
  | zero => simp [HShiftRight.hShiftRight, Nat.repeat]
  | succ n ih =>
    change ((n.repeat ExtendedMantissa.shiftRightOne em).shiftRightOne).mantissa = _
    change (n.repeat ExtendedMantissa.shiftRightOne em).mantissa = _ at ih
    rw [ExtendedMantissa.shiftRightOne, ih, Nat.div_div_eq_div_mul, Nat.pow_succ]

theorem roundedMantissa_le (em : ExtendedMantissa) : em.roundedMantissa ≤ em.mantissa + 1 := by
  obtain ⟨m, r, s⟩ := em
  cases r <;> cases s <;>
    simp only [ExtendedMantissa.roundedMantissa, ExtendedMantissa.accuracy,
      Accuracy.roundToNearestEven] <;> omega

theorem mantissa_ofMantissaAndAccuracy (m : Nat) (a : Accuracy) :
    (ExtendedMantissa.ofMantissaAndAccuracy m a).mantissa = m := by
  unfold ExtendedMantissa.ofMantissaAndAccuracy
  split <;> rfl

/-- The exponent that a number is rounded to. -/
def target (m : Nat) (e : Int) : Int :=
  max (m.log2 + 1 + e - 53) (-1074)

theorem targetExponent_eq (m : Nat) (e : Int) :
    Format.binary64.targetExponent (totalExponent m e) = target m e :=
  rfl

theorem snd_shiftToTargetExponent (m : Nat) (e : Int) (a : Accuracy) :
    (shiftToTargetExponent .binary64 m e a).2 = max e (target m e) := by
  simp only [shiftToTargetExponent, shiftToExponent, targetExponent_eq]
  omega

theorem mantissa_shiftToTargetExponent (m : Nat) (e : Int) (a : Accuracy) :
    (shiftToTargetExponent .binary64 m e a).1.mantissa = m / 2 ^ (target m e - e).toNat := by
  simp only [shiftToTargetExponent, shiftToExponent, targetExponent_eq, mantissa_shiftRight,
    mantissa_ofMantissaAndAccuracy]

theorem log2_le {m k : Nat} (h : m ≤ 2 ^ k) : m.log2 ≤ k := by
  by_cases hm : m = 0
  · simp [hm]
  · have hlt : m < 2 ^ (k + 1) := h.trans_lt (Nat.pow_lt_pow_right (by decide) k.lt_succ_self)
    exact Nat.le_of_lt_succ ((Nat.log2_lt hm).mpr hlt)

/-- What rounding makes of a number below `2 ^ k * 2 ^ e`. -/
theorem bounded_roundWithAccuracy {m k : Nat} {e : Int} (s : Sign) (a : Accuracy) (hm : m < 2 ^ k)
    (he : e ≤ bound) (hk : k + e - 52 ≤ bound) (hbound : -1074 ≤ bound) :
    Bounded bound (roundWithAccuracy .binary64 s m e a) := by
  have hlog := log2_le hm.le
  set first := shiftToTargetExponent .binary64 m e a with hfirst
  have hexponent : first.2 = max e (target m e) := snd_shiftToTargetExponent m e a
  have hmantissa : first.1.roundedMantissa ≤ m / 2 ^ (target m e - e).toNat + 1 :=
    mantissa_shiftToTargetExponent m e a ▸ roundedMantissa_le _
  have htarget : target m e ≤ bound := by
    unfold target
    omega
  -- rounding up may take one more bit
  have hround : target first.1.roundedMantissa first.2 ≤ bound := by
    rw [hexponent]
    set shift := (target m e - e).toNat with hshift
    by_cases hle : shift ≤ k
    · have hdiv : m / 2 ^ shift < 2 ^ (k - shift) := by
        rw [Nat.div_lt_iff_lt_mul (Nat.two_pow_pos shift), ← Nat.pow_add, Nat.sub_add_cancel hle]
        exact hm
      have := log2_le (le_trans hmantissa hdiv)
      unfold target at hshift htarget ⊢
      omega
    · have hdiv : m / 2 ^ shift = 0 :=
        Nat.div_eq_of_lt (lt_trans hm (Nat.pow_lt_pow_right (by decide) (not_le.mp hle)))
      rw [hdiv] at hmantissa
      have := log2_le (k := 0) hmantissa
      unfold target at hshift htarget ⊢
      omega
  have hfinal : (shiftToTargetExponent .binary64 first.1.roundedMantissa first.2 .exact).2 ≤
      bound := by
    rw [snd_shiftToTargetExponent, hexponent]
    rw [hexponent] at hround
    omega
  simp only [roundWithAccuracy, ← hfirst]
  split
  · exact .zero s
  · exact .finite hfinal

/-! ### Packing -/

/-- The integer that a float is a power of two times, up to its sign. -/
def mantissa : UnpackedFloat → Nat
  | .finite _ m _ _ => m
  | _ => 0

/-- The number that bits hold where the exponent of a float stands. -/
def exponentBits (b : BitVec Format.binary64.numBits) : Nat :=
  (unpackExponent b).toNat

theorem exponentBits_ne_iff {b : BitVec Format.binary64.numBits} :
    unpackExponent b ≠ -1#_ ↔ exponentBits b < 2047 := by
  have hlt : exponentBits b < 2048 := (unpackExponent b).isLt
  have hmax : (-BitVec.ofNat Format.binary64.exponentBits 1).toNat = 2047 := rfl
  rw [← BitVec.toNat_ne_iff_ne, hmax]
  change exponentBits b ≠ 2047 ↔ _
  omega

/-- Bits stand for a zero or a number with the exponent that they hold, unless that is the greatest
one, which stands for what is not finite. -/
theorem unpack_cases (b : BitVec Format.binary64.numBits) :
    (exponentBits b = 2047 ∧ (UnpackedFloat.unpack .binary64 b).isFinite = false ∧
      (unpackMantissa b = 0#_ → (UnpackedFloat.unpack .binary64 b).isInf = true)) ∨
    (exponentBits b < 2047 ∧ (UnpackedFloat.unpack .binary64 b).isFinite = true ∧
      Bounded (max (exponentBits b - 1075) (-1074)) (UnpackedFloat.unpack .binary64 b) ∧
      mantissa (UnpackedFloat.unpack .binary64 b) < 2 ^ 53) := by
  fun_cases UnpackedFloat.unpack .binary64 b with
  | case1 m e sign s he hm => exact .inl ⟨congrArg BitVec.toNat he, rfl, fun _ => rfl⟩
  | case2 m e he hm => exact .inl ⟨congrArg BitVec.toNat he, rfl, fun h => absurd h hm⟩
  | case3 m e sign s he he' hm =>
    exact .inr ⟨exponentBits_ne_iff.mp he, rfl, .zero _, Nat.two_pow_pos 53⟩
  | case4 m e exponent sign s he he' hm =>
    refine .inr ⟨exponentBits_ne_iff.mp he, rfl, .finite ?_,
      lt_trans m.isLt (Nat.pow_lt_pow_right (by decide) (by decide))⟩
    have hzero : exponentBits b = 0 := congrArg BitVec.toNat he'
    change (exponentBits b : Int) - (1023 + 52) + 1 ≤ max ((exponentBits b : Int) - 1075) (-1074)
    omega
  | case5 m e exponent sign s he he' =>
    refine .inr ⟨exponentBits_ne_iff.mp he, rfl, .finite ?_, (1#1 ++ m).isLt⟩
    change (exponentBits b : Int) - (1023 + 52) ≤ max ((exponentBits b : Int) - 1075) (-1074)
    omega

/-- The bits of a number with a bounded exponent hold an exponent that is bounded as much, and those
of a number with any exponent may stand for an infinity otherwise. -/
theorem exponentBits_pack (h : Bounded bound u) :
    (exponentBits (UnpackedFloat.pack .binary64 u) = 2047 ∧ 971 < bound ∧
      unpackMantissa (UnpackedFloat.pack .binary64 u) = 0#_) ∨
    exponentBits (UnpackedFloat.pack .binary64 u) < 2047 ∧
      exponentBits (UnpackedFloat.pack .binary64 u) ≤ max 0 (bound + 1075) := by
  fun_cases UnpackedFloat.pack .binary64 u with
  | case1 => cases h
  | case2 s => cases h
  | case3 s =>
    have hzero : exponentBits (packedZero .binary64 s) = 0 := by
      simp [exponentBits, packedZero]
    omega
  | case4 s m e hm biased hbiased =>
    refine .inl ⟨?_, ?_, ?_⟩
    · simp [exponentBits, packedInfinity]
    · change 2048 ≤ (e + 1023 + 52).toNat + 1 at hbiased
      cases h
      omega
    · simp [packedInfinity]
  | case5 s m e hm bits biased hbiased hbits =>
    have hexponent : exponentBits (packComponents .binary64 s (BitVec.ofNat _ biased)
        (BitVec.ofNat _ m)) = biased % 2048 := by
      simp [exponentBits]
    change ¬ 2048 ≤ (e + 1023 + 52).toNat + 1 at hbiased
    change _ = (e + 1023 + 52).toNat % 2048 at hexponent
    cases h
    omega
  | case6 s m e hm bits biased hbiased hbits =>
    have hzero : exponentBits (packComponents .binary64 s 0#_ (BitVec.ofNat _ m)) = 0 := by
      simp [exponentBits]
    omega

/-- A finite number with a bounded exponent. -/
def IsUpTo (bound : Int) (x : Float) : Prop :=
  Bounded bound x.toModel.unpack ∧ mantissa x.toModel.unpack < 2 ^ 53

theorem unpack_ofModel_pack (u : UnpackedFloat) :
    (Float.ofModel (.pack u)).toModel.unpack =
      UnpackedFloat.unpack .binary64 (UnpackedFloat.pack .binary64 u) :=
  rfl

theorem isUpTo_pack (h : Bounded bound u) (hmin : -1074 ≤ bound) (hmax : bound ≤ 971) :
    IsUpTo bound (.ofModel (.pack u)) := by
  rw [IsUpTo, unpack_ofModel_pack]
  obtain ⟨-, hbound, -⟩ | ⟨hlt, hle⟩ := exponentBits_pack h
  · omega
  · obtain ⟨heq, -⟩ | ⟨-, -, hbounded, hmantissa⟩ :=
      unpack_cases (UnpackedFloat.pack .binary64 u)
    · omega
    · exact ⟨hbounded.mono (by omega), hmantissa⟩

theorem isFinite_iff : x.isFinite = true ↔ IsUpTo 971 x := by
  change x.toModel.unpack.isFinite = true ↔ _
  unfold IsUpTo Float.Model.unpack
  obtain ⟨-, hinfinite, -⟩ | ⟨hlt, hfinite, hbounded, hmantissa⟩ :=
    unpack_cases x.toModel.toBits.toBitVec
  · refine iff_of_false (by simp [hinfinite]) fun h => ?_
    rw [h.1.isFinite] at hinfinite
    cases hinfinite
  · exact iff_of_true hfinite ⟨hbounded.mono (by omega), hmantissa⟩

/-- What has been rounded and packed is finite unless it is infinite. -/
theorem isFinite_pack (h : Bounded bound u) (hinf : (Float.ofModel (.pack u)).isInf = false) :
    (Float.ofModel (.pack u)).isFinite = true := by
  change (UnpackedFloat.unpack .binary64 (UnpackedFloat.pack .binary64 u)).isInf = false at hinf
  change (UnpackedFloat.unpack .binary64 (UnpackedFloat.pack .binary64 u)).isFinite = true
  obtain ⟨heq, -, hisInf⟩ | ⟨-, hfinite, -⟩ := unpack_cases (UnpackedFloat.pack .binary64 u)
  · obtain ⟨-, -, hm⟩ | ⟨hlt, -⟩ := exponentBits_pack h
    · rw [hisInf hm] at hinf
      cases hinf
    · omega
  · exact hfinite

/-! ### Arithmetic -/

theorem IsUpTo.cases (h : IsUpTo bound x) :
    (∃ s, x.toModel.unpack = .zero s) ∨
      ∃ s m e hm, x.toModel.unpack = .finite s m e hm ∧ m < 2 ^ 53 ∧ e ≤ bound := by
  obtain ⟨hbounded, hmantissa⟩ := h
  cases hx : x.toModel.unpack with
  | zero s => exact .inl ⟨s, rfl⟩
  | finite s m e hm =>
    rw [hx] at hbounded hmantissa
    cases hbounded with
    | finite he => exact .inr ⟨s, m, e, hm, rfl, hmantissa, he⟩
  | _ =>
    rw [hx] at hbounded
    cases hbounded

theorem isFinite_neg (h : x.isFinite = true) : (-x).isFinite = true := by
  have hx := isFinite_iff.mp h
  have hbounded : Bounded 971 x.toModel.unpack.neg := by
    obtain ⟨s, hs⟩ | ⟨s, m, e, hm, hs, -, he⟩ := hx.cases
    · rw [hs]
      exact .zero _
    · rw [hs]
      exact .finite he
  exact isFinite_iff.mpr (isUpTo_pack hbounded (by decide) (le_refl _))

/-- A product of bounded numbers before it is packed. -/
theorem bounded_mul {bound₁ bound₂ : Int} (hx : IsUpTo bound₁ x) (hy : IsUpTo bound₂ y)
    (hbound : bound₁ + bound₂ + 54 ≤ bound) (hmin : -1074 ≤ bound) :
    Bounded bound (UnpackedFloat.mul .binary64 x.toModel.unpack y.toModel.unpack) := by
  obtain ⟨s, hs⟩ | ⟨s, m, e, hm, hs, hlt, he⟩ := hx.cases
  · obtain ⟨s', hs'⟩ | ⟨s', m', e', hm', hs', -⟩ := hy.cases <;> rw [hs, hs'] <;> exact .zero _
  · obtain ⟨s', hs'⟩ | ⟨s', m', e', hm', hs', hlt', he'⟩ := hy.cases
    · rw [hs, hs']
      exact .zero _
    · rw [hs, hs']
      have hprod : m * m' < 2 ^ (53 + 53) := by
        rw [Nat.pow_add]
        exact Nat.mul_lt_mul'' hlt hlt'
      exact bounded_roundWithAccuracy _ _ hprod (by omega) (by omega) hmin

/-- A product that does not overflow is finite. -/
theorem isFinite_mul (hx : x.isFinite = true) (hy : y.isFinite = true)
    (hinf : (x * y).isInf = false) : (x * y).isFinite = true := by
  have hbounded : Bounded 1996 (UnpackedFloat.mul .binary64 x.toModel.unpack y.toModel.unpack) :=
    bounded_mul (isFinite_iff.mp hx) (isFinite_iff.mp hy) (by decide) (by decide)
  exact isFinite_pack hbounded hinf

/-- A quotient by a number that is at least two, before it is packed. -/
theorem bounded_quotient {m m' : Nat} {e e' : Int} {s : Sign} (hm : m < 2 ^ 53) (he : e ≤ 971)
    (hm' : 0 < m') (hlog : 0 < m'.log2 + e') :
    Bounded 971
      (let (q, exponent, a) := divCore .binary64 m e m' e'
       roundWithAccuracy .binary64 s q exponent a) := by
  have hm53 : m.log2 ≤ 52 := by
    by_cases hzero : m = 0
    · simp [hzero]
    · exact Nat.le_of_lt_succ ((Nat.log2_lt hzero).mpr hm)
  set least : Int := min (e - e') (max (m.log2 + 1 + e - (m'.log2 + 1 + e') - 53) (-1074))
    with hleast
  set shift := (e - e' - least).toNat with hshift
  change Bounded 971 (roundWithAccuracy .binary64 s (m <<< shift / m') least _)
  have hself : 2 ^ m'.log2 ≤ m' := Nat.log2_self_le hm'.ne'
  have hquotient : m <<< shift / m' < 2 ^ (53 + shift - m'.log2) := by
    have hshifted : m <<< shift < 2 ^ (53 + shift) := by
      rw [Nat.shiftLeft_eq, Nat.pow_add]
      exact Nat.mul_lt_mul_of_pos_right hm (Nat.two_pow_pos shift)
    by_cases hle : m'.log2 ≤ 53 + shift
    · calc m <<< shift / m' ≤ m <<< shift / 2 ^ m'.log2 :=
            Nat.div_le_div_left hself (Nat.two_pow_pos _)
        _ < 2 ^ (53 + shift - m'.log2) := by
            rw [Nat.div_lt_iff_lt_mul (Nat.two_pow_pos _), ← Nat.pow_add, Nat.sub_add_cancel hle]
            exact hshifted
    · rw [Nat.div_eq_of_lt]
      · exact Nat.two_pow_pos _
      · exact hshifted.trans_le
          ((Nat.pow_le_pow_right (by decide) (not_le.mp hle).le).trans hself)
  exact bounded_roundWithAccuracy _ _ hquotient (by omega) (by omega) (by decide)

/-- A float is at least two. -/
def IsTwoOrMore (y : Float) : Prop :=
  ∃ m e hm, y.toModel.unpack = .finite .positive m e hm ∧ 0 < m.log2 + e

theorem IsTwoOrMore.isFinite (h : IsTwoOrMore y) : y.isFinite = true := by
  obtain ⟨m, e, hm, hs, -⟩ := h
  change y.toModel.unpack.isFinite = true
  rw [hs]
  rfl

theorem isFinite_div (hx : x.isFinite = true) (hy : IsTwoOrMore y) :
    (x / y).isFinite = true := by
  obtain ⟨m', e', hm', hs', hlog⟩ := hy
  have hbounded : Bounded 971 (UnpackedFloat.div .binary64 x.toModel.unpack y.toModel.unpack) := by
    obtain ⟨s, hs⟩ | ⟨s, m, e, hm, hs, hlt, he⟩ := (isFinite_iff.mp hx).cases
    · rw [hs, hs']
      exact .zero _
    · rw [hs, hs']
      exact bounded_quotient hlt he hm' hlog
  exact isFinite_iff.mpr (isUpTo_pack hbounded (by decide) (le_refl _))

/-- A natural number of 64 bits before it is packed. -/
theorem bounded_ofNat {n : Nat} (h : n < 2 ^ 64) :
    Bounded 13 (UnpackedFloat.ofNat .binary64 n) := by
  obtain rfl | hpos := Nat.eq_zero_or_pos n
  · exact .zero _
  have hcompare : compare (n : Int) 0 = .gt := Int.compare_eq_gt.mpr (by omega)
  have hlog : n.log2 ≤ 63 := Nat.le_of_lt_succ ((Nat.log2_lt hpos.ne').mpr h)
  change Bounded 13 (UnpackedFloat.normalize .binary64 (n : Int) 0 .positive)
  simp only [UnpackedFloat.normalize, hcompare, UnpackedFloat.round, decreaseExponent, targetExponent_eq,
    Int.toNat_natCast]
  set shift := (0 - target n 0).toNat with hshift
  have hshifted : n <<< shift < 2 ^ (64 + shift) := by
    rw [Nat.shiftLeft_eq, Nat.pow_add]
    exact Nat.mul_lt_mul_of_pos_right h (Nat.two_pow_pos shift)
  exact bounded_roundWithAccuracy _ _ hshifted (by omega) (by omega) (by decide)

theorem isUpTo_toFloat (n : UInt64) : IsUpTo 13 n.toFloat :=
  isUpTo_pack (bounded_ofNat n.toNat_lt) (by decide) (by decide)

theorem isUpTo_one : IsUpTo (-52) (Float.ofBits 0x3FF0000000000000) := by
  have h : (Float.ofBits 0x3FF0000000000000).toModel.unpack =
      .finite .positive (2 ^ 52) (-52) (by decide) := by rfl
  rw [IsUpTo, h]
  exact ⟨.finite (le_refl _), Nat.pow_lt_pow_right (by decide) (by decide)⟩

theorem isFinite_ofNat {n : Nat} (h : n < 2 ^ 64) : (Float.ofNat n).isFinite = true := by
  change (Float.ofScientific n false 0).isFinite = true
  unfold Float.ofScientific
  split
  · have hbounded : Bounded 971 (UnpackedFloat.mul .binary64 n.toUInt64.toFloat.toModel.unpack
        (Float.ofBits 0x3FF0000000000000).toModel.unpack) :=
      bounded_mul (isUpTo_toFloat n.toUInt64) isUpTo_one (by decide) (by decide)
    exact isFinite_iff.mpr (isUpTo_pack hbounded (by decide) (le_refl _))
  · have hbounded : Bounded 971 (UnpackedFloat.ofScientific .binary64 n 0) := by
      unfold UnpackedFloat.ofScientific
      split
      · exact .zero _
      · have hexponent : ¬(0 : Int) < -(2 ^ Format.binary64.exponentBits + (n.log2 : Int)) := by
          have hbits : Format.binary64.exponentBits = 11 := rfl
          rw [hbits]
          omega
        rw [if_neg (by decide), if_neg hexponent, if_pos (le_refl 0)]
        have hshifted : n <<< 53 < 2 ^ (64 + 53) := by
          rw [Nat.shiftLeft_eq, Nat.pow_add]
          exact Nat.mul_lt_mul_of_pos_right h (Nat.two_pow_pos 53)
        have hbits : Format.binary64.mantissaBits = 53 := rfl
        simp only [UnpackedFloat.mul, hbits, Int.toNat_zero, Nat.pow_zero, Nat.mul_one]
        exact bounded_roundWithAccuracy _ _ hshifted (by decide) (by decide) (by decide)
    exact isFinite_iff.mpr (isUpTo_pack hbounded (by decide) (le_refl _))

end SheetRecords.Decimal
