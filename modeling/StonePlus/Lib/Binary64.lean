import Mathlib

/-!
# StonePlus.Lib.Binary64

Integers below `2 ^ 53` as doubles.

The model of `Float` rounds a mantissa and an exponent to 53 bits.  An integer that has no more
bits is its own rounding, however it is scaled, so sums and differences of such integers are
exact as long as they are such integers themselves.
-/

namespace StonePlus.Lib.Binary64

open Float.Model Float.Model.UnpackedFloat

/-- The mantissa and the exponent of a positive integer with at most 53 bits. -/
def mantissa (n : Nat) : Nat := n * 2 ^ (52 - n.log2)

def exponent (n : Nat) : Int := n.log2 - 52

theorem log2_lt (h : n < 2 ^ 53) : n.log2 < 53 := by
  rcases Nat.eq_zero_or_pos n with rfl | hpos
  · decide
  · exact (Nat.log2_lt (by omega)).mpr h

theorem log2_mul_two_pow (hpos : 0 < n) (j : Nat) : (n * 2 ^ j).log2 = n.log2 + j := by
  induction j with
  | zero => simp
  | succ j ih =>
      have hne : n * 2 ^ j ≠ 0 := (Nat.mul_pos hpos (Nat.two_pow_pos j)).ne'
      rw [pow_succ, ← Nat.mul_assoc, Nat.mul_comm _ 2, Nat.log2_two_mul hne, ih, Nat.add_assoc]

theorem mantissa_pos (hpos : 0 < n) : 0 < mantissa n :=
  Nat.mul_pos hpos (Nat.two_pow_pos _)

theorem log2_mantissa (hpos : 0 < n) (h : n < 2 ^ 53) : (mantissa n).log2 = 52 := by
  have := log2_lt h
  rw [mantissa, log2_mul_two_pow hpos]
  omega

/-- The canonical form of an integer with at most 53 bits. -/
def ofSigned (s : Sign) (n : Nat) : UnpackedFloat :=
  if h : 0 < n then .finite s (mantissa n) (exponent n) (mantissa_pos h) else .zero .positive

/-! ## Rounding -/

theorem totalExponent_scaled (hpos : 0 < n) (j : Nat) :
    totalExponent (n * 2 ^ j) (-j) = n.log2 + 1 := by
  rw [totalExponent, log2_mul_two_pow hpos]
  push_cast
  ring

/-- An integer with at most 53 bits is far from the subnormal numbers. -/
theorem targetExponent_eq (h : n < 2 ^ 53) :
    Format.binary64.targetExponent (n.log2 + 1) = exponent n := by
  have := log2_lt h
  simp [Format.targetExponent, Format.mantissaBits, Format.minExponent, exponent]
  omega

theorem decreaseExponent_eq (m : Nat) (e : Int) (k : Nat) :
    decreaseExponent m e (e - k) = (m * 2 ^ k, e - k) := by
  have hshift : (e - (e - k)).toNat = k := by omega
  rw [decreaseExponent]
  simp only [hshift, Nat.shiftLeft_eq]

theorem decreaseExponent_of_le (m : Nat) (h : e ≤ t) : decreaseExponent m e t = (m, e) := by
  have hshift : (e - t).toNat = 0 := by omega
  simp [decreaseExponent, hshift]

/-- Bits that are zero are shifted out without a trace. -/
theorem shiftRight_scaled (m k : Nat) :
    (⟨m * 2 ^ k, false, false⟩ : ExtendedMantissa) >>> k = ⟨m, false, false⟩ := by
  show k.repeat ExtendedMantissa.shiftRightOne ⟨m * 2 ^ k, false, false⟩ = _
  induction k generalizing m with
  | zero => simp [Nat.repeat]
  | succ k ih =>
      have hscaled : m * 2 ^ (k + 1) = m * 2 * 2 ^ k := by ring
      rw [Nat.repeat, hscaled, ih]
      simp [ExtendedMantissa.shiftRightOne]

/-- Rounding drops zero bits only when the integer fits. -/
theorem roundWithAccuracy_scaled {n : Nat} (hpos : 0 < n) (h : n < 2 ^ 53) (s : Sign) {m k : Nat}
    {e : Int} (hm : m = mantissa n * 2 ^ k) (he : e = exponent n - k) :
    roundWithAccuracy .binary64 s m e .exact = ofSigned s n := by
  have htotal : ∀ j : Nat, totalExponent (mantissa n * 2 ^ j) (exponent n - j) = n.log2 + 1 := by
    intro j
    have := log2_mantissa hpos h
    rw [totalExponent, log2_mul_two_pow (mantissa_pos hpos), this, exponent]
    push_cast
    ring
  have hshift : ∀ j : Nat, shiftToTargetExponent .binary64 (mantissa n * 2 ^ j) (exponent n - j)
      .exact = (⟨mantissa n, false, false⟩, exponent n) := by
    intro j
    have hamount : (exponent n - (exponent n - j)).toNat = j := by omega
    rw [shiftToTargetExponent, htotal, targetExponent_eq h, shiftToExponent]
    simp only [hamount, ExtendedMantissa.ofMantissaAndAccuracy, shiftRight_scaled]
    congr 1
    omega
  have hfirst := hshift k
  have hsecond := hshift 0
  simp only [pow_zero, Nat.mul_one, Nat.cast_zero, sub_zero] at hsecond
  rw [roundWithAccuracy, hm, he, hfirst]
  simp only [ExtendedMantissa.roundedMantissa, ExtendedMantissa.accuracy,
    Accuracy.roundToNearestEven, hsecond]
  rw [dif_neg (mantissa_pos hpos).ne', ofSigned, dif_pos hpos]

theorem round_scaled (hpos : 0 < n) (h : n < 2 ^ 53) (s : Sign) (j : Nat) :
    round .binary64 s (n * 2 ^ j) (-j) = ofSigned s n := by
  have hlog := log2_lt h
  rw [UnpackedFloat.round, totalExponent_scaled hpos, targetExponent_eq h]
  by_cases hle : j ≤ 52 - n.log2
  · -- The mantissa is widened to 53 bits.
    have htarget : exponent n = -(j : Int) - ((52 - n.log2 - j : Nat) : Int) := by
      rw [exponent]
      omega
    rw [htarget, decreaseExponent_eq]
    refine @roundWithAccuracy_scaled _ hpos h s _ 0 _ ?_ (by simp [htarget])
    rw [mantissa, Nat.mul_assoc, ← pow_add, pow_zero, Nat.mul_one]
    congr 2
    omega
  · -- The zero bits beyond the 53 are dropped.
    rw [decreaseExponent_of_le _ (by rw [exponent]; omega)]
    refine @roundWithAccuracy_scaled _ hpos h s _ (j - (52 - n.log2)) _ ?_ ?_
    · rw [mantissa, Nat.mul_assoc, ← pow_add]
      congr 2
      omega
    · rw [exponent]
      omega

/-- The double of an integer. -/
def ofInt (n : Int) : UnpackedFloat :=
  ofSigned (if n < 0 then .negative else .positive) n.natAbs

theorem ofInt_zero : ofInt 0 = .zero .positive := rfl

theorem normalize_scaled (h : n.natAbs < 2 ^ 53) (j : Nat) :
    normalize .binary64 (n * 2 ^ j) (-j) .positive = ofInt n := by
  have hscale : (0 : Int) < 2 ^ j := by positivity
  rcases lt_trichotomy n 0 with hneg | rfl | hpos
  · have hlt : n * 2 ^ j < 0 := by nlinarith
    have hcompare : compare (n * 2 ^ j) 0 = .lt := Int.compare_eq_lt.mpr hlt
    have habs : (-(n * 2 ^ j)).toNat = n.natAbs * 2 ^ j := by
      zify
      rw [Int.toNat_of_nonneg (by omega), abs_of_neg hneg]
      ring
    rw [UnpackedFloat.normalize, hcompare]
    simp only [habs, round_scaled (show 0 < n.natAbs by omega) h, ofInt, if_pos hneg]
  · simp [UnpackedFloat.normalize, ofInt_zero]
  · have hgt : 0 < n * 2 ^ j := by positivity
    have hcompare : compare (n * 2 ^ j) 0 = .gt := Int.compare_eq_gt.mpr hgt
    have habs : (n * 2 ^ j).toNat = n.natAbs * 2 ^ j := by
      zify
      rw [Int.toNat_of_nonneg (by omega), abs_of_pos hpos]
    rw [UnpackedFloat.normalize, hcompare]
    simp only [habs, round_scaled (show 0 < n.natAbs by omega) h, ofInt, if_neg (not_lt.mpr hpos.le)]

/-! ## Packing -/

theorem unpackSign_packComponents : unpackSign (packComponents spec s e m) = s.toBitVec := by
  ext i hi
  have hzero : i = 0 := by omega
  subst hzero
  simp [unpackSign, packComponents, BitVec.getLsbD_append, BitVec.getElem_append]

theorem mantissa_lt (hpos : 0 < n) (h : n < 2 ^ 53) : mantissa n < 2 ^ 53 :=
  (Nat.log2_lt (mantissa_pos hpos).ne').mp (by rw [log2_mantissa hpos h]; omega)

theorem le_mantissa (hpos : 0 < n) (h : n < 2 ^ 53) : 2 ^ 52 ≤ mantissa n :=
  (Nat.le_log2 (mantissa_pos hpos).ne').mp (log2_mantissa hpos h).ge

theorem pack_finite (s : Sign) (hpos : 0 < n) (h : n < 2 ^ 53) :
    UnpackedFloat.pack .binary64 (.finite s (mantissa n) (exponent n) (mantissa_pos hpos)) =
      packComponents .binary64 s (BitVec.ofNat 11 (n.log2 + 1023))
        (BitVec.ofNat 52 (mantissa n)) := by
  have hlog := log2_lt h
  have hbiased : (exponent n + (Format.binary64.exponentBias : Nat) + (52 : Nat)).toNat =
      n.log2 + 1023 := by
    simp [exponent, Format.exponentBias]
    omega
  have hsmall : ¬2 ^ 11 ≤ n.log2 + 1023 + 1 := by omega
  unfold UnpackedFloat.pack
  simp only [hbiased, log2_mantissa hpos h]
  rw [if_neg hsmall]
  exact if_pos rfl

theorem finite_congr (hs : s = s') (hm : m = m') (he : e = e') (h : 0 < m) (h' : 0 < m') :
    UnpackedFloat.finite s m e h = .finite s' m' e' h' := by
  subst hs hm he
  rfl

/-- The implicit bit is the leading bit of the mantissa. -/
theorem toNat_implicitBit (hlow : 2 ^ 52 ≤ m) (hhigh : m < 2 ^ 53) :
    (1#1 ++ BitVec.ofNat 52 m).toNat = m := by
  have hmod : m % 2 ^ 52 = m - 2 ^ 52 := by omega
  rw [BitVec.toNat_append, ← Nat.shiftLeft_add_eq_or_of_lt (BitVec.isLt _), BitVec.toNat_ofNat,
    BitVec.toNat_ofNat, hmod, Nat.shiftLeft_eq]
  omega

/-- The bits of an integer are those of its canonical form. -/
theorem unpack_pack_ofSigned (s : Sign) (h : n < 2 ^ 53) :
    UnpackedFloat.unpack .binary64 (UnpackedFloat.pack .binary64 (ofSigned s n)) =
      ofSigned s n := by
  by_cases hpos : 0 < n
  · have hlog := log2_lt h
    have hlow := le_mantissa hpos h
    have hhigh := mantissa_lt hpos h
    have hexponent : (BitVec.ofNat 11 (n.log2 + 1023)).toNat = n.log2 + 1023 := by
      rw [BitVec.toNat_ofNat]
      omega
    have hones : BitVec.ofNat 11 (n.log2 + 1023) ≠ -1#11 := by
      intro heq
      have := congrArg BitVec.toNat heq
      rw [hexponent] at this
      simp at this
      omega
    have hzero : BitVec.ofNat 11 (n.log2 + 1023) ≠ 0#11 := by
      intro heq
      have := congrArg BitVec.toNat heq
      rw [hexponent] at this
      simp at this
    have hbias : ((n.log2 + 1023 : Nat) : Int) - ((Format.binary64.exponentBias : Nat) + (52 : Nat)) =
        exponent n := by
      simp [exponent, Format.exponentBias]
      omega
    simp only [ofSigned, dif_pos hpos, pack_finite s hpos h, UnpackedFloat.unpack,
      unpackMantissa_packComponents, unpackExponent_packComponents, unpackSign_packComponents]
    rw [if_neg hones, if_neg hzero]
    exact finite_congr (by cases s <;> rfl) (toNat_implicitBit hlow hhigh)
      (by rw [hexponent]; exact hbias) _ _
  · have hzero : n = 0 := by omega
    subst hzero
    cases s <;> rfl

/-! ## Sums and differences -/

/-- The sign of an integer. -/
def signOf (n : Int) : Sign := if n < 0 then .negative else .positive

theorem ofInt_of_ne (hne : n ≠ 0) :
    ofInt n = .finite (signOf n) (mantissa n.natAbs) (exponent n.natAbs)
      (mantissa_pos (Int.natAbs_pos.mpr hne)) := by
  rw [ofInt, ofSigned, dif_pos (Int.natAbs_pos.mpr hne)]
  rfl

/-- The mantissa at an exponent that is not above its own. -/
theorem decreaseExponent_mantissa (h : n.natAbs < 2 ^ 53) {j : Nat}
    (hj : -(j : Int) ≤ exponent n.natAbs) :
    (signOf n).apply (decreaseExponent (mantissa n.natAbs) (exponent n.natAbs) (-j)).1 =
      n * 2 ^ j := by
  have hlog := log2_lt h
  obtain ⟨k, hk⟩ : ∃ k : Nat, -(j : Int) = exponent n.natAbs - k :=
    ⟨(exponent n.natAbs + j).toNat, by omega⟩
  have hscale : 52 - n.natAbs.log2 + k = j := by
    rw [exponent] at hk
    omega
  have happly : ∀ m : Nat, (signOf n).apply (n.natAbs * m : Nat) = n * m := by
    intro m
    by_cases hneg : n < 0
    · rw [signOf, if_pos hneg]
      show -((n.natAbs * m : Nat) : Int) = n * m
      push_cast
      rw [abs_of_neg hneg]
      ring
    · rw [signOf, if_neg hneg]
      show ((n.natAbs * m : Nat) : Int) = n * m
      push_cast
      rw [abs_of_nonneg (not_lt.mp hneg)]
  rw [hk, decreaseExponent_eq, mantissa, Nat.mul_assoc, ← pow_add, hscale, happly]
  push_cast
  rfl

/-- The smaller of two exponents, as the number of places behind the point. -/
theorem exists_min_exponent (a b : Nat) (ha : a < 2 ^ 53) (hb : b < 2 ^ 53) :
    ∃ j : Nat, min (exponent a) (exponent b) = -j ∧ -(j : Int) ≤ exponent a ∧
      -(j : Int) ≤ exponent b := by
  have := log2_lt ha
  have := log2_lt hb
  refine ⟨52 - min a.log2 b.log2, ?_, ?_, ?_⟩
  all_goals
    rw [exponent]
    try rw [exponent]
    omega

theorem add_ofInt {b : Int} (ha : a.natAbs < 2 ^ 53) (hb : b.natAbs < 2 ^ 53)
    (hab : (a + b).natAbs < 2 ^ 53) :
    UnpackedFloat.add .binary64 (ofInt a) (ofInt b) = ofInt (a + b) := by
  rcases eq_or_ne a 0 with rfl | hane
  · rw [zero_add, ofInt_zero]
    rcases eq_or_ne b 0 with rfl | hbne
    · rfl
    · rw [ofInt_of_ne hbne]
      rfl
  · rcases eq_or_ne b 0 with rfl | hbne
    · rw [add_zero, ofInt_zero, ofInt_of_ne hane]
      rfl
    · obtain ⟨j, hmin, hja, hjb⟩ := exists_min_exponent a.natAbs b.natAbs ha hb
      have hsum := normalize_scaled hab j
      rw [ofInt_of_ne hane, ofInt_of_ne hbne, UnpackedFloat.add]
      simp only [hmin, decreaseExponent_mantissa ha hja, decreaseExponent_mantissa hb hjb]
      rw [← add_mul]
      exact hsum

theorem sub_ofInt {b : Int} (ha : a.natAbs < 2 ^ 53) (hb : b.natAbs < 2 ^ 53)
    (hab : (a - b).natAbs < 2 ^ 53) :
    UnpackedFloat.sub .binary64 (ofInt a) (ofInt b) = ofInt (a - b) := by
  rcases eq_or_ne b 0 with rfl | hbne
  · rw [sub_zero, ofInt_zero]
    rcases eq_or_ne a 0 with rfl | hane
    · rfl
    · rw [ofInt_of_ne hane]
      rfl
  · rcases eq_or_ne a 0 with rfl | hane
    · have hneg : -b ≠ 0 := neg_ne_zero.mpr hbne
      rw [zero_sub, ofInt_zero, ofInt_of_ne hbne, ofInt_of_ne hneg]
      refine finite_congr ?_ (by rw [Int.natAbs_neg]) (by rw [Int.natAbs_neg]) _ _
      rcases lt_or_gt_of_ne hbne with hlt | hgt
      · rw [signOf, signOf, if_pos hlt, if_neg (by omega)]
        rfl
      · rw [signOf, signOf, if_neg (by omega), if_pos (by omega)]
        rfl
    · obtain ⟨j, hmin, hja, hjb⟩ := exists_min_exponent a.natAbs b.natAbs ha hb
      have hdifference := normalize_scaled hab j
      rw [ofInt_of_ne hane, ofInt_of_ne hbne, UnpackedFloat.sub]
      simp only [hmin, decreaseExponent_mantissa ha hja, decreaseExponent_mantissa hb hjb]
      rw [← sub_mul]
      exact hdifference

/-! ## Values -/

theorem isFinite_ofInt (n : Int) : (ofInt n).isFinite = true := by
  rcases eq_or_ne n 0 with rfl | hne
  · rfl
  · rw [ofInt_of_ne hne]
    rfl

theorem isNaN_ofInt (n : Int) : (ofInt n).isNaN = false := by
  rcases eq_or_ne n 0 with rfl | hne
  · rfl
  · rw [ofInt_of_ne hne]
    rfl

theorem lt_zero_iff (n : Int) : UnpackedFloat.lt (ofInt n) (ofInt 0) = true ↔ n < 0 := by
  rcases lt_trichotomy n 0 with hneg | rfl | hpos
  · rw [ofInt_of_ne hneg.ne, signOf, if_pos hneg]
    exact iff_of_true rfl hneg
  · exact iff_of_false (by decide) (lt_irrefl 0)
  · rw [ofInt_of_ne hpos.ne', signOf, if_neg (not_lt.mpr hpos.le)]
    exact iff_of_false Bool.false_ne_true (not_lt.mpr hpos.le)

theorem zero_lt_iff (n : Int) : UnpackedFloat.lt (ofInt 0) (ofInt n) = true ↔ 0 < n := by
  rcases lt_trichotomy n 0 with hneg | rfl | hpos
  · rw [ofInt_of_ne hneg.ne, signOf, if_pos hneg]
    exact iff_of_false Bool.false_ne_true (not_lt.mpr hneg.le)
  · exact iff_of_false (by decide) (lt_irrefl 0)
  · rw [ofInt_of_ne hpos.ne', signOf, if_neg (not_lt.mpr hpos.le)]
    exact iff_of_true rfl hpos

theorem beq_zero_iff (n : Int) : UnpackedFloat.beq (ofInt n) (ofInt 0) = true ↔ n = 0 := by
  rcases lt_trichotomy n 0 with hneg | rfl | hpos
  · rw [ofInt_of_ne hneg.ne, signOf, if_pos hneg]
    exact iff_of_false Bool.false_ne_true hneg.ne
  · exact iff_of_true (by decide) rfl
  · rw [ofInt_of_ne hpos.ne', signOf, if_neg (not_lt.mpr hpos.le)]
    exact iff_of_false Bool.false_ne_true hpos.ne'

end StonePlus.Lib.Binary64
