import StonePlus.Js.Number
import StonePlus.Lib.Binary64

/-!
# StonePlus.Js.SafeInteger

Numbers that are safe integers: the language's sums and differences of them are exact.
-/

namespace StonePlus.JsNumber

open Lib

theorem toModel_ofInt (n : Int) :
    (ofInt n).toModel = .pack (Float.Model.UnpackedFloat.ofInt .binary64 n) := rfl

theorem unpack_ofInt (h : n.natAbs < 2 ^ 53) : (ofInt n).toModel.unpack = Binary64.ofInt n := by
  have hofInt : Float.Model.UnpackedFloat.ofInt .binary64 n = Binary64.ofInt n := by
    have := Binary64.normalize_scaled h 0
    simpa [Float.Model.UnpackedFloat.ofInt] using this
  rw [toModel_ofInt, hofInt]
  exact Binary64.unpack_pack_ofSigned _ h

/-- Numbers with the same canonical form are the same number. -/
theorem ofModel_pack_ofInt (h : n.natAbs < 2 ^ 53) :
    Float.ofModel (.pack (Binary64.ofInt n)) = ofInt n := by
  have hofInt : Float.Model.UnpackedFloat.ofInt .binary64 n = Binary64.ofInt n := by
    have := Binary64.normalize_scaled h 0
    simpa [Float.Model.UnpackedFloat.ofInt] using this
  rw [← hofInt]
  rfl

theorem ofInt_add {a b : Int} (ha : a.natAbs < 2 ^ 53) (hb : b.natAbs < 2 ^ 53)
    (hab : (a + b).natAbs < 2 ^ 53) : ofInt a + ofInt b = ofInt (a + b) := by
  rw [← ofModel_pack_ofInt hab, ← Binary64.add_ofInt ha hb hab, ← unpack_ofInt ha,
    ← unpack_ofInt hb]
  rfl

theorem ofInt_sub {a b : Int} (ha : a.natAbs < 2 ^ 53) (hb : b.natAbs < 2 ^ 53)
    (hab : (a - b).natAbs < 2 ^ 53) : ofInt a - ofInt b = ofInt (a - b) := by
  rw [← ofModel_pack_ofInt hab, ← Binary64.sub_ofInt ha hb hab, ← unpack_ofInt ha,
    ← unpack_ofInt hb]
  rfl

theorem isFinite_ofInt (h : n.natAbs < 2 ^ 53) : (ofInt n).isFinite = true := by
  show (ofInt n).toModel.unpack.isFinite = true
  rw [unpack_ofInt h]
  exact Binary64.isFinite_ofInt n

theorem isNaN_ofInt (h : n.natAbs < 2 ^ 53) : (ofInt n).isNaN = false := by
  show (ofInt n).toModel.unpack.isNaN = false
  rw [unpack_ofInt h]
  exact Binary64.isNaN_ofInt n

theorem ofInt_lt_zero {n : Int} (h : n.natAbs < 2 ^ 53) : ofInt n < ofInt 0 ↔ n < 0 := by
  have hlt := Binary64.lt_zero_iff n
  rw [← unpack_ofInt h, ← unpack_ofInt (by decide)] at hlt
  exact decide_eq_true_iff.trans hlt

theorem zero_lt_ofInt {n : Int} (h : n.natAbs < 2 ^ 53) : ofInt 0 < ofInt n ↔ 0 < n := by
  have hlt := Binary64.zero_lt_iff n
  rw [← unpack_ofInt h, ← unpack_ofInt (by decide)] at hlt
  exact decide_eq_true_iff.trans hlt

theorem ofInt_beq_zero (h : n.natAbs < 2 ^ 53) : (ofInt n == ofInt 0) = true ↔ n = 0 := by
  have hbeq := Binary64.beq_zero_iff n
  rw [← unpack_ofInt h, ← unpack_ofInt (by decide)] at hbeq
  exact hbeq

theorem toRat?_ofInt (h : n.natAbs < 2 ^ 53) : (ofInt n).toRat? = some (n : ℚ) := by
  unfold toRat?
  rw [unpack_ofInt h]
  rcases eq_or_ne n 0 with rfl | hne
  · rfl
  · have hlog := Binary64.log2_lt h
    have hvalue : (Binary64.mantissa n.natAbs : ℚ) * 2 ^ Binary64.exponent n.natAbs =
        n.natAbs := by
      rw [Binary64.mantissa, Binary64.exponent]
      push_cast
      rw [mul_assoc, ← zpow_natCast, ← zpow_add₀ (by norm_num)]
      have hzero : ((52 - n.natAbs.log2 : Nat) : Int) + ((n.natAbs.log2 : Int) - 52) = 0 := by
        omega
      rw [hzero, zpow_zero, mul_one]
    rw [Binary64.ofInt_of_ne hne]
    rcases lt_or_gt_of_ne hne with hneg | hpos
    · have habs : (n.natAbs : ℚ) = -n := by
        rw [Nat.cast_natAbs, abs_of_neg hneg]
        push_cast
        rfl
      rw [Binary64.signOf, if_pos hneg]
      simp only [hvalue, habs, neg_neg]
    · have habs : (n.natAbs : ℚ) = n := by
        rw [Nat.cast_natAbs, abs_of_pos hpos]
      rw [Binary64.signOf, if_neg (not_lt.mpr hpos.le)]
      simp only [hvalue, habs]

theorem ofInt_injective {a b : Int} (ha : a.natAbs < 2 ^ 53) (hb : b.natAbs < 2 ^ 53)
    (h : ofInt a = ofInt b) : a = b := by
  have hrat := toRat?_ofInt ha
  rw [h, toRat?_ofInt hb] at hrat
  exact_mod_cast (Option.some.inj hrat).symm

end StonePlus.JsNumber
