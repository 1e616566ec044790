import LatticeScene.Proofs.Binary32.Finite
import Mathlib

/-!
# Division by one

The mantissa of one is a power of two, so that a quotient by one is found by shifting the dividend
to the left, without a remainder, and rounding shifts it back.  A number in canonical form gets its
own mantissa and exponent from that, and dividing by one changes nothing (`div_one_eq`): neither a
number nor an infinity, and a NaN stays one.
-/

namespace LatticeScene.Binary32

open Float.Model (Format UnpackedFloat totalExponent)
open Float.Model.UnpackedFloat

/-! ### Shifting to the left and back -/

/-- Zeros that are shifted in leave no residual bits when they are shifted out again. -/
theorem shiftRight_ofMantissa_shiftLeft (m k : Nat) :
    ExtendedMantissa.ofMantissaAndAccuracy (m <<< k) .exact >>> k =
      ExtendedMantissa.ofMantissaAndAccuracy m .exact := by
  induction k generalizing m with
  | zero => rfl
  | succ k ih =>
    have hsplit : ExtendedMantissa.ofMantissaAndAccuracy (m <<< (k + 1)) .exact >>> (k + 1) =
        (ExtendedMantissa.ofMantissaAndAccuracy ((2 * m) <<< k) .exact >>> k).shiftRightOne := rfl
    have hdouble : (ExtendedMantissa.ofMantissaAndAccuracy (2 * m) .exact).shiftRightOne =
        ⟨2 * m / 2, 2 * m % 2 != 0, false || false⟩ := rfl
    have hhalf : 2 * m / 2 = m := Nat.mul_div_cancel_left m (by decide)
    rw [hsplit, ih, hdouble, hhalf, Nat.mul_mod_right]
    rfl

/-- Shifting a number to the left by some places moves its leading bit by as many. -/
theorem log2_shiftLeft {m : Nat} (hm : m ≠ 0) (k : Nat) : (m <<< k).log2 = m.log2 + k := by
  induction k generalizing m with
  | zero => rfl
  | succ k ih =>
    have hdouble : 2 * m ≠ 0 := by omega
    rw [Nat.shiftLeft_succ_inside, ih hdouble, Nat.log2_two_mul hm]
    omega

section Canonical

variable {s : Sign} {m : Nat} {e : Int} {hm : 0 < m}

/-- A canonical mantissa is shifted as far to the right as it was shifted to the left. -/
theorem Canonical.shiftAmount_shiftLeft (h : Canonical (.finite s m e hm)) (k : Nat) :
    shiftAmount (m <<< k) (e - k) = k := by
  obtain ⟨hmantissa, hleast, -, hbits⟩ := h
  have hlog : m.log2 ≤ 23 := log2_le_of_lt hmantissa
  have hne : m ≠ 0 := Nat.ne_of_gt hm
  have hfull : 8388608 ≤ m → 23 ≤ m.log2 := fun hle => (Nat.le_log2 hne).mpr hle
  unfold shiftAmount
  rw [log2_shiftLeft hne]
  omega

/-- A number in canonical form is rounded to itself, however far it was shifted to the left. -/
theorem Canonical.roundWithAccuracy_shiftLeft (h : Canonical (.finite s m e hm)) (k : Nat) :
    roundWithAccuracy Format.binary32 s (m <<< k) (e - k) .exact = .finite s m e hm := by
  have hback : e - (k : Int) + (k : Nat) = e := by omega
  have hexact : (ExtendedMantissa.ofMantissaAndAccuracy m .exact).roundedMantissa = m := rfl
  have hagain : shiftAmount m e = 0 := by
    have hzero := h.shiftAmount_shiftLeft 0
    rwa [Nat.shiftLeft_zero, Int.natCast_zero, Int.sub_zero] at hzero
  have hfinal : shiftToTargetExponent Format.binary32 m e .exact =
      (ExtendedMantissa.ofMantissaAndAccuracy m .exact, e) := by
    rw [shiftToTargetExponent_eq, hagain, Int.natCast_zero, Int.add_zero]
    rfl
  have hfirst : shiftToTargetExponent Format.binary32 (m <<< k) (e - k) .exact =
      (ExtendedMantissa.ofMantissaAndAccuracy m .exact, e) := by
    rw [shiftToTargetExponent_eq, h.shiftAmount_shiftLeft, shiftRight_ofMantissa_shiftLeft, hback]
  simp only [roundWithAccuracy, hfirst, hexact, hfinal]
  exact dif_neg (Nat.ne_of_gt hm)

/-! ### Quotients -/

/-- Dividing a canonical mantissa by that of one shifts it to the left, and leaves no remainder. -/
theorem Canonical.exists_divCore_one (h : Canonical (.finite s m e hm)) :
    ∃ k : Nat, divCore Format.binary32 m e 8388608 (-23) = (m <<< k, e - k, .exact) := by
  obtain ⟨hmantissa, hleast, -, hbits⟩ := h
  have hlog : m.log2 ≤ 23 := log2_le_of_lt hmantissa
  have htarget : Format.binary32.targetExponent (totalExponent m e - totalExponent 8388608 (-23)) =
      max ((m.log2 : Int) + 1 + e - (23 + 1 + -23) - 24) (-149) := by
    have hlog' : ((8388608 : Nat).log2 : Int) = 23 := by decide
    rw [← hlog']
    rfl
  obtain ⟨k, hk⟩ : ∃ k : Nat, min (e - -23) (Format.binary32.targetExponent
      (totalExponent m e - totalExponent 8388608 (-23))) = e - k := by
    rw [htarget]
    exact ⟨(e - max ((m.log2 : Int) + 1 + e - (23 + 1 + -23) - 24) (-149)).toNat, by omega⟩
  -- the 23 places of the divisor are shifted in first, so that the quotient is exact
  have hamount : (e - -23 - (e - (k : Int))).toNat = k + 23 := by omega
  have hshift : m <<< (k + 23) = m <<< k * 8388608 := by
    rw [Nat.shiftLeft_add, Nat.shiftLeft_eq _ 23]
  refine ⟨k, ?_⟩
  simp only [divCore, hk, hamount, hshift]
  rw [Nat.mul_div_cancel _ (by decide), Nat.mul_mod_left]
  rfl

end Canonical

/-- Unpacked numbers are divided by one. -/
theorem div_unpacked_one {a : UnpackedFloat} (h : Canonical a) :
    div Format.binary32 a (.finite .positive 8388608 (-23) (by decide)) = a := by
  cases a with
  | notANumber => rfl
  | infinity s => simp only [div, div_positive]
  | zero s => simp only [div, div_positive]
  | finite s m e hm =>
    obtain ⟨k, hcore⟩ := h.exists_divCore_one
    simp only [div, hcore, div_positive]
    exact h.roundWithAccuracy_shiftLeft k

/-- Dividing by one changes nothing. -/
theorem div_one_eq (x : Float32) : x / Float32.ofNat 1 = x := by
  have hquotient : (x / Float32.ofNat 1).toModel =
      Float32.Model.pack (div Format.binary32 x.toModel.unpack
        (Float32.ofNat 1).toModel.unpack) := rfl
  have hunpack : div Format.binary32 x.toModel.unpack
      (.finite .positive 8388608 (-23) (by decide)) = x.toModel.unpack :=
    div_unpacked_one (canonical_unpack _)
  have hpack : (Float32.Model.pack x.toModel.unpack).toBits.toBitVec =
      x.toModel.toBits.toBitVec := pack_unpack_of_valid x.toModel.valid
  rw [unpack_one, hunpack] at hquotient
  have hbits : (x / Float32.ofNat 1).toModel.toBits.toBitVec = x.toModel.toBits.toBitVec := by
    rw [hquotient, hpack]
  exact Float32.toBits_inj.mp (UInt32.toBitVec_inj.mp hbits)

end LatticeScene.Binary32
