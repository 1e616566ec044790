import LatticeScene.Proofs.Binary32.Order

/-!
# Finite results of arithmetic

A number becomes infinite only when its exponent is beyond 104 after rounding.  What is rounded is
at most as large as the greatest finite number, if it is `AtMost` that number before, so that
`Signed` numbers, which are finite and have a known sign, stay finite when they are halved, turned
around or subtracted from a number with the same sign.  Sums and products are not NaN as long as no
two infinities meet, and no infinity meets a zero.
-/

namespace LatticeScene.Binary32

open Float.Model (Format UnpackedFloat totalExponent)
open Float.Model.UnpackedFloat

/-! ### Rounding -/

/-- A mantissa with residual bits is at most a natural number. -/
def AtMost (em : ExtendedMantissa) (n : Nat) : Prop :=
  em.mantissa < n ∨ em.mantissa = n ∧ em.roundBit = false ∧ em.stickyBit = false

section AtMost

variable {em : ExtendedMantissa} {n : Nat}

/-- A bound on twice a mantissa is halved by a shift of one place, whatever bits fall off. -/
theorem AtMost.shiftRightOne (h : AtMost em (2 * n)) : AtMost em.shiftRightOne n := by
  have hmantissa : em.shiftRightOne.mantissa = em.mantissa / 2 := rfl
  have hroundBit : em.shiftRightOne.roundBit = (em.mantissa % 2 != 0) := rfl
  have hstickyBit : em.shiftRightOne.stickyBit = (em.roundBit || em.stickyBit) := rfl
  rcases h with hlt | ⟨heq, hround, hsticky⟩
  · exact Or.inl (by omega)
  · refine Or.inr ⟨by omega, ?_, ?_⟩
    · rw [hroundBit, heq, Nat.mul_mod_right]
      rfl
    · rw [hstickyBit, hround, hsticky]
      rfl

/-- A bound that was shifted to the left bounds the mantissa that is shifted back to the right. -/
theorem AtMost.shiftRight {k : Nat} (h : AtMost em (n <<< k)) : AtMost (em >>> k) n := by
  induction k generalizing n with
  | zero => exact h
  | succ k ih =>
    have hdouble : AtMost em ((2 * n) <<< k) := by
      rwa [Nat.shiftLeft_succ_inside] at h
    exact (ih hdouble).shiftRightOne

/-- The mantissa that is extended is the one that is read back, however exact it is. -/
theorem mantissa_ofMantissaAndAccuracy (m : Nat) (accuracy : Accuracy) :
    (ExtendedMantissa.ofMantissaAndAccuracy m accuracy).mantissa = m := by
  cases accuracy with
  | exact => rfl
  | inexact ordering => cases ordering <;> rfl

/-- A bound on an extended mantissa bounds its mantissa. -/
theorem AtMost.mantissa_le (h : AtMost em n) : em.mantissa ≤ n := by
  rcases h with hlt | ⟨heq, -⟩
  · exact Nat.le_of_lt hlt
  · exact Nat.le_of_eq heq

/-- Rounding does not pass a natural number. -/
theorem AtMost.roundedMantissa_le (h : AtMost em n) : em.roundedMantissa ≤ n := by
  obtain ⟨m, roundBit, stickyBit⟩ := em
  rcases h with hlt | ⟨rfl, rfl, rfl⟩
  · have hmantissa : m < n := hlt
    cases roundBit <;> cases stickyBit <;>
      simp only [ExtendedMantissa.roundedMantissa, ExtendedMantissa.accuracy,
        Accuracy.roundToNearestEven] <;> omega
  · exact Nat.le_refl _

/-- An exact mantissa is bounded by what bounds its number. -/
theorem atMost_exact_iff {m : Nat} : AtMost (.ofMantissaAndAccuracy m .exact) n ↔ m ≤ n := by
  constructor
  · exact AtMost.mantissa_le
  · intro hle
    rcases Nat.lt_or_eq_of_le hle with hlt | heq
    · exact Or.inl hlt
    · exact Or.inr ⟨heq, rfl, rfl⟩

/-- A mantissa below a bound stays within it even if it stands for something a little larger. -/
theorem atMost_of_lt {m : Nat} (h : m < n) (accuracy : Accuracy) :
    AtMost (.ofMantissaAndAccuracy m accuracy) n := by
  refine Or.inl ?_
  rwa [mantissa_ofMantissaAndAccuracy]

end AtMost

/-- The exponent to which a number is rounded leaves room for 24 bits, and is never below the
smallest one. -/
theorem targetExponent_eq (m : Nat) (e : Int) :
    Format.binary32.targetExponent (totalExponent m e) = max ((m.log2 : Int) + e - 23) (-149) := by
  have htarget : Format.binary32.targetExponent (totalExponent m e) =
      max ((m.log2 : Int) + 1 + e - 24) (-149) := rfl
  omega

/-- How far a mantissa is shifted to the right. -/
def shiftAmount (m : Nat) (e : Int) : Nat := (max ((m.log2 : Int) + e - 23) (-149) - e).toNat

/-- Rounding shifts a mantissa to the right, and its exponent goes up by as many places. -/
theorem shiftToTargetExponent_eq (m : Nat) (e : Int) (accuracy : Accuracy) :
    shiftToTargetExponent Format.binary32 m e accuracy =
      (ExtendedMantissa.ofMantissaAndAccuracy m accuracy >>> shiftAmount m e,
        e + shiftAmount m e) := by
  unfold shiftToTargetExponent
  rw [targetExponent_eq]
  rfl

/-- The leading bit of a number below a power of two stands below the bit of that power. -/
theorem log2_le_of_lt {m k : Nat} (h : m < 1 <<< (k + 1)) : m.log2 ≤ k := by
  rw [Nat.one_shiftLeft] at h
  by_cases hzero : m = 0
  · rw [hzero]
    exact Nat.zero_le k
  · exact Nat.le_of_lt_succ ((Nat.log2_lt hzero).mpr h)

/-- A number whose leading bit stands low enough is below the next power of two. -/
theorem lt_shiftLeft_of_log2_le {m k : Nat} (h : m.log2 ≤ k) : m < 1 <<< (k + 1) := by
  rw [Nat.one_shiftLeft]
  exact Nat.lt_of_lt_of_le Nat.lt_log2_self (Nat.pow_le_pow_right (by decide) (by omega))

/-- The power of two that lies 24 places up is the bound on mantissas, shifted. -/
theorem shiftLeft_add_one (k : Nat) : 1 <<< (23 + k + 1) = 16777216 <<< k := by
  rw [Nat.add_right_comm, Nat.shiftLeft_add]
  rfl

/-- Shifting to the left keeps one number below another. -/
theorem shiftLeft_lt_shiftLeft {a b : Nat} (h : a < b) (k : Nat) : a <<< k < b <<< k := by
  rw [Nat.shiftLeft_eq, Nat.shiftLeft_eq]
  exact Nat.mul_lt_mul_of_pos_right h (Nat.two_pow_pos k)

/-- A larger number shifted by more places is at least as large. -/
theorem shiftLeft_le_shiftLeft {a b k l : Nat} (h : a ≤ b) (hk : k ≤ l) : a <<< k ≤ b <<< l := by
  rw [Nat.shiftLeft_eq, Nat.shiftLeft_eq]
  exact Nat.mul_le_mul h (Nat.pow_le_pow_right (by decide) hk)

/-- A finite number or zero with a sign, whose exponent can be packed. -/
inductive Fits (s : Sign) : UnpackedFloat → Prop where
  | zero : Fits s (.zero s)
  | finite {m : Nat} {e : Int} (hm : 0 < m) (he : e ≤ 104) : Fits s (.finite s m e hm)

section Rounding

variable {s : Sign} {m : Nat} {e : Int} {accuracy : Accuracy}

/-- A number is rounded to as many bits as it may have, and shifted once more if that made it
longer. -/
theorem fits_roundWithAccuracy_of_le {rounded : Nat}
    (hrounded : (ExtendedMantissa.ofMantissaAndAccuracy m accuracy >>>
      shiftAmount m e).roundedMantissa = rounded)
    (h : e + shiftAmount m e + shiftAmount rounded (e + shiftAmount m e) ≤ 104) :
    Fits s (roundWithAccuracy Format.binary32 s m e accuracy) := by
  simp only [roundWithAccuracy, shiftToTargetExponent_eq, hrounded]
  split
  · exact .zero
  · exact .finite _ h

/-- A magnitude that is not greater than that of the greatest finite number is not rounded to
infinity. -/
theorem fits_roundWithAccuracy (he : e ≤ 104)
    (h : AtMost (.ofMantissaAndAccuracy m accuracy) (16777215 <<< (104 - e).toNat)) :
    Fits s (roundWithAccuracy Format.binary32 s m e accuracy) := by
  have hmantissa : m ≤ 16777215 <<< (104 - e).toNat := by
    have hle := h.mantissa_le
    rwa [mantissa_ofMantissaAndAccuracy] at hle
  have hlog : m.log2 ≤ 23 + (104 - e).toNat := by
    refine log2_le_of_lt (Nat.lt_of_le_of_lt hmantissa ?_)
    rw [shiftLeft_add_one]
    exact shiftLeft_lt_shiftLeft (by decide) _
  have hlog' : m.log2 ≤ 23 + shiftAmount m e := by
    unfold shiftAmount
    omega
  -- the first shift leaves 24 bits, and rounding makes at most one more
  have hrounded : (ExtendedMantissa.ofMantissaAndAccuracy m accuracy >>>
      shiftAmount m e).roundedMantissa ≤ 16777216 := by
    have hlt : m < 16777216 <<< shiftAmount m e := by
      rw [← shiftLeft_add_one]
      exact lt_shiftLeft_of_log2_le hlog'
    exact (atMost_of_lt hlt accuracy).shiftRight.roundedMantissa_le
  -- with the greatest exponent there is no room for that one, but it is not made either
  have hgreatest : e + shiftAmount m e = 104 →
      (ExtendedMantissa.ofMantissaAndAccuracy m accuracy >>>
        shiftAmount m e).roundedMantissa ≤ 16777215 := by
    intro hlast
    have hamount : (104 - e).toNat = shiftAmount m e := by omega
    rw [hamount] at h
    exact h.shiftRight.roundedMantissa_le
  refine fits_roundWithAccuracy_of_le rfl ?_
  generalize (ExtendedMantissa.ofMantissaAndAccuracy m accuracy >>>
    shiftAmount m e).roundedMantissa = rounded at hrounded hgreatest
  have hbits : rounded.log2 ≤ 24 := log2_le_of_lt (Nat.lt_of_le_of_lt hrounded (by decide))
  have hbits' : e + shiftAmount m e = 104 → rounded.log2 ≤ 23 := fun hlast =>
    log2_le_of_lt (Nat.lt_of_le_of_lt (hgreatest hlast) (by decide))
  have hle : e + shiftAmount m e ≤ 104 := by
    unfold shiftAmount
    omega
  generalize e + shiftAmount m e = exponent at hle hbits'
  unfold shiftAmount
  omega

/-- An exact magnitude that is not greater than that of the greatest finite number is not rounded
to infinity, whatever its exponent was. -/
theorem fits_round (he : e ≤ 104) (h : m ≤ 16777215 <<< (104 - e).toNat) :
    Fits s (UnpackedFloat.round Format.binary32 s m e) := by
  simp only [UnpackedFloat.round, decreaseExponent]
  generalize (e - Format.binary32.targetExponent (totalExponent m e)).toNat = k
  refine fits_roundWithAccuracy (by omega) (atMost_exact_iff.mpr ?_)
  have hshift : (104 - (e - (k : Int))).toNat = (104 - e).toNat + k := by omega
  rw [hshift, Nat.shiftLeft_add]
  exact shiftLeft_le_shiftLeft h (Nat.le_refl k)

/-- An integer within the range of the format is rounded to a number that fits it, of one sign or
the other. -/
theorem exists_fits_normalize {n : Int} {zeroSign : Sign} (he : e ≤ 104)
    (h : n.natAbs ≤ 16777215 <<< (104 - e).toNat) :
    ∃ s, Fits s (UnpackedFloat.normalize Format.binary32 n e zeroSign) := by
  unfold UnpackedFloat.normalize
  split
  · next hlt =>
    rw [Int.compare_eq_lt] at hlt
    exact ⟨_, fits_round he (by omega)⟩
  · exact ⟨zeroSign, .zero⟩
  · next hgt =>
    rw [Int.compare_eq_gt] at hgt
    exact ⟨_, fits_round he (by omega)⟩

/-- Rounding never gives something that is not a number. -/
theorem isNaN_roundWithAccuracy :
    (roundWithAccuracy Format.binary32 s m e accuracy).isNaN = false := by
  simp only [roundWithAccuracy]
  split <;> rfl

/-- Normalising an integer never gives something that is not a number. -/
theorem isNaN_normalize {n : Int} {zeroSign : Sign} :
    (UnpackedFloat.normalize Format.binary32 n e zeroSign).isNaN = false := by
  unfold UnpackedFloat.normalize
  split
  · exact isNaN_roundWithAccuracy
  · rfl
  · exact isNaN_roundWithAccuracy

end Rounding

/-! ### Packing -/

section Packing

variable {s : Sign}

/-- The packed infinity of a sign is unpacked as the infinity of that sign. -/
theorem unpack_packedInfinity (s : Sign) :
    unpack Format.binary32 (packedInfinity Format.binary32 s) = .infinity s := by
  rw [packedInfinity]
  unfold unpack
  simp only [unpackExponent_packComponents, unpackMantissa_packComponents,
    unpackSign_packComponents, Sign.ofBitVec_toBitVec]
  rfl

/-- Components with any exponent but the last one are those of a finite number. -/
theorem fits_unpack_packComponents {exponent : BitVec 8} (h : exponent ≠ -1#8)
    (mantissa : BitVec 23) :
    Fits s (unpack Format.binary32 (packComponents Format.binary32 s exponent mantissa)) := by
  have hcanonical := canonical_unpack (packComponents Format.binary32 s exponent mantissa)
  unfold unpack at hcanonical ⊢
  simp only [unpackExponent_packComponents, unpackMantissa_packComponents,
    unpackSign_packComponents, Sign.ofBitVec_toBitVec, if_neg h] at hcanonical ⊢
  split
  · next hzero =>
    simp only [if_pos hzero] at hcanonical
    split
    · exact .zero
    · next hmantissa =>
      simp only [dif_neg hmantissa] at hcanonical
      exact .finite _ hcanonical.2.2.1
  · next hzero =>
    simp only [if_neg hzero] at hcanonical
    exact .finite _ hcanonical.2.2.1

/-- Only an exponent that is too great is packed as infinity. -/
theorem pack_finite_cases (s : Sign) (m : Nat) (e : Int) (hm : 0 < m) :
    (104 < e ∧ pack Format.binary32 (.finite s m e hm) = packedInfinity Format.binary32 s) ∨
      ∃ exponent mantissa, exponent ≠ -1#8 ∧
        pack Format.binary32 (.finite s m e hm) =
          packComponents Format.binary32 s exponent mantissa := by
  have hbias : Format.binary32.exponentBias = 127 := rfl
  have hbits : Format.binary32.mantissaBitsWithoutImplicit = 23 := rfl
  simp only [pack]
  split
  · next hover =>
    have hexponents : 256 ≤ (e + Format.binary32.exponentBias +
        Format.binary32.mantissaBitsWithoutImplicit).toNat + 1 := hover
    exact Or.inl ⟨by omega, rfl⟩
  · next hover =>
    have hexponents : ¬256 ≤ (e + Format.binary32.exponentBias +
        Format.binary32.mantissaBitsWithoutImplicit).toNat + 1 := hover
    refine Or.inr ?_
    split
    · refine ⟨_, _, fun hlast => ?_, rfl⟩
      have hnat := congrArg BitVec.toNat hlast
      rw [BitVec.toNat_ofNat] at hnat
      have hlast' : (-1#8).toNat = 255 := rfl
      omega
    · exact ⟨0#8, _, by decide, rfl⟩

/-- What fits the format with a sign is a number. -/
theorem Fits.isNaN_eq {a : UnpackedFloat} (h : Fits s a) : a.isNaN = false := by
  cases h <;> rfl

/-- What can be packed is unpacked as a finite number with the same sign. -/
theorem Fits.unpack_pack {a : UnpackedFloat} (h : Fits s a) :
    Fits s (unpack Format.binary32 (pack Format.binary32 a)) := by
  cases h with
  | zero => exact fits_unpack_packComponents (by decide) _
  | @finite m e hm he =>
    rcases pack_finite_cases s m e hm with ⟨hover, -⟩ | ⟨exponent, mantissa, hne, heq⟩
    · omega
    · rw [heq]
      exact fits_unpack_packComponents hne mantissa

/-- Packing does not make a NaN. -/
theorem isNaN_unpack_pack {a : UnpackedFloat} (h : a.isNaN = false) :
    (unpack Format.binary32 (pack Format.binary32 a)).isNaN = false := by
  cases a with
  | notANumber => exact nomatch h
  | infinity s' =>
    have hpack : pack Format.binary32 (.infinity s') = packedInfinity Format.binary32 s' := rfl
    rw [hpack, unpack_packedInfinity]
    rfl
  | zero s' => exact (Fits.zero (s := s')).unpack_pack.isNaN_eq
  | finite s' m e hm =>
    rcases pack_finite_cases s' m e hm with ⟨-, heq⟩ | ⟨exponent, mantissa, hne, heq⟩
    · rw [heq, unpack_packedInfinity]
      rfl
    · rw [heq]
      exact (fits_unpack_packComponents hne mantissa).isNaN_eq

end Packing

/-! ### Operations -/

section Operations

variable {s : Sign} {a b : UnpackedFloat}

/-- Multiplying by a positive sign changes no sign. -/
theorem positive_mul (s : Sign) : Sign.positive * s = s := by
  cases s <;> rfl

/-- Dividing by a positive sign changes no sign. -/
theorem div_positive (s : Sign) : s / Sign.positive = s := by
  cases s <;> rfl

/-- The negative of a value that fits with a sign fits with the other sign. -/
theorem Fits.neg (h : Fits s a) : Fits (-s) a.neg := by
  cases h with
  | zero => exact .zero
  | finite hm he => exact .finite hm he

/-- The negative of a value is a number exactly when the value is one. -/
theorem isNaN_neg (a : UnpackedFloat) : a.neg.isNaN = a.isNaN := by
  cases a <;> rfl

/-- Half of a magnitude has no more bits than the magnitude. -/
theorem half_lt {m : Nat} {e t : Int} (hm : m < 16777216) (he : e ≤ 104) (ht : t ≤ 104) :
    m <<< (e - -22 - t).toNat / 8388608 < 16777215 <<< (104 - t).toNat := by
  have hshift : (e - -22 - t).toNat ≤ 22 + (104 - t).toNat := by omega
  rw [Nat.div_lt_iff_lt_mul (by decide)]
  calc m <<< (e - -22 - t).toNat
    _ < 16777216 <<< (e - -22 - t).toNat := shiftLeft_lt_shiftLeft hm _
    _ ≤ 16777216 <<< (22 + (104 - t).toNat) := shiftLeft_le_shiftLeft (Nat.le_refl _) hshift
    _ = 70368744177664 <<< (104 - t).toNat := by rw [Nat.shiftLeft_add]; rfl
    _ ≤ (16777215 * 8388608) <<< (104 - t).toNat :=
        shiftLeft_le_shiftLeft (by decide) (Nat.le_refl _)
    _ = 16777215 <<< (104 - t).toNat * 8388608 := by
        rw [Nat.shiftLeft_eq, Nat.shiftLeft_eq, Nat.mul_right_comm]

/-- A finite number has a finite half. -/
theorem Fits.div_two (hcanonical : Canonical a) (h : Fits s a) :
    Fits s (div Format.binary32 a (.finite .positive 8388608 (-22) (by decide))) := by
  cases h with
  | zero =>
    simp only [div, div_positive]
    exact .zero
  | @finite m e hm he =>
    obtain ⟨hmantissa, -⟩ := hcanonical
    have hlog : m.log2 ≤ 23 := log2_le_of_lt hmantissa
    have htarget : Format.binary32.targetExponent
        (totalExponent m e - totalExponent 8388608 (-22)) =
          max ((m.log2 : Int) + 1 + e - (23 + 1 + -22) - 24) (-149) := by
      have hlog' : ((8388608 : Nat).log2 : Int) = 23 := by decide
      rw [← hlog']
      rfl
    have hleast : min (e - -22) (Format.binary32.targetExponent
        (totalExponent m e - totalExponent 8388608 (-22))) ≤ 104 := by
      rw [htarget]
      omega
    simp only [div, divCore, div_positive]
    exact fits_roundWithAccuracy hleast (atMost_of_lt (half_lt hmantissa he hleast) _)

/-- Nothing is lost when a number is multiplied by a power of two that takes the place of one. -/
theorem fits_roundWithAccuracy_unit {m : Nat} {e : Int} (hm : m < 16777216) (he : e ≤ 104) :
    Fits s (roundWithAccuracy Format.binary32 s (m * 8388608) (e + -23) .exact) := by
  refine fits_roundWithAccuracy (by omega) (atMost_exact_iff.mpr ?_)
  have hshift : (104 - (e + -23)).toNat = 23 + (104 - e).toNat := by omega
  have hunit : m * 8388608 ≤ (16777215 <<< 23) <<< 0 := by
    have hvalue : 16777215 <<< 23 <<< 0 = 16777215 * 8388608 := by decide
    omega
  rw [hshift, Nat.shiftLeft_add]
  exact Nat.le_trans hunit (shiftLeft_le_shiftLeft (Nat.le_refl _) (Nat.zero_le _))

/-- A finite number is finite, too, with the sign of a number whose magnitude is one. -/
theorem Fits.mul_unit (hcanonical : Canonical a) (h : Fits s a) (s' : Sign) :
    Fits (s * s') (mul Format.binary32 a (.finite s' 8388608 (-23) (by decide))) := by
  cases h with
  | zero => exact .zero
  | finite hm he => exact fits_roundWithAccuracy_unit hcanonical.1 he

/-- A value that fits is kept within the format when it is multiplied by one. -/
theorem Fits.unit_mul (hcanonical : Canonical a) (h : Fits s a) :
    Fits s (mul Format.binary32 (.finite .positive 8388608 (-23) (by decide)) a) := by
  cases h with
  | zero =>
    simp only [mul, positive_mul]
    exact .zero
  | finite hm he =>
    simp only [mul, positive_mul]
    rw [Nat.mul_comm, Int.add_comm]
    exact fits_roundWithAccuracy_unit hcanonical.1 he

/-- A value that fits is taken to a zero of its own sign when it is multiplied by zero. -/
theorem Fits.zero_mul (h : Fits s a) :
    Fits s (mul Format.binary32 (.zero .positive) a) := by
  cases h with
  | zero =>
    simp only [mul, positive_mul]
    exact .zero
  | finite hm he =>
    simp only [mul, positive_mul]
    exact .zero

/-- The difference of two magnitudes is at most the greater of them. -/
theorem natAbs_apply_sub_le (s : Sign) {m n k : Nat} (hm : m ≤ k) (hn : n ≤ k) :
    (s.apply m - s.apply n).natAbs ≤ k := by
  cases s <;> simp only [Sign.apply] <;> omega

/-- Finite numbers with the same sign have a finite difference. -/
theorem Fits.exists_fits_sub (ha : Canonical a) (hb : Canonical b) (h : Fits s a) (h' : Fits s b) :
    ∃ s', Fits s' (sub Format.binary32 a b) := by
  cases h with
  | zero =>
    cases h' with
    | zero =>
      simp only [sub]
      split
      · exact ⟨s, .zero⟩
      · exact ⟨.positive, .zero⟩
    | finite hm he => exact ⟨-s, .finite hm he⟩
  | finite hm he =>
    cases h' with
    | zero => exact ⟨s, .finite hm he⟩
    | finite hm' he' =>
      -- magnitudes of one sign are subtracted, so that the greater one bounds the result
      obtain ⟨hmantissa, -⟩ := ha
      obtain ⟨hmantissa', -⟩ := hb
      simp only [sub, decreaseExponent]
      refine exists_fits_normalize (by omega) (natAbs_apply_sub_le _ ?_ ?_)
      · exact shiftLeft_le_shiftLeft (by omega) (by omega)
      · exact shiftLeft_le_shiftLeft (by omega) (by omega)

/-- Only infinities of different signs have a sum that is NaN. -/
theorem Fits.isNaN_add (h : Fits s a) (hb : b.isNaN = false) :
    (add Format.binary32 a b).isNaN = false := by
  cases b with
  | notANumber => exact nomatch hb
  | infinity t => cases h <;> rfl
  | zero t =>
    cases h with
    | zero =>
      simp only [add]
      split <;> rfl
    | finite hm he => rfl
  | finite t m e hm =>
    cases h with
    | zero => rfl
    | finite hm' he =>
      simp only [add]
      exact isNaN_normalize

/-- Only infinity and zero have a product that is NaN. -/
theorem Fits.isNaN_mul {s' : Sign} (h : Fits s a) (h' : Fits s' b) :
    (mul Format.binary32 a b).isNaN = false := by
  cases h with
  | zero => cases h' <;> rfl
  | finite hm he =>
    cases h' with
    | zero => rfl
    | finite hm' he' =>
      simp only [mul]
      exact isNaN_roundWithAccuracy

/-- A number times a finite nonzero one is a number again, even if it is infinite. -/
theorem isNaN_mul_finite {s' : Sign} {m : Nat} {e : Int} (hm : 0 < m) (h : a.isNaN = false) :
    (mul Format.binary32 a (.finite s' m e hm)).isNaN = false := by
  cases a with
  | notANumber => exact nomatch h
  | infinity _ => rfl
  | zero t => rfl
  | finite t m' e' hm' =>
    simp only [mul]
    exact isNaN_roundWithAccuracy

end Operations

/-! ### Finite numbers -/

/-- A finite number with a sign. -/
def Signed (s : Sign) (x : Float32) : Prop := Fits s x.toModel.unpack

section Finite

variable {x y : Float32} {s s' : Sign}

/-- Every finite number has a sign with which it fits the format. -/
theorem exists_signed_of_isFinite (h : x.isFinite = true) : ∃ s, Signed s x := by
  have hfinite : x.toModel.unpack.isFinite = true := h
  have hcanonical : Canonical x.toModel.unpack := canonical_unpack _
  unfold Signed
  cases hunpack : x.toModel.unpack with
  | notANumber =>
    rw [hunpack] at hfinite
    exact nomatch hfinite
  | infinity s =>
    rw [hunpack] at hfinite
    exact nomatch hfinite
  | zero s => exact ⟨s, .zero⟩
  | finite s m e hm =>
    rw [hunpack] at hcanonical
    exact ⟨s, .finite hm hcanonical.2.2.1⟩

/-- The negative of a finite number is finite, with the other sign. -/
theorem Signed.neg (h : Signed s x) : Signed (-s) (-x) := (Fits.neg h).unpack_pack

/-- Half of a finite number is finite, with its sign. -/
theorem Signed.half (h : Signed s x) : Signed s (x / Float32.ofNat 2) :=
  (Fits.div_two (canonical_unpack _) h).unpack_pack

/-- Zero times a finite number is finite, with its sign. -/
theorem Signed.zero_mul (h : Signed s x) : Signed s (Float32.ofNat 0 * x) :=
  (Fits.zero_mul h).unpack_pack

/-- One times a finite number is finite, with its sign. -/
theorem Signed.one_mul (h : Signed s x) : Signed s (Float32.ofNat 1 * x) :=
  (Fits.unit_mul (canonical_unpack _) h).unpack_pack

/-- A factor of one or minus one keeps a number finite. -/
theorem Signed.exists_signed_mul (h : Signed s x)
    (hy : y = Float32.ofNat 1 ∨ y = -Float32.ofNat 1) : ∃ s', Signed s' (x * y) := by
  rcases hy with rfl | rfl
  · exact ⟨_, (Fits.mul_unit (canonical_unpack _) h .positive).unpack_pack⟩
  · exact ⟨_, (Fits.mul_unit (canonical_unpack _) h .negative).unpack_pack⟩

/-- The difference of two finite numbers of one sign is finite. -/
theorem Signed.exists_signed_sub (hx : Signed s x) (hy : Signed s y) : ∃ s', Signed s' (x - y) := by
  obtain ⟨s', hfits⟩ := Fits.exists_fits_sub (canonical_unpack _) (canonical_unpack _) hx hy
  exact ⟨s', hfits.unpack_pack⟩

/-- A finite number added to any number gives a number. -/
theorem Signed.isNaN_add (hx : Signed s x) (hy : y.isNaN = false) : (x + y).isNaN = false :=
  isNaN_unpack_pack (Fits.isNaN_add hx hy)

/-- The product of two finite numbers is a number. -/
theorem Signed.isNaN_mul (hx : Signed s x) (hy : Signed s' y) : (x * y).isNaN = false :=
  isNaN_unpack_pack (Fits.isNaN_mul hx hy)

/-! ### Integers -/

/-- The value of a machine word is a number. -/
theorem isNaN_toFloat32 (n : UInt64) : n.toFloat32.isNaN = false :=
  isNaN_unpack_pack isNaN_normalize

/-- A decimal number is rounded, or too great or too small for that. -/
theorem isNaN_ofScientific (m : Nat) (e : Int) :
    (UnpackedFloat.ofScientific Format.binary32 m e).isNaN = false := by
  unfold UnpackedFloat.ofScientific
  split
  · rfl
  · split
    · rfl
    · split
      · rfl
      · split
        · exact isNaN_roundWithAccuracy
        · exact isNaN_roundWithAccuracy

/-- One is unpacked as its mantissa of 24 bits with the exponent that undoes it. -/
theorem unpack_one :
    (Float32.ofNat 1).toModel.unpack = .finite .positive 8388608 (-23) (by decide) := rfl

/-- The value of a natural number is a number. -/
theorem isNaN_ofNat (n : Nat) : (Float32.ofNat n).isNaN = false := by
  have hvalue : Float32.ofNat n = Float32.ofScientific n false 0 := rfl
  rw [hvalue, Float32.ofScientific]
  split
  · refine isNaN_unpack_pack ?_
    have hpower : Float32.exactlyRepresentablePowersOfTen[0] = Float32.ofNat 1 := by
      decide +kernel
    rw [hpower, unpack_one]
    exact isNaN_mul_finite _ (isNaN_toFloat32 n.toUInt64)
  · exact isNaN_unpack_pack (isNaN_ofScientific n 0)

/-- No integer is rounded to NaN. -/
theorem isNaN_ofInt (n : Int) : (Float32.ofInt n).isNaN = false := by
  cases n with
  | ofNat n => exact isNaN_ofNat n
  | negSucc n => exact isNaN_unpack_pack ((isNaN_neg _).trans (isNaN_ofNat (n + 1)))

end Finite

end LatticeScene.Binary32
