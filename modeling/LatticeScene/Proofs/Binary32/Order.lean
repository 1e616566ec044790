import LatticeScene.Binary32
import Mathlib

/-!
# The order of binary32 numbers

Numbers are compared in unpacked form, by their exponents and then by their mantissas.  This is the
order of the numbers because an unpacked number is `Canonical`: its mantissa has all 24 bits, unless
its exponent is the least one.

The `place` of a number says the same with one integer: how many numbers it is away from zero, and
in which direction.  Numbers other than NaN are ordered as their places are (`lt_iff_place_lt`,
`le_iff_place_le`), and nothing has a place beyond the infinities.
-/

namespace LatticeScene.Binary32

open Float.Model (Format UnpackedFloat)
open Float.Model.UnpackedFloat

/-- The form in which numbers are unpacked: the mantissa of a finite number has 24 bits, or fewer
with the least exponent. -/
def Canonical : UnpackedFloat → Prop
  | .finite _ m e _ => m < 16777216 ∧ -149 ≤ e ∧ e ≤ 104 ∧ (e = -149 ∨ 8388608 ≤ m)
  | _ => True

/-- Every pattern of bits is unpacked in canonical form. -/
theorem canonical_unpack (b : BitVec Format.binary32.numBits) :
    Canonical (unpack Format.binary32 b) := by
  have hmantissa : (unpackMantissa b).toNat < 8388608 := (unpackMantissa b).isLt
  have hexponent : (unpackExponent b).toNat < 256 := (unpackExponent b).isLt
  have hbias : Format.binary32.exponentBias = 127 := rfl
  have hbits : Format.binary32.mantissaBitsWithoutImplicit = 23 := rfl
  unfold unpack
  by_cases hones : unpackExponent b = -1#_
  · simp only [if_pos hones]
    split <;> exact trivial
  · simp only [if_neg hones]
    -- with an exponent of zero there is no implicit bit in front of the mantissa
    by_cases hzero : unpackExponent b = 0#_
    · simp only [if_pos hzero]
      split
      · exact trivial
      · have hleast : (unpackExponent b).toNat = 0 := by rw [hzero]; rfl
        exact ⟨by omega, by omega, by omega, Or.inl (by omega)⟩
    · simp only [if_neg hzero]
      have hlt : (unpackExponent b).toNat ≠ 255 := fun h => hones (BitVec.eq_of_toNat_eq h)
      have hpos : (unpackExponent b).toNat ≠ 0 := fun h => hzero (BitVec.eq_of_toNat_eq h)
      have happend : (1#1 ++ unpackMantissa b).toNat = 8388608 + (unpackMantissa b).toNat := by
        rw [BitVec.toNat_append, Nat.shiftLeft_eq]
        exact (Nat.two_pow_add_eq_or_of_lt (i := 23) hmantissa 1).symm
      refine ⟨?_, ?_, ?_, Or.inr ?_⟩
      · omega
      · omega
      · omega
      · omega

/-! ### Places -/

/-- The place of an unpacked number.  There are 8388608 numbers to every exponent. -/
def unpackedPlace : UnpackedFloat → Int
  | .infinity s => s.apply 2139095040
  | .notANumber => 0
  | .zero _ => 0
  | .finite s m e _ => s.apply ((e + 149) * 8388608 + m)

/-- The place of a finite number is strictly between zero and that of infinity. -/
theorem Canonical.place_lt {s : Sign} {m : Nat} {e : Int} {hm : 0 < m}
    (h : Canonical (.finite s m e hm)) :
    0 < (e + 149) * 8388608 + m ∧ (e + 149) * 8388608 + m < 2139095040 := by
  obtain ⟨hmantissa, hleast, hgreatest, -⟩ := h
  omega

/-- Exponents decide before mantissas. -/
theorem Canonical.compare_eq {s s' : Sign} {m m' : Nat} {e e' : Int} {hm : 0 < m} {hm' : 0 < m'}
    (h : Canonical (.finite s m e hm)) (h' : Canonical (.finite s' m' e' hm')) :
    (compare e e').then (compare m m') =
      compare ((e + 149) * 8388608 + m) ((e' + 149) * 8388608 + m') := by
  obtain ⟨hmantissa, hleast, -, hbits⟩ := h
  obtain ⟨hmantissa', hleast', -, hbits'⟩ := h'
  rcases Int.lt_trichotomy e e' with hlt | rfl | hgt
  · have hplace : (e + 149) * 8388608 + m < (e' + 149) * 8388608 + m' := by omega
    rw [Int.compare_eq_lt.mpr hlt, Int.compare_eq_lt.mpr hplace]
    rfl
  · rw [Int.compare_eq_eq.mpr rfl]
    rcases Nat.lt_trichotomy m m' with hlt | rfl | hgt
    · rw [Nat.compare_eq_lt.mpr hlt]
      exact (Int.compare_eq_lt.mpr (by omega)).symm
    · rw [Nat.compare_eq_eq.mpr rfl, Int.compare_eq_eq.mpr rfl]
      rfl
    · rw [Nat.compare_eq_gt.mpr hgt]
      exact (Int.compare_eq_gt.mpr (by omega)).symm
  · have hplace : (e' + 149) * 8388608 + m' < (e + 149) * 8388608 + m := by omega
    rw [Int.compare_eq_gt.mpr hgt, Int.compare_eq_gt.mpr hplace]
    rfl

/-- Taking negatives of integers turns their order around. -/
theorem compare_neg_neg (x y : Int) : compare (-x) (-y) = (compare x y).swap := by
  rw [Int.compare_swap]
  rcases Int.lt_trichotomy x y with hlt | rfl | hgt
  · rw [Int.compare_eq_gt.mpr (Int.neg_lt_neg hlt), Int.compare_eq_gt.mpr hlt]
  · rw [Int.compare_eq_eq.mpr rfl, Int.compare_eq_eq.mpr rfl]
  · rw [Int.compare_eq_lt.mpr (Int.neg_lt_neg hgt), Int.compare_eq_lt.mpr hgt]

/-- Canonical numbers are compared as their places are. -/
theorem compare_eq_compare_unpackedPlace {a b : UnpackedFloat} (ha : Canonical a)
    (hb : Canonical b) (hnan : a.isNaN = false) (hnan' : b.isNaN = false) :
    a.compare b = some (compare (unpackedPlace a) (unpackedPlace b)) := by
  have hlt : ∀ {x y : Int}, x < y → some Ordering.lt = some (compare x y) := fun h =>
    congrArg some (Int.compare_eq_lt.mpr h).symm
  have hgt : ∀ {x y : Int}, y < x → some Ordering.gt = some (compare x y) := fun h =>
    congrArg some (Int.compare_eq_gt.mpr h).symm
  -- unless both are finite with one sign, the signs and the bounds on places decide
  cases a with
  | notANumber => exact nomatch hnan
  | infinity s =>
    cases b with
    | notANumber => exact nomatch hnan'
    | infinity s' => cases s <;> cases s' <;> rfl
    | zero s' => cases s <;> rfl
    | finite s' m' e' hm' =>
      have hplace := hb.place_lt
      cases s <;> cases s'
      · exact hlt (by simp only [unpackedPlace, Sign.apply]; omega)
      · exact hlt (by simp only [unpackedPlace, Sign.apply]; omega)
      · exact hgt (by simp only [unpackedPlace, Sign.apply]; omega)
      · exact hgt (by simp only [unpackedPlace, Sign.apply]; omega)
  | zero s =>
    cases b with
    | notANumber => exact nomatch hnan'
    | infinity s' => cases s' <;> rfl
    | zero s' => rfl
    | finite s' m' e' hm' =>
      have hplace := hb.place_lt
      cases s'
      · exact hgt (by simp only [unpackedPlace, Sign.apply]; omega)
      · exact hlt (by simp only [unpackedPlace, Sign.apply]; omega)
  | finite s m e hm =>
    have hplace := ha.place_lt
    cases b with
    | notANumber => exact nomatch hnan'
    | infinity s' =>
      cases s <;> cases s'
      · exact hgt (by simp only [unpackedPlace, Sign.apply]; omega)
      · exact hlt (by simp only [unpackedPlace, Sign.apply]; omega)
      · exact hgt (by simp only [unpackedPlace, Sign.apply]; omega)
      · exact hlt (by simp only [unpackedPlace, Sign.apply]; omega)
    | zero s' =>
      cases s
      · exact hlt (by simp only [unpackedPlace, Sign.apply]; omega)
      · exact hgt (by simp only [unpackedPlace, Sign.apply]; omega)
    | finite s' m' e' hm' =>
      have hplace' := hb.place_lt
      cases s <;> cases s'
      · refine congrArg some ?_
        rw [unpackedPlace, unpackedPlace, Sign.apply, Sign.apply, compare_neg_neg,
          ha.compare_eq hb]
      · exact hlt (by simp only [unpackedPlace, Sign.apply]; omega)
      · exact hgt (by simp only [unpackedPlace, Sign.apply]; omega)
      · exact congrArg some (ha.compare_eq hb)

/-- The place of a number among all binary32 numbers, counted from zero. -/
def place (x : Float32) : Int := unpackedPlace x.toModel.unpack

section Order

variable {x y : Float32}

/-- Two numbers are compared as their places are. -/
theorem compare_eq_compare_place (hx : x.isNaN = false) (hy : y.isNaN = false) :
    x.toModel.unpack.compare y.toModel.unpack = some (compare (place x) (place y)) :=
  compare_eq_compare_unpackedPlace (canonical_unpack _) (canonical_unpack _) hx hy

/-- One number is less than another when its place is. -/
theorem lt_iff_place_lt (hx : x.isNaN = false) (hy : y.isNaN = false) :
    x < y ↔ place x < place y := by
  have hlt : x < y ↔ (x.toModel.unpack.compare y.toModel.unpack == some .lt) = true := by
    exact decide_eq_true_iff
  rw [hlt, compare_eq_compare_place hx hy, beq_iff_eq, Option.some.injEq, Int.compare_eq_lt]

/-- One number is at most another when its place is. -/
theorem le_iff_place_le (hx : x.isNaN = false) (hy : y.isNaN = false) :
    x ≤ y ↔ place x ≤ place y := by
  have hle : x ≤ y ↔ (x.toModel.unpack.compare y.toModel.unpack).any (·.isLE) = true := by
    exact decide_eq_true_iff
  rw [hle, compare_eq_compare_place hx hy, Option.any_some, Int.isLE_compare]

/-- Nothing is compared with NaN. -/
theorem isNaN_eq_false_of_compare_eq {a b : UnpackedFloat} {order : Ordering}
    (h : a.compare b = some order) : a.isNaN = false ∧ b.isNaN = false := by
  constructor
  · cases a with
    | notANumber => cases b <;> cases h
    | infinity s => rfl
    | zero s => rfl
    | finite s m e hm => rfl
  · cases b with
    | notANumber => cases a <;> cases h
    | infinity s => rfl
    | zero s => rfl
    | finite s m e hm => rfl

/-- What is at least something is a number. -/
theorem isNaN_eq_false_of_le (h : x ≤ y) : y.isNaN = false := by
  have hle : (x.toModel.unpack.compare y.toModel.unpack).any (·.isLE) = true :=
    decide_eq_true_iff.mp h
  cases horder : x.toModel.unpack.compare y.toModel.unpack with
  | none =>
    rw [horder] at hle
    exact absurd hle Bool.false_ne_true
  | some order => exact (isNaN_eq_false_of_compare_eq horder).2

/-- Two things of which one is less than the other are both numbers. -/
theorem isNaN_eq_false_of_lt (h : x < y) : x.isNaN = false ∧ y.isNaN = false := by
  have hlt : (x.toModel.unpack.compare y.toModel.unpack == some .lt) = true :=
    decide_eq_true_iff.mp h
  exact isNaN_eq_false_of_compare_eq (beq_iff_eq.mp hlt)

/-- Numbers are equal, signed zeros included, when they have the same place. -/
theorem beq_iff_place_eq (hx : x.isNaN = false) (hy : y.isNaN = false) :
    (x == y) = true ↔ place x = place y := by
  have hbeq : (x == y) = (x.toModel.unpack.compare y.toModel.unpack == some .eq) := rfl
  rw [hbeq, compare_eq_compare_place hx hy, beq_iff_eq, Option.some.injEq, Int.compare_eq_eq]

/-! ### Infinities -/

/-- The place of infinity is the pattern of bits that stands above all finite numbers. -/
theorem place_infinity : place infinity = 2139095040 := by decide +kernel

/-- The place of negative infinity is that of infinity with its sign changed. -/
theorem place_negInfinity : place negInfinity = -2139095040 := by decide +kernel

/-- Infinity is a number, as far as comparing goes. -/
theorem isNaN_infinity : infinity.isNaN = false := by decide +kernel

/-- Negative infinity is a number, as far as comparing goes. -/
theorem isNaN_negInfinity : negInfinity.isNaN = false := by decide +kernel

/-- Only infinity is in its place, and no number is beyond. -/
theorem unpackedPlace_cases {a : UnpackedFloat} (h : Canonical a) :
    (-2139095040 < unpackedPlace a ∧ unpackedPlace a < 2139095040) ∨
      (a = .infinity .positive ∧ unpackedPlace a = 2139095040) ∨
      (a = .infinity .negative ∧ unpackedPlace a = -2139095040) := by
  cases a with
  | notANumber => exact Or.inl ⟨by decide, by decide⟩
  | zero s => exact Or.inl (by simp only [unpackedPlace]; omega)
  | infinity s =>
    cases s
    · exact Or.inr (Or.inr ⟨rfl, rfl⟩)
    · exact Or.inr (Or.inl ⟨rfl, rfl⟩)
  | finite s m e hm =>
    have hplace := h.place_lt
    cases s
    · exact Or.inl (by simp only [unpackedPlace, Sign.apply]; omega)
    · exact Or.inl (by simp only [unpackedPlace, Sign.apply]; omega)

/-- Numbers that are unpacked alike are the same. -/
theorem eq_of_unpack_eq (h : x.toModel.unpack = y.toModel.unpack) : x = y := by
  have hbits : x.toModel.toBits.toBitVec = y.toModel.toBits.toBitVec :=
    (unpack_inj_of_valid x.toModel.valid y.toModel.valid).mp h
  exact Float32.toBits_inj.mp (UInt32.toBitVec_inj.mp hbits)

/-- Infinity is unpacked as the positive infinity. -/
theorem unpack_infinity : infinity.toModel.unpack = .infinity .positive := rfl

/-- Negative infinity is unpacked as the negative infinity. -/
theorem unpack_negInfinity : negInfinity.toModel.unpack = .infinity .negative := rfl

/-- Nothing else has the place of infinity. -/
theorem eq_infinity_of_place_le (h : place infinity ≤ place x) : x = infinity := by
  rw [place_infinity] at h
  rcases unpackedPlace_cases (canonical_unpack x.toModel.toBits.toBitVec) with
    ⟨-, hlt⟩ | ⟨hinfinity, -⟩ | ⟨-, hplace⟩
  · exact absurd hlt (Int.not_lt.mpr h)
  · exact eq_of_unpack_eq (hinfinity.trans unpack_infinity.symm)
  · have hx : place x = -2139095040 := hplace
    omega

/-- Nothing else has the place of negative infinity. -/
theorem eq_negInfinity_of_place_le (h : place x ≤ place negInfinity) : x = negInfinity := by
  rw [place_negInfinity] at h
  rcases unpackedPlace_cases (canonical_unpack x.toModel.toBits.toBitVec) with
    ⟨hlt, -⟩ | ⟨-, hplace⟩ | ⟨hinfinity, -⟩
  · exact absurd hlt (Int.not_lt.mpr h)
  · have hx : place x = 2139095040 := hplace
    omega
  · exact eq_of_unpack_eq (hinfinity.trans unpack_negInfinity.symm)

end Order

end LatticeScene.Binary32
