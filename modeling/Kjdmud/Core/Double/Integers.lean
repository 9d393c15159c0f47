import Kjdmud.Core.Double.Rounding

/-!
# Arithmetic on converted integers

The four operations and `std::fmod` on doubles that come from integers: each rounds the
exact result on the nearest doubles, and the remainder is exact.
-/

namespace Kjdmud.Double

open Kjdmud.Rounding (Fits)

/-! ## The conversion -/

theorem natAbs_nearest (i : Int) : (nearest i).natAbs = Rounding.nearest 53 i.natAbs := by
  rw [nearest, Int.natAbs_mul, Int.natAbs_natCast]
  rcases eq_or_ne i 0 with rfl | nonzero
  · simp [Rounding.nearest]
  · rw [Int.natAbs_sign_of_ne_zero nonzero, one_mul]

theorem fits_nearest (i : Int) : Fits 53 (nearest i).natAbs := by
  rw [natAbs_nearest]
  exact Rounding.fits_nearest (by decide)

theorem nearest_of_fits {i : Int} (fits : Fits 53 i.natAbs) : nearest i = i := by
  rw [nearest, fits.nearest_eq]
  exact Int.sign_mul_natAbs i

theorem nearest_ne_zero {i : Int} (nonzero : i ≠ 0) : nearest i ≠ 0 := by
  rw [← Int.natAbs_pos, natAbs_nearest]
  exact Rounding.nearest_pos (by decide) (Int.natAbs_pos.mpr nonzero)

theorem nearest_nonneg {i : Int} (nonneg : 0 ≤ i) : 0 ≤ nearest i :=
  mul_nonneg (Int.sign_nonneg_iff.mpr nonneg) (Int.natCast_nonneg _)

theorem nearest_neg (i : Int) : nearest (-i) = -nearest i := by
  rw [nearest, nearest, Int.sign_neg, Int.natAbs_neg, neg_mul]

section Int64

variable (i : Int64)

theorem natAbs_toInt_le : i.toInt.natAbs ≤ 2 ^ 63 := by
  have low := i.le_toInt
  have high := i.toInt_lt
  omega

theorem nearest_toInt_le : (nearest i.toInt).natAbs ≤ 2 ^ 63 := by
  rw [natAbs_nearest]
  exact Rounding.nearest_le (by decide) (natAbs_toInt_le i)

theorem ofInt64_rounded : Rounded i.toInt (ofInt64 i) :=
  round_int ((natAbs_toInt_le i).trans_lt (by decide)) false

theorem toRat_ofInt64 : (ofInt64 i).toRat = nearest i.toInt :=
  (ofInt64_rounded i).toRat_int

theorem isNaN_ofInt64 : (ofInt64 i).isNaN = false :=
  isNaN_of_finite (ofInt64_rounded i).finite

theorem isInf_ofInt64 : (ofInt64 i).isInf = false :=
  isInf_of_finite (ofInt64_rounded i).finite

end Int64

/-- What truncation makes of a rounded integer. -/
theorem Rounded.truncated_int {z : Int} {d : Double} (rounded : Rounded z d) :
    d.truncated = nearest z := by
  rcases lt_or_ge z 0 with less | nonneg
  · rw [rounded.truncated_of_neg (by exact_mod_cast less), rounded.magnitude_int,
      Int.floor_natCast, nearest, Int.sign_eq_neg_one_of_neg less, neg_one_mul]
  · rw [rounded.truncated_of_nonneg (by exact_mod_cast nonneg), rounded.magnitude_int,
      Int.floor_natCast, nearest]
    rcases nonneg.eq_or_lt with rfl | more
    · simp [Rounding.nearest]
    · rw [Int.sign_eq_one_of_pos more, one_mul]

/-! ## The operations -/

theorem bits_neg (d : Double) : (neg d).bits.toNat % 2 ^ 63 = d.bits.toNat % 2 ^ 63 := by
  rw [neg, BitVec.toNat_xor, Nat.xor_mod_two_pow]
  simp

theorem biasedExponent_neg (d : Double) : (neg d).biasedExponent = d.biasedExponent := by
  have low := bits_neg d
  unfold biasedExponent
  omega

theorem fraction_neg (d : Double) : (neg d).fraction = d.fraction := by
  have low := bits_neg d
  unfold fraction
  omega

theorem signBit_neg (d : Double) : (neg d).signBit = !d.signBit := by
  rw [signBit, neg, BitVec.msb_xor, signBit]
  have top : (BitVec.ofNat 64 (2 ^ 63)).msb = true := by decide
  rw [top, Bool.xor_true]

theorem toRat_neg (d : Double) : (neg d).toRat = -d.toRat := by
  have magnitude_eq : (neg d).magnitude = d.magnitude := by
    simp only [magnitude, significand, exponent, biasedExponent_neg, fraction_neg]
  rw [toRat, toRat, magnitude_eq, signBit_neg]
  cases d.signBit <;> simp

section Finite

variable {d e : Double} (finite : d.biasedExponent < 2047) (finite' : e.biasedExponent < 2047)

include finite finite'

theorem add_of_finite : d.add e = round (d.signBit && e.signBit) (d.toRat + e.toRat) := by
  unfold add
  rw [isNaN_of_finite finite, isNaN_of_finite finite', isInf_of_finite finite,
    isInf_of_finite finite']
  simp only [Bool.or_self, Bool.false_eq_true, if_false]

theorem sub_of_finite : d.sub e = round (d.signBit && !e.signBit) (d.toRat - e.toRat) := by
  have finite_neg := finite'
  rw [← biasedExponent_neg] at finite_neg
  unfold sub
  rw [isNaN_of_finite finite', add_of_finite finite finite_neg, signBit_neg, toRat_neg,
    ← sub_eq_add_neg]
  simp only [Bool.false_eq_true, if_false]

theorem mul_of_finite : d.mul e = round (d.signBit != e.signBit) (d.toRat * e.toRat) := by
  unfold mul
  rw [isNaN_of_finite finite, isNaN_of_finite finite', isInf_of_finite finite,
    isInf_of_finite finite']
  simp only [Bool.or_self, Bool.false_eq_true, if_false]

theorem div_of_finite (nonzero : e.isZero = false) :
    d.div e = round (d.signBit != e.signBit) (d.toRat / e.toRat) := by
  unfold div
  rw [isNaN_of_finite finite, isNaN_of_finite finite', isInf_of_finite finite,
    isInf_of_finite finite', nonzero]
  simp only [Bool.or_self, Bool.false_eq_true, if_false]

theorem fmod_of_finite (nonzero : e.isZero = false) :
    d.fmod e = round d.signBit
      (if d.signBit then -(d.magnitude - ⌊d.magnitude / e.magnitude⌋ * e.magnitude)
        else d.magnitude - ⌊d.magnitude / e.magnitude⌋ * e.magnitude) := by
  unfold fmod
  rw [isNaN_of_finite finite, isNaN_of_finite finite', isInf_of_finite finite,
    isInf_of_finite finite', nonzero]
  simp only [Bool.or_self, Bool.false_eq_true, if_false]
  rfl

end Finite

section Operations

variable (a b : Int64)

theorem add_rounded : Rounded (nearest a.toInt + nearest b.toInt : Int)
    ((ofInt64 a).add (ofInt64 b)) := by
  have bound := nearest_toInt_le a
  have bound' := nearest_toInt_le b
  rw [add_of_finite (ofInt64_rounded a).finite (ofInt64_rounded b).finite, toRat_ofInt64,
    toRat_ofInt64, ← Int.cast_add]
  exact round_int (by omega) _

theorem sub_rounded : Rounded (nearest a.toInt - nearest b.toInt : Int)
    ((ofInt64 a).sub (ofInt64 b)) := by
  have bound := nearest_toInt_le a
  have bound' := nearest_toInt_le b
  rw [sub_of_finite (ofInt64_rounded a).finite (ofInt64_rounded b).finite, toRat_ofInt64,
    toRat_ofInt64, ← Int.cast_sub]
  exact round_int (by omega) _

theorem mul_rounded : Rounded (nearest a.toInt * nearest b.toInt : Int)
    ((ofInt64 a).mul (ofInt64 b)) := by
  have bound : (nearest a.toInt * nearest b.toInt).natAbs ≤ 2 ^ 63 * 2 ^ 63 := by
    rw [Int.natAbs_mul]
    exact Nat.mul_le_mul (nearest_toInt_le a) (nearest_toInt_le b)
  rw [mul_of_finite (ofInt64_rounded a).finite (ofInt64_rounded b).finite, toRat_ofInt64,
    toRat_ofInt64, ← Int.cast_mul]
  exact round_int (bound.trans_lt (by norm_num)) _

/-- A converted integer is zero only if the integer is. -/
theorem toRat_ne_zero {i : Int64} (nonzero : i ≠ 0) : (ofInt64 i).toRat ≠ 0 := by
  have toInt : i.toInt ≠ 0 := fun zero => nonzero (Int64.toInt_inj.mp zero)
  rw [toRat_ofInt64]
  exact_mod_cast nearest_ne_zero toInt

theorem isZero_ofInt64 {i : Int64} (nonzero : i ≠ 0) : (ofInt64 i).isZero = false := by
  by_contra zero
  have both : (ofInt64 i).biasedExponent = 0 ∧ (ofInt64 i).fraction = 0 := by
    simpa [isZero] using zero
  apply toRat_ne_zero nonzero
  simp [toRat, magnitude, significand, both.1, both.2]

/-- Quotients of integers in the range of `int64_t` are neither too small nor too large. -/
theorem moderate_div {x y : Int} (bound : x.natAbs ≤ 2 ^ 63) (bound' : y.natAbs ≤ 2 ^ 63)
    (nonzero : (x : ℚ) / y ≠ 0) : Moderate |(x : ℚ) / y| := by
  have abs (z : Int) : |(z : ℚ)| = (z.natAbs : ℚ) := by
    rw [← Int.cast_abs, Int.abs_eq_natAbs, Int.cast_natCast]
  have x_nonzero : (x : ℚ) ≠ 0 := fun zero => nonzero (by rw [zero, zero_div])
  have y_nonzero : (y : ℚ) ≠ 0 := fun zero => nonzero (by rw [zero, div_zero])
  have x_low : (1 : ℚ) ≤ x.natAbs := by
    exact_mod_cast Int.natAbs_pos.mpr (by exact_mod_cast x_nonzero)
  have y_low : (1 : ℚ) ≤ y.natAbs := by
    exact_mod_cast Int.natAbs_pos.mpr (by exact_mod_cast y_nonzero)
  have x_high : (x.natAbs : ℚ) ≤ 2 ^ 63 := by exact_mod_cast bound
  have y_high : (y.natAbs : ℚ) ≤ 2 ^ 63 := by exact_mod_cast bound'
  have y_pos : (0 : ℚ) < y.natAbs := zero_lt_one.trans_le y_low
  rw [abs_div, abs, abs]
  constructor
  · calc (2 : ℚ) ^ (-1000 : Int) ≤ 2 ^ (-63 : Int) :=
          zpow_le_zpow_right₀ one_le_two (by decide)
      _ = 1 / 2 ^ 63 := by rw [zpow_neg, one_div]; rfl
      _ ≤ x.natAbs / y.natAbs := div_le_div₀ (Nat.cast_nonneg _) x_low y_pos y_high
  · calc (x.natAbs : ℚ) / y.natAbs ≤ x.natAbs := div_le_self (Nat.cast_nonneg _) y_low
      _ ≤ 2 ^ 63 := x_high
      _ = 2 ^ (63 : Int) := rfl
      _ < 2 ^ (900 : Int) := zpow_lt_zpow_right₀ one_lt_two (by decide)

theorem div_rounded (divisor : b ≠ 0) :
    Rounded ((nearest a.toInt : ℚ) / nearest b.toInt) ((ofInt64 a).div (ofInt64 b)) := by
  rw [div_of_finite (ofInt64_rounded a).finite (ofInt64_rounded b).finite
    (isZero_ofInt64 divisor), toRat_ofInt64, toRat_ofInt64]
  exact round_rounded (moderate_div (nearest_toInt_le a) (nearest_toInt_le b)) _

theorem tmod_eq (x y : Int) : x.tmod y = x.sign * (x.natAbs % y.natAbs : Nat) := by
  have natural (X : Nat) : (X : Int).tmod y = (X % y.natAbs : Nat) := by
    rcases Int.natAbs_eq y with same | same
    · rw [same, Int.natAbs_natCast, Int.ofNat_tmod]
    · rw [same, Int.tmod_neg, Int.natAbs_neg, Int.natAbs_natCast, Int.ofNat_tmod]
  rcases lt_trichotomy x 0 with less | rfl | more
  · have split : x = -(x.natAbs : Int) := by omega
    rw [Int.sign_eq_neg_one_of_neg less, neg_one_mul]
    nth_rewrite 1 [split]
    rw [Int.neg_tmod, natural]
  · simp
  · have split : x = (x.natAbs : Int) := by omega
    rw [Int.sign_eq_one_of_pos more, one_mul]
    nth_rewrite 1 [split]
    rw [natural]

theorem remainder_cast (X Y : Nat) :
    (X : ℚ) - ((X / Y : Int) : ℚ) * Y = (X % Y : Nat) := by
  have quotient : (((X : Int) / Y : Int) : ℚ) = (X / Y : Nat) := by
    rw [← Int.natCast_div, Int.cast_natCast]
  have sum : ((X / Y : Nat) : ℚ) * Y + (X % Y : Nat) = X := by
    rw [← Nat.cast_mul, ← Nat.cast_add, Nat.div_add_mod']
  rw [quotient]
  linarith

/-- The remainder of two doubles is exact. -/
theorem fmod_truncated (divisor : b ≠ 0) :
    ((ofInt64 a).fmod (ofInt64 b)).Convertible ∧
      ((ofInt64 a).fmod (ofInt64 b)).truncated =
        (nearest a.toInt).tmod (nearest b.toInt) := by
  have rounded := ofInt64_rounded a
  have rounded' := ofInt64_rounded b
  have remainder := fmod_of_finite rounded.finite rounded'.finite (isZero_ofInt64 divisor)
  rw [rounded.magnitude_int, rounded'.magnitude_int, ← natAbs_nearest, ← natAbs_nearest,
    Rat.floor_natCast_div_natCast, remainder_cast] at remainder
  have computed : ∃ z : Int, z.natAbs = (nearest a.toInt).natAbs % (nearest b.toInt).natAbs ∧
      z = (nearest a.toInt).tmod (nearest b.toInt) ∧
      (ofInt64 a).fmod (ofInt64 b) = round (ofInt64 a).signBit z := by
    rw [tmod_eq]
    rcases lt_trichotomy a.toInt 0 with less | zero | more
    · have sign : (nearest a.toInt).sign = -1 := by
        rw [nearest, Int.sign_mul, Int.sign_sign, Int.sign_eq_neg_one_of_neg less,
          Int.sign_natCast_of_ne_zero (Rounding.nearest_pos (by decide)
            (Int.natAbs_pos.mpr less.ne)).ne', mul_one]
      rw [if_pos (rounded.negative (by exact_mod_cast less))] at remainder
      refine ⟨_, ?_, rfl, ?_⟩
      · rw [sign, neg_one_mul, Int.natAbs_neg, Int.natAbs_natCast]
      · rw [remainder, sign, neg_one_mul, Int.cast_neg, Int.cast_natCast]
    · have nothing : nearest a.toInt = 0 := by
        rw [zero]
        rfl
      rw [nothing, Int.natAbs_zero, Nat.zero_mod, Nat.cast_zero, neg_zero, ite_self]
        at remainder
      refine ⟨_, ?_, rfl, ?_⟩
      · rw [nothing]
        simp
      · rw [remainder, nothing]
        simp
    · have sign : (nearest a.toInt).sign = 1 := by
        rw [nearest, Int.sign_mul, Int.sign_sign, Int.sign_eq_one_of_pos more,
          Int.sign_natCast_of_ne_zero (Rounding.nearest_pos (by decide)
            (Int.natAbs_pos.mpr more.ne')).ne', mul_one]
      have positive := rounded.positive (by exact_mod_cast more)
      rw [positive, if_neg Bool.false_ne_true] at remainder
      refine ⟨_, ?_, rfl, ?_⟩
      · rw [sign, one_mul, Int.natAbs_natCast]
      · rw [remainder, positive, sign, one_mul, Int.cast_natCast]
  rcases computed with ⟨z, size, value, computed⟩
  have nonzero : 0 < (nearest b.toInt).natAbs := by
    have toInt : b.toInt ≠ 0 := fun zero => divisor (Int64.toInt_inj.mp zero)
    exact Int.natAbs_pos.mpr (nearest_ne_zero toInt)
  have small : z.natAbs < 2 ^ 63 := by
    rw [size]
    exact (Nat.mod_lt _ nonzero).trans_le (nearest_toInt_le b)
  have fits : Fits 53 z.natAbs := by
    rw [size]
    exact (fits_nearest _).mod (fits_nearest _)
  have rounded : Rounded z ((ofInt64 a).fmod (ofInt64 b)) := by
    rw [computed]
    exact round_int (small.trans (by norm_num)) _
  have truncated := rounded.truncated_int
  rw [nearest_of_fits fits] at truncated
  rw [Convertible, truncated]
  exact ⟨⟨rounded.finite, by omega, by omega⟩, value⟩

end Operations

end Kjdmud.Double
