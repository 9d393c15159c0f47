import Kjdmud.Core.Double
import Kjdmud.Lib.Rounding

/-!
# What the rounding of `Double` computes

`round` takes a number that is neither too small nor too large to the nearest one of 53
significant bits, ties to even, with the sign of the number.
-/

namespace Kjdmud.Double

open Kjdmud.Rounding

/-! ## Fields -/

theorem toNat_ofFields {negative : Bool} {field : Nat} (bound : field < 2 ^ 63) :
    (ofFields negative field).bits.toNat = field + if negative then 2 ^ 63 else 0 := by
  rw [ofFields, BitVec.toNat_ofNat]
  apply Nat.mod_eq_of_lt
  split <;> omega

theorem signBit_ofFields {negative : Bool} {field : Nat} (bound : field < 2 ^ 63) :
    (ofFields negative field).signBit = negative := by
  rw [signBit, BitVec.msb_eq_decide, toNat_ofFields bound]
  cases negative with
  | false => simpa using bound
  | true => simp

theorem biasedExponent_ofFields {negative : Bool} {field : Nat} (bound : field < 2 ^ 63) :
    (ofFields negative field).biasedExponent = field / 2 ^ 52 := by
  rw [biasedExponent, toNat_ofFields bound]
  split <;> omega

theorem fraction_ofFields {negative : Bool} {field : Nat} (bound : field < 2 ^ 63) :
    (ofFields negative field).fraction = field % 2 ^ 52 := by
  rw [fraction, toNat_ofFields bound]
  split <;> omega

/-- The magnitude behind an exponent and a significand; a significand that the carry of a
rounding made one bit longer counts as the next exponent. -/
theorem magnitude_ofFields (negative : Bool) {place significand : Nat}
    (place_lt : place < 2000) (low : 2 ^ 52 ≤ significand) (high : significand ≤ 2 ^ 53) :
    (ofFields negative (place * 2 ^ 52 + significand)).biasedExponent < 2047 ∧
      (ofFields negative (place * 2 ^ 52 + significand)).magnitude =
        significand * (2 : ℚ) ^ ((place : Int) - 1074) := by
  have bound : place * 2 ^ 52 + significand < 2 ^ 63 := by omega
  rw [magnitude, Double.significand, exponent, biasedExponent_ofFields bound,
    fraction_ofFields bound]
  rcases Nat.lt_or_eq_of_le high with below | rfl
  · have field : (place * 2 ^ 52 + significand) / 2 ^ 52 = place + 1 := by omega
    have rest : 2 ^ 52 + (place * 2 ^ 52 + significand) % 2 ^ 52 = significand := by omega
    have exponent_eq : ((place + 1 : Nat) : Int) - 1075 = place - 1074 := by omega
    rw [field, if_neg (Nat.succ_ne_zero place), if_neg (Nat.succ_ne_zero place), rest,
      exponent_eq]
    exact ⟨by omega, rfl⟩
  · have field : (place * 2 ^ 52 + 2 ^ 53) / 2 ^ 52 = place + 2 := by omega
    have rest : 2 ^ 52 + (place * 2 ^ 52 + 2 ^ 53) % 2 ^ 52 = 2 ^ 52 := by omega
    have exponent_eq : ((place + 2 : Nat) : Int) - 1075 = (place - 1074 : Int) + 1 := by omega
    rw [field, if_neg (Nat.succ_ne_zero _), if_neg (Nat.succ_ne_zero _), rest,
      exponent_eq, two_zpow_succ]
    refine ⟨by omega, ?_⟩
    push_cast
    ring

/-! ## Rounding to an integer -/

theorem roundHalfEven_toNearest : ToNearest roundHalfEven := by
  intro y nonneg m positive
  have floor : ((y.floor.toNat : Nat) : ℚ) = ⌊y⌋ := by
    have floor_nonneg : 0 ≤ ⌊y⌋ := Int.floor_nonneg.mpr nonneg
    exact_mod_cast Int.toNat_of_nonneg floor_nonneg
  have low : ((y.floor.toNat : Nat) : ℚ) ≤ y := by
    rw [floor]
    exact Int.floor_le y
  have high : y < (y.floor.toNat : Nat) + 1 := by
    rw [floor]
    exact Int.lt_floor_add_one y
  unfold roundHalfEven
  dsimp only
  generalize y.floor.toNat = n at *
  rcases Nat.lt_trichotomy m (n + 1) with inside | rfl | beyond
  · have below : (m : ℚ) ≤ n := by exact_mod_cast Nat.le_of_lt_succ inside
    have reached : m ≤ n := Nat.le_of_lt_succ inside
    constructor
    · intro _
      left
      linarith
    · intro _
      split
      · exact reached
      · split
        · exact reached.trans (Nat.le_succ n)
        · split
          · exact reached
          · exact reached.trans (Nat.le_succ n)
  · push_cast
    split
    · next less =>
        constructor
        · intro same
          omega
        · rintro (above | ⟨same, -⟩) <;> linarith
    · next notLess =>
        split
        · next greater =>
            constructor
            · intro _
              left
              linarith
            · intro _
              exact le_rfl
        · next notGreater =>
            have tie : y = n + 1 / 2 := by linarith
            have parity : Even (n + 1) ↔ n % 2 ≠ 0 := by
              rw [Nat.even_iff]
              omega
            split
            · next even =>
                constructor
                · intro same
                  omega
                · rintro (above | ⟨-, odd⟩)
                  · linarith
                  · exact absurd even (parity.mp odd)
            · next odd =>
                constructor
                · intro _
                  right
                  exact ⟨by linarith, parity.mpr odd⟩
                · intro _
                  exact le_rfl
  · have above : (n : ℚ) + 2 ≤ m := by exact_mod_cast beyond
    constructor
    · intro reached
      split at reached
      · omega
      · split at reached
        · omega
        · split at reached <;> omega
    · rintro (below | ⟨same, -⟩) <;> linarith

/-! ## The place of the last bit -/

/-- A positive rational is the quotient of its parts. -/
theorem num_div_den {x : ℚ} (positive : 0 < x) : x = (x.num.toNat : ℚ) / x.den := by
  have num : ((x.num.toNat : Nat) : ℚ) = x.num := by
    have nonneg : 0 ≤ x.num := Rat.num_nonneg.mpr positive.le
    exact_mod_cast Int.toNat_of_nonneg nonneg
  rw [num, Rat.num_div_den]

/-- The guess at the first bit is off by one at most. -/
theorem guess_bounds {x : ℚ} (positive : 0 < x) :
    (2 : ℚ) ^ ((x.num.toNat.log2 : Int) - x.den.log2 - 1) ≤ x ∧
      x < 2 ^ ((x.num.toNat.log2 : Int) - x.den.log2 + 1) := by
  have num_pos : 0 < x.num.toNat := by
    have above := Rat.num_pos.mpr positive
    omega
  have num_low : ((2 : ℚ) ^ x.num.toNat.log2) ≤ x.num.toNat := by
    exact_mod_cast Nat.log2_self_le num_pos.ne'
  have num_high : (x.num.toNat : ℚ) < 2 ^ (x.num.toNat.log2 + 1) := by
    exact_mod_cast Nat.lt_log2_self
  have den_low : ((2 : ℚ) ^ x.den.log2) ≤ x.den := by
    exact_mod_cast Nat.log2_self_le x.den_nz
  have den_high : (x.den : ℚ) < 2 ^ (x.den.log2 + 1) := by
    exact_mod_cast Nat.lt_log2_self
  have den_pos : (0 : ℚ) < x.den := Nat.cast_pos.mpr x.den_pos
  have split := num_div_den positive
  generalize x.num.toNat = num at *
  generalize x.den = den at *
  have low_power : (2 : ℚ) ^ ((num.log2 : Int) - den.log2 - 1) =
      2 ^ num.log2 / 2 ^ (den.log2 + 1) := by
    rw [sub_sub, zpow_sub₀ two_ne_zero]
    norm_cast
  have high_power : (2 : ℚ) ^ ((num.log2 : Int) - den.log2 + 1) =
      2 ^ (num.log2 + 1) / 2 ^ den.log2 := by
    have exponent : (num.log2 : Int) - den.log2 + 1 = (num.log2 + 1 : Nat) - (den.log2 : Nat) := by
      push_cast
      ring
    rw [exponent, zpow_sub₀ two_ne_zero, zpow_natCast, zpow_natCast]
  rw [split, low_power, high_power]
  constructor
  · exact div_le_div₀ (by positivity) num_low den_pos den_high.le
  · calc (num : ℚ) / den ≤ num / 2 ^ den.log2 :=
        div_le_div_of_nonneg_left (by positivity) (by positivity) den_low
      _ < 2 ^ (num.log2 + 1) / 2 ^ den.log2 :=
        div_lt_div_of_pos_right num_high (by positivity)

/-- A number that is neither too small nor too large for a plain rounding. -/
structure Moderate (x : ℚ) : Prop where
  low : (2 : ℚ) ^ (-1000 : Int) ≤ x
  high : x < 2 ^ (900 : Int)

theorem Moderate.pos {x : ℚ} (moderate : Moderate x) : 0 < x :=
  lt_of_lt_of_le (zpow_pos two_pos _) moderate.low

/-- It is rounded at the last of its 53 bits. -/
theorem Moderate.lastPlace {x : ℚ} (moderate : Moderate x) :
    Scaled 53 x (lastPlace x) ∧ -1074 ≤ lastPlace x ∧ lastPlace x < 900 := by
  rcases guess_bounds moderate.pos with ⟨low, high⟩
  have leading : ∃ first : Int, (2 : ℚ) ^ first ≤ x ∧ x < 2 ^ (first + 1) ∧
      Double.lastPlace x = max (first - 52) (-1074) := by
    unfold Double.lastPlace
    dsimp only
    split
    · next reached => exact ⟨_, reached, high, rfl⟩
    · next notReached =>
        refine ⟨_, low, ?_, rfl⟩
        rw [sub_add_cancel]
        exact not_le.mp notReached
  rcases leading with ⟨first, low, high, place⟩
  have above : (-1000 : Int) < first + 1 :=
    (zpow_lt_zpow_iff_right₀ (one_lt_two (α := ℚ))).mp (moderate.low.trans_lt high)
  have below : first < 900 :=
    (zpow_lt_zpow_iff_right₀ (one_lt_two (α := ℚ))).mp (low.trans_lt moderate.high)
  have place' : Double.lastPlace x = first - 52 := by
    rw [place]
    omega
  rw [place']
  refine ⟨⟨?_, ?_⟩, by omega, by omega⟩
  · rw [← zpow_natCast, ← zpow_add₀ two_ne_zero]
    have exponent : ((53 - 1 : Nat) : Int) + (first - 52) = first := by omega
    rwa [exponent]
  · rw [← zpow_natCast, ← zpow_add₀ two_ne_zero]
    have exponent : ((53 : Nat) : Int) + (first - 52) = first + 1 := by omega
    rwa [exponent]

/-! ## Rounding -/

/-- A double that is the rounded value of a number. -/
structure Rounded (q : ℚ) (d : Double) : Prop where
  finite : d.biasedExponent < 2047
  negative : q < 0 → d.signBit = true
  positive : 0 < q → d.signBit = false
  rounds : Rounds 53 |q| d.magnitude

theorem roundMagnitude_spec {x : ℚ} (moderate : Moderate x) (negative : Bool) :
    (roundMagnitude negative x).biasedExponent < 2047 ∧
      (roundMagnitude negative x).signBit = negative ∧
      Rounds 53 x (roundMagnitude negative x).magnitude := by
  rcases moderate.lastPlace with ⟨scaled, low, high⟩
  have rounds := scaled.rounds (by decide) roundHalfEven_toNearest
  have unit : (0 : ℚ) < 2 ^ Double.lastPlace x := zpow_pos two_pos _
  have y_low : (2 : ℚ) ^ (53 - 1) ≤ x / 2 ^ Double.lastPlace x :=
    (le_div_iff₀ unit).mpr scaled.low
  have y_high : x / 2 ^ Double.lastPlace x < 2 ^ 53 := (div_lt_iff₀ unit).mpr scaled.high
  have near_low : 2 ^ 52 ≤ roundHalfEven (x / 2 ^ Double.lastPlace x) :=
    roundHalfEven_toNearest.le (by exact_mod_cast y_low)
  have near_high : roundHalfEven (x / 2 ^ Double.lastPlace x) ≤ 2 ^ 53 :=
    roundHalfEven_toNearest.ge (le_trans (by positivity) y_low) (by exact_mod_cast y_high.le)
  have place_lt : (Double.lastPlace x + 1074).toNat < 2000 := by omega
  have field_lt : (Double.lastPlace x + 1074).toNat * 2 ^ 52 +
      roundHalfEven (x / 2 ^ Double.lastPlace x) < 0x7ff0 * 2 ^ 48 := by omega
  rcases magnitude_ofFields negative place_lt near_low near_high with
    ⟨finite, magnitude⟩
  have exponent : (((Double.lastPlace x + 1074).toNat : Nat) : Int) - 1074 =
      Double.lastPlace x := by omega
  rw [exponent] at magnitude
  unfold roundMagnitude
  dsimp only
  rw [if_neg moderate.pos.ne', if_pos field_lt, magnitude]
  exact ⟨finite, signBit_ofFields (by omega), rounds⟩

theorem zero_spec (negative : Bool) :
    (zero negative).biasedExponent = 0 ∧ (zero negative).magnitude = 0 := by
  have biased : (zero negative).biasedExponent = 0 := by
    rw [zero, biasedExponent_ofFields (by decide), Nat.zero_div]
  have fraction : (zero negative).fraction = 0 := by
    rw [zero, fraction_ofFields (by decide), Nat.zero_mod]
  refine ⟨biased, ?_⟩
  rw [magnitude, significand, biased, if_pos rfl, fraction, Nat.cast_zero, zero_mul]

/-- `round` on a number that is zero or neither too small nor too large. -/
theorem round_rounded {q : ℚ} (moderate : q ≠ 0 → Moderate |q|) (negativeZero : Bool) :
    Rounded q (round negativeZero q) := by
  unfold round
  by_cases zero_ : q = 0
  · rcases zero_spec negativeZero with ⟨biased, magnitude⟩
    rw [if_pos zero_, zero_]
    constructor
    · rw [biased]
      decide
    · intro less
      exact absurd less (lt_irrefl 0)
    · intro less
      exact absurd less (lt_irrefl 0)
    · rw [abs_zero, magnitude]
      exact .zero (by decide)
  · rcases roundMagnitude_spec (moderate zero_) (q < 0) with ⟨finite, sign, rounds⟩
    rw [if_neg zero_]
    constructor
    · exact finite
    · intro less
      rw [sign]
      exact decide_eq_true less
    · intro more
      rw [sign]
      exact decide_eq_false more.le.not_gt
    · exact rounds

/-! ## Truncation -/

/-- The integer part of a finite double. -/
def truncated (d : Double) : Int :=
  if d.signBit then -⌊d.magnitude⌋ else ⌊d.magnitude⌋

/-- The conversion to `int64_t` is defined. -/
def Convertible (d : Double) : Prop :=
  d.biasedExponent < 2047 ∧ -2 ^ 63 ≤ d.truncated ∧ d.truncated < 2 ^ 63

theorem isNaN_of_finite {d : Double} (finite : d.biasedExponent < 2047) : d.isNaN = false := by
  have differs : d.biasedExponent ≠ 2047 := finite.ne
  simp [isNaN, differs]

theorem isInf_of_finite {d : Double} (finite : d.biasedExponent < 2047) : d.isInf = false := by
  have differs : d.biasedExponent ≠ 2047 := finite.ne
  simp [isInf, differs]

theorem Convertible.toInt64_eq {d : Double} (convertible : d.Convertible) :
    d.toInt64 = Int64.ofInt d.truncated := by
  rcases convertible with ⟨finite, range⟩
  unfold toInt64
  rw [isNaN_of_finite finite, isInf_of_finite finite]
  exact if_pos range

/-- A number lies where rounding and truncation give `S`: `S` fits into 53 bits, the number is
less than half a gap in front of it, and it is not half a gap in front of the next. -/
def Lands (S : Int) (q : ℚ) : Prop :=
  Fits 53 S.natAbs ∧ (S = 0 ∨ Reaches 53 S.natAbs (S.sign * q)) ∧
    ¬ Reaches 53 (next 53 S.natAbs) |q|

theorem lands_neg {S : Int} {q : ℚ} : Lands (-S) (-q) ↔ Lands S q := by
  rw [Lands, Int.natAbs_neg, neg_eq_zero, Int.sign_neg, Int.cast_neg, neg_mul_neg, abs_neg,
    Lands]

/-- The integer part of a rounded number that is not negative. -/
theorem floor_eq_iff_lands {q r : ℚ} (rounds : Rounds 53 |q| r) (nonneg : 0 ≤ q) (S : Int) :
    ⌊r⌋ = S ↔ Lands S q := by
  have floor_nonneg : 0 ≤ ⌊r⌋ := Int.floor_nonneg.mpr rounds.nonneg
  rcases S.eq_nat_or_neg with ⟨t, rfl | rfl⟩
  · rw [rounds.floor_eq_iff (by decide), Lands, Int.natAbs_natCast, abs_of_nonneg nonneg,
      Nat.cast_eq_zero]
    rcases Nat.eq_zero_or_pos t with rfl | positive
    · simp
    · have sign : (t : Int).sign = 1 := Int.sign_eq_one_of_pos (by exact_mod_cast positive)
      rw [sign, Int.cast_one, one_mul]
  · rcases Nat.eq_zero_or_pos t with rfl | positive
    · have zero := rounds.floor_eq_iff (t := 0) (by decide)
      rw [Nat.cast_zero] at zero ⊢
      rw [neg_zero, zero, Lands, Int.natAbs_zero, abs_of_nonneg nonneg]
      simp
    · constructor
      · intro same
        omega
      · rintro ⟨fits, reached, -⟩
        have sign : (-(t : Int)).sign = -1 := by
          rw [Int.sign_neg, Int.sign_eq_one_of_pos (by exact_mod_cast positive)]
        rw [Int.natAbs_neg, Int.natAbs_natCast] at fits reached
        rw [sign, Int.cast_neg, Int.cast_one, neg_one_mul, neg_eq_zero, Nat.cast_eq_zero]
          at reached
        have half := (reached.resolve_left positive.ne').half_lt fits positive (by decide)
        have above : (0 : ℚ) < t := Nat.cast_pos.mpr positive
        linarith

section Rounded

variable {q : ℚ} {d : Double} (rounded : Rounded q d)

include rounded

theorem Rounded.truncated_of_nonneg (nonneg : 0 ≤ q) : d.truncated = ⌊d.magnitude⌋ := by
  rcases nonneg.eq_or_lt with zero | more
  · have exact_ := rounded.rounds.exact_ 0 (.of_lt (by decide))
    rw [← zero, abs_zero, Nat.cast_zero] at exact_
    rw [truncated, exact_ rfl, Int.floor_zero, neg_zero, ite_self]
  · rw [truncated, rounded.positive more]
    rfl

theorem Rounded.truncated_of_neg (less : q < 0) : d.truncated = -⌊d.magnitude⌋ := by
  rw [truncated, if_pos (rounded.negative less)]

/-- Truncation gives what the number lands on. -/
theorem Rounded.truncated_eq_iff (S : Int) : d.truncated = S ↔ Lands S q := by
  rcases lt_or_ge q 0 with less | nonneg
  · have rounds : Rounds 53 |-q| d.magnitude := by
      rw [abs_neg]
      exact rounded.rounds
    rw [rounded.truncated_of_neg less, neg_eq_iff_eq_neg,
      floor_eq_iff_lands rounds (neg_nonneg.mpr less.le), lands_neg]
  · rw [rounded.truncated_of_nonneg nonneg, floor_eq_iff_lands rounded.rounds nonneg]

/-- The bounds of the conversion. -/
theorem Rounded.convertible_iff :
    d.Convertible ↔ -(2 ^ 63 + 1024) ≤ q ∧ q < 2 ^ 63 - 512 := by
  have fits : Fits 53 (2 ^ 63) := ⟨1, 63, by decide, by decide⟩
  -- The largest double below 2 ^ 63 and 2 ^ 63 itself, and what follows 2 ^ 63.
  have top : Reaches 53 (2 ^ 63) |q| ↔ (2 : ℚ) ^ 63 - 512 ≤ |q| := by
    have split : 2 ^ 63 = (2 ^ 53 - 1 + 1) * 2 ^ 10 := by decide
    rw [split, reaches_next_iff (by decide) (by decide) (by decide)]
    have even : Even (2 ^ 53 - 1 + 1) := by decide
    constructor
    · rintro (above | ⟨same, -⟩)
      · norm_num at above ⊢
        linarith
      · norm_num at same ⊢
        linarith
    · intro above
      rcases above.eq_or_lt with same | more
      · right
        refine ⟨?_, even⟩
        norm_num at same ⊢
        linarith
      · left
        norm_num at more ⊢
        linarith
  have past : Reaches 53 (next 53 (2 ^ 63)) |q| ↔ (2 : ℚ) ^ 63 + 1024 < |q| := by
    have split : 2 ^ 63 = 2 ^ 52 * 2 ^ 11 := by decide
    rw [split, next_mul_unit (by decide) (by decide) (by decide),
      reaches_next_iff (by decide) (by decide) (by decide)]
    have odd : ¬ Even (2 ^ 52 + 1) := by decide
    constructor
    · rintro (above | ⟨-, even⟩)
      · norm_num at above ⊢
        linarith
      · exact absurd even odd
    · intro above
      left
      norm_num at above ⊢
      linarith
  have floor_nonneg : 0 ≤ ⌊d.magnitude⌋ := Int.floor_nonneg.mpr rounded.rounds.nonneg
  have high := (rounded.rounds.le_floor_iff fits).trans
    (or_iff_right (Nat.two_pow_pos 63).ne')
  have low := rounded.rounds.floor_le_iff (by decide) fits
  rw [top] at high
  rw [past] at low
  rw [Convertible, and_iff_right rounded.finite]
  push_cast at high low
  rcases lt_or_ge q 0 with less | nonneg
  · rw [rounded.truncated_of_neg less]
    rw [abs_of_neg less] at high low
    constructor
    · rintro ⟨above, -⟩
      have bound := low.mp (by linarith)
      constructor <;> linarith
    · rintro ⟨above, -⟩
      have bound := low.mpr (by linarith)
      constructor <;> linarith
  · rw [rounded.truncated_of_nonneg nonneg]
    rw [abs_of_nonneg nonneg] at high low
    constructor
    · rintro ⟨-, below⟩
      have bound := mt high.mpr (by linarith)
      constructor <;> linarith
    · rintro ⟨-, below⟩
      have bound := mt high.mp (by linarith)
      constructor <;> linarith

end Rounded

/-! ## Integers -/

/-- `static_cast<double>` of an integer: the nearest one with a significand of 53 bits. -/
def nearest (i : Int) : Int :=
  i.sign * Rounding.nearest 53 i.natAbs

theorem moderate_int {z : Int} (nonzero : (z : ℚ) ≠ 0) (bound : z.natAbs < 2 ^ 200) :
    Moderate |(z : ℚ)| := by
  have abs : |(z : ℚ)| = (z.natAbs : ℚ) := by
    rw [← Int.cast_abs, Int.abs_eq_natAbs, Int.cast_natCast]
  have one : (1 : ℚ) ≤ z.natAbs := by
    have positive : 0 < z.natAbs := Int.natAbs_pos.mpr (by exact_mod_cast nonzero)
    exact_mod_cast positive
  have high : (z.natAbs : ℚ) < 2 ^ 200 := by exact_mod_cast bound
  rw [abs]
  constructor
  · calc (2 : ℚ) ^ (-1000 : Int) ≤ 2 ^ (0 : Int) :=
          zpow_le_zpow_right₀ one_le_two (by decide)
      _ = 1 := zpow_zero _
      _ ≤ _ := one
  · calc (z.natAbs : ℚ) < 2 ^ (200 : Int) := by exact_mod_cast high
      _ ≤ 2 ^ (900 : Int) := zpow_le_zpow_right₀ one_le_two (by decide)

theorem round_int {z : Int} (bound : z.natAbs < 2 ^ 200) (negativeZero : Bool) :
    Rounded z (round negativeZero z) :=
  round_rounded (fun nonzero => moderate_int nonzero bound) negativeZero

theorem Rounded.magnitude_int {z : Int} {d : Double} (rounded : Rounded z d) :
    d.magnitude = Rounding.nearest 53 z.natAbs := by
  have abs : |(z : ℚ)| = (z.natAbs : ℚ) := by
    rw [← Int.cast_abs, Int.abs_eq_natAbs, Int.cast_natCast]
  have rounds := rounded.rounds
  rw [abs] at rounds
  exact rounds.eq_nearest (by decide)

theorem Rounded.toRat_int {z : Int} {d : Double} (rounded : Rounded z d) :
    d.toRat = nearest z := by
  rw [toRat, rounded.magnitude_int, nearest]
  rcases lt_trichotomy z 0 with less | rfl | more
  · rw [if_pos (rounded.negative (by exact_mod_cast less)), Int.sign_eq_neg_one_of_neg less]
    push_cast
    ring
  · simp [Rounding.nearest]
  · rw [rounded.positive (by exact_mod_cast more), Int.sign_eq_one_of_pos more]
    push_cast
    simp

end Kjdmud.Double
