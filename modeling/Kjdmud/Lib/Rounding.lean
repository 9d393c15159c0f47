import Mathlib.Data.Rat.Floor
import Mathlib.Algebra.Ring.Parity
import Mathlib.Data.Nat.Log
import Mathlib.Data.Nat.Factorization.Basic
import Mathlib.Tactic.Linarith
import Mathlib.Tactic.Positivity
import Mathlib.Tactic.Ring

/-!
# Rounding to a number of significant bits

A binary floating-point format keeps `p` significant bits.  The natural numbers that
fit into them are the fixed points of rounding to nearest, ties to even, and rounding
is told apart by the fitting numbers it reaches: every number has a threshold below
it, half of the gap to its predecessor away, from which on it is reached.
-/

namespace Kjdmud.Rounding

/-! ## Numbers that fit -/

/-- A number that `p` significant bits hold. -/
def Fits (p n : Nat) : Prop :=
  ∃ m k, m < 2 ^ p ∧ n = m * 2 ^ k

/-- The exponent of the last of the `p` bits of a number. -/
def lastPlace (p t : Nat) : Int :=
  (t.log2 : Int) + 1 - p

/-- The next number that fits. -/
def next (p t : Nat) : Nat :=
  t + 2 ^ (t.log2 + 1 - p)

/-- The gap between a number and its predecessor. -/
def gapBelow (p t : Nat) : ℚ :=
  if t = 2 ^ t.log2 then 2 ^ (lastPlace p t - 1) else 2 ^ lastPlace p t

/-- The last of the `p` bits is zero. -/
def LastBitZero (p t : Nat) : Prop :=
  2 ^ (t.log2 + 2 - p) ∣ t

/-- Rounding to nearest, ties to even, takes `q` to `t` or beyond it. -/
def Reaches (p t : Nat) (q : ℚ) : Prop :=
  t - gapBelow p t / 2 < q ∨ (t - gapBelow p t / 2 = q ∧ LastBitZero p t)

section Fits

variable {p t : Nat}

theorem Fits.of_lt (small : t < 2 ^ p) : Fits p t :=
  ⟨t, 0, small, by rw [pow_zero, mul_one]⟩

/-- A power of two in front changes nothing. -/
theorem Fits.of_le {m : Nat} (positive : 0 < p) (bound : m ≤ 2 ^ p) (k : Nat) :
    Fits p (m * 2 ^ k) := by
  rcases Nat.lt_or_eq_of_le bound with below | top
  · exact ⟨m, k, below, rfl⟩
  · refine ⟨1, p + k, Nat.one_lt_two_pow positive.ne', ?_⟩
    rw [top, one_mul, pow_add]

/-- The last bits of a number that fits are zero. -/
theorem Fits.dvd (fits : Fits p t) (positive : 0 < t) : 2 ^ (t.log2 + 1 - p) ∣ t := by
  rcases fits with ⟨m, k, bound, rfl⟩
  have below : m * 2 ^ k < 2 ^ (p + k) := by
    rw [pow_add]
    exact Nat.mul_lt_mul_of_pos_right bound (Nat.two_pow_pos k)
  have log : (m * 2 ^ k).log2 < p + k := (Nat.log2_lt positive.ne').mpr below
  have shorter : (m * 2 ^ k).log2 + 1 - p ≤ k := by omega
  exact (pow_dvd_pow 2 shorter).trans (dvd_mul_left _ _)

/-- A number short enough for its last place fits. -/
theorem Fits.of_dvd {k : Nat} (dvd : 2 ^ k ∣ t) (bound : t < 2 ^ (p + k)) : Fits p t := by
  rcases dvd with ⟨m, rfl⟩
  refine ⟨m, k, ?_, Nat.mul_comm _ _⟩
  rw [pow_add, Nat.mul_comm] at bound
  exact Nat.lt_of_mul_lt_mul_right bound

/-- The remainder of numbers that fit. -/
theorem Fits.mod {d : Nat} (fits : Fits p t) (fits' : Fits p d) : Fits p (t % d) := by
  by_cases less : t < d
  · rwa [Nat.mod_eq_of_lt less]
  · rcases Nat.eq_zero_or_pos d with rfl | positive
    · rwa [Nat.mod_zero]
    · have log : d.log2 ≤ t.log2 :=
        (Nat.le_log2 (positive.trans_le (not_lt.mp less)).ne').mpr
          ((Nat.log2_self_le positive.ne').trans (not_lt.mp less))
      have left : 2 ^ (d.log2 + 1 - p) ∣ t :=
        (pow_dvd_pow 2 (by omega)).trans (fits.dvd (positive.trans_le (not_lt.mp less)))
      have dvd := (Nat.dvd_mod_iff (fits'.dvd positive)).mpr left
      have high : d < 2 ^ (p + (d.log2 + 1 - p)) :=
        Nat.lt_log2_self.trans_le (Nat.pow_le_pow_right (by decide) (by omega))
      exact .of_dvd dvd ((Nat.mod_lt t positive).trans high)

/-- The factors of a number that fits. -/
theorem Fits.of_mul {n : Nat} (fits : Fits p (t * n)) (nonzero : t * n ≠ 0) : Fits p t := by
  rcases fits with ⟨m, k, bound, split⟩
  have t_nonzero : t ≠ 0 := left_ne_zero_of_mul nonzero
  rcases Nat.exists_eq_two_pow_mul_odd t_nonzero with ⟨i, odd, isOdd, rfl⟩
  have m_pos : 0 < m := by
    rcases Nat.eq_zero_or_pos m with rfl | positive
    · rw [split, zero_mul] at nonzero
      exact absurd rfl nonzero
    · exact positive
  have divides : odd ∣ m * 2 ^ k := by
    rw [← split]
    exact (dvd_mul_left odd (2 ^ i)).mul_right n
  have coprime : Nat.Coprime odd (2 ^ k) := isOdd.coprime_two_right.pow_right k
  have small : odd ≤ m := Nat.le_of_dvd m_pos (coprime.dvd_of_dvd_mul_right divides)
  exact ⟨odd, i, small.trans_lt bound, Nat.mul_comm _ _⟩

/-- The bits of a number that fits: exactly `p` of them, scaled by the last place. -/
structure Bits (p t m : Nat) : Prop where
  low : 2 ^ (p - 1) ≤ m
  high : m < 2 ^ p
  scaled : (t : ℚ) = m * 2 ^ lastPlace p t
  even : LastBitZero p t ↔ Even m
  least : t = 2 ^ t.log2 ↔ m = 2 ^ (p - 1)

theorem Fits.bits (fits : Fits p t) (positive : 0 < t) (some_ : 0 < p) :
    ∃ m, Bits p t m := by
  have low := Nat.log2_self_le positive.ne'
  have high := Nat.lt_log2_self (n := t)
  by_cases long : p ≤ t.log2 + 1
  · rcases fits.dvd positive with ⟨m, split⟩
    have place : lastPlace p t = ((t.log2 + 1 - p : Nat) : Int) := by
      rw [lastPlace, Nat.cast_sub long]
      push_cast
      ring
    have above : 2 ^ t.log2 = 2 ^ (t.log2 + 1 - p) * 2 ^ (p - 1) := by
      rw [← pow_add]
      congr 1
      omega
    have past : 2 ^ (t.log2 + 1) = 2 ^ (t.log2 + 1 - p) * 2 ^ p := by
      rw [← pow_add]
      congr 1
      omega
    have unit := Nat.two_pow_pos (t.log2 + 1 - p)
    refine ⟨m, ?_, ?_, ?_, ?_, ?_⟩
    · rw [above] at low
      nth_rewrite 2 [split] at low
      exact Nat.le_of_mul_le_mul_left low unit
    · rw [past] at high
      nth_rewrite 1 [split] at high
      exact Nat.lt_of_mul_lt_mul_left high
    · rw [place, zpow_natCast]
      nth_rewrite 1 [split]
      push_cast
      ring
    · have longer : t.log2 + 2 - p = (t.log2 + 1 - p) + 1 := by omega
      unfold LastBitZero
      rw [longer, pow_succ, even_iff_two_dvd]
      nth_rewrite 2 [split]
      exact Nat.mul_dvd_mul_iff_left unit
    · rw [above]
      nth_rewrite 1 [split]
      exact Nat.mul_right_inj unit.ne'
  · have short : t.log2 + 1 ≤ p - 1 + 1 := by omega
    have place : lastPlace p t = -((p - 1 - t.log2 : Nat) : Int) := by
      unfold lastPlace
      omega
    have above : 2 ^ (p - 1) = 2 ^ t.log2 * 2 ^ (p - 1 - t.log2) := by
      rw [← pow_add]
      congr 1
      omega
    have past : 2 ^ p = 2 ^ (t.log2 + 1) * 2 ^ (p - 1 - t.log2) := by
      rw [← pow_add]
      congr 1
      omega
    have unit := Nat.two_pow_pos (p - 1 - t.log2)
    refine ⟨t * 2 ^ (p - 1 - t.log2), ?_, ?_, ?_, ?_, ?_⟩
    · rw [above]
      exact Nat.mul_le_mul_right _ low
    · rw [past]
      exact Nat.mul_lt_mul_of_pos_right high unit
    · rw [place, zpow_neg, zpow_natCast]
      push_cast
      have nonzero : (2 : ℚ) ^ (p - 1 - t.log2) ≠ 0 := by positivity
      rw [mul_assoc, mul_inv_cancel₀ nonzero, mul_one]
    · have none_ : t.log2 + 2 - p = 0 := by omega
      have split : p - 1 - t.log2 = (p - 2 - t.log2) + 1 := by omega
      unfold LastBitZero
      rw [none_, pow_zero, split, pow_succ, ← mul_assoc]
      exact ⟨fun _ => even_two.mul_left _, fun _ => one_dvd _⟩
    · rw [above]
      exact (Nat.mul_left_inj unit.ne').symm

/-- The gap below a number, from its bits. -/
theorem Bits.gapBelow_eq {m : Nat} (bits : Bits p t m) :
    gapBelow p t = if m = 2 ^ (p - 1) then 2 ^ (lastPlace p t - 1) else 2 ^ lastPlace p t := by
  unfold gapBelow
  by_cases least : m = 2 ^ (p - 1)
  · rw [if_pos least, if_pos (bits.least.mpr least)]
  · rw [if_neg least, if_neg fun same => least (bits.least.mp same)]

theorem gapBelow_pos : 0 < gapBelow p t := by
  unfold gapBelow
  split
  · exact zpow_pos two_pos _
  · exact zpow_pos two_pos _

theorem gapBelow_le : gapBelow p t ≤ 2 ^ lastPlace p t := by
  unfold gapBelow
  split
  · exact zpow_le_zpow_right₀ one_le_two (by omega)
  · exact le_rfl

/-- The gap below a number is no larger than the number. -/
theorem Bits.gapBelow_le {m : Nat} (bits : Bits p t m) : gapBelow p t ≤ t := by
  have one : (1 : ℚ) ≤ m := by
    exact_mod_cast le_trans (Nat.two_pow_pos (p - 1)) bits.low
  have unit : (0 : ℚ) < 2 ^ lastPlace p t := zpow_pos two_pos _
  calc gapBelow p t ≤ 2 ^ lastPlace p t := Rounding.gapBelow_le
    _ ≤ m * 2 ^ lastPlace p t := le_mul_of_one_le_left unit.le one
    _ = t := bits.scaled.symm

/-- A number is reached from half of it on at the earliest. -/
theorem Reaches.half_lt {q : ℚ} (fits : Fits p t) (positive : 0 < t) (some_ : 0 < p)
    (reaches : Reaches p t q) : (t : ℚ) / 2 ≤ q := by
  rcases fits.bits positive some_ with ⟨m, bits⟩
  have gap := bits.gapBelow_le
  rcases reaches with above | ⟨same, -⟩ <;> linarith

theorem Reaches.of_le {q : ℚ} (above : (t : ℚ) ≤ q) : Reaches p t q := by
  left
  have gap : 0 < gapBelow p t := gapBelow_pos
  linarith

end Fits

/-! ## Rounding to an integer -/

/-- Rounding to the nearest integer, ties to even, as the integers it reaches. -/
def ToNearest (near : ℚ → Nat) : Prop :=
  ∀ y, 0 ≤ y → ∀ m, 0 < m →
    (m ≤ near y ↔ (m : ℚ) - 1 / 2 < y ∨ ((m : ℚ) - 1 / 2 = y ∧ Even m))

section ToNearest

variable {near : ℚ → Nat} (nearest : ToNearest near) {y : ℚ}

include nearest

theorem ToNearest.le {m : Nat} (above : (m : ℚ) ≤ y) : m ≤ near y := by
  rcases Nat.eq_zero_or_pos m with rfl | positive
  · exact Nat.zero_le _
  · have nonneg : 0 ≤ y := le_trans (Nat.cast_nonneg m) above
    exact (nearest y nonneg m positive).mpr (.inl (by linarith))

theorem ToNearest.ge {m : Nat} (nonneg : 0 ≤ y) (below : y ≤ m) : near y ≤ m := by
  by_contra beyond
  have reached := (nearest y nonneg (m + 1) m.succ_pos).mp (not_le.mp beyond)
  push_cast at reached
  rcases reached with above | ⟨same, -⟩ <;> linarith

theorem ToNearest.natCast (m : Nat) : near m = m :=
  le_antisymm (nearest.ge (Nat.cast_nonneg m) le_rfl) (nearest.le le_rfl)

end ToNearest

/-! ## Rounding to `p` bits -/

/-- `r` is `q` rounded to `p` significant bits, as far as its integer part goes. -/
structure Rounds (p : Nat) (q r : ℚ) : Prop where
  nonneg : 0 ≤ r
  /-- What it reaches. -/
  reaches : ∀ t, 0 < t → Fits p t → ((t : ℚ) ≤ r ↔ Reaches p t q)
  /-- There is no place behind the point left for long numbers. -/
  whole : (2 : ℚ) ^ p ≤ r → ∃ n : Nat, Fits p n ∧ r = n
  exact_ : ∀ n : Nat, Fits p n → q = n → r = n

theorem Rounds.zero {p : Nat} (some_ : 0 < p) : Rounds p 0 0 where
  nonneg := le_rfl
  reaches := by
    intro t positive fits
    have above : (0 : ℚ) < t := Nat.cast_pos.mpr positive
    constructor
    · intro below
      linarith
    · intro reaches
      have half := reaches.half_lt fits positive some_
      linarith
  whole := by
    intro beyond
    have positive : (0 : ℚ) < 2 ^ p := by positivity
    linarith
  exact_ := fun n _ zero => zero

section Scaled

variable {p : Nat} {near : ℚ → Nat} {x : ℚ} {e : Int}

/-- A number whose first bit stands `p` places before the place it is rounded at. -/
structure Scaled (p : Nat) (x : ℚ) (e : Int) : Prop where
  low : (2 : ℚ) ^ (p - 1) * 2 ^ e ≤ x
  high : x < 2 ^ p * 2 ^ e

theorem two_zpow_succ (k : Int) : (2 : ℚ) ^ (k + 1) = 2 * 2 ^ k := by
  rw [zpow_add_one₀ two_ne_zero, mul_comm]

theorem two_pow_pred (some_ : 0 < p) : (2 : ℚ) ^ p = 2 * 2 ^ (p - 1) := by
  rw [← pow_succ']
  congr 1
  omega

section Compare

variable {t m : Nat} {y u : ℚ}

/-- A number that ends before the place is reached. -/
theorem Bits.short (bits : Bits p t m) (some_ : 0 < p)
    (before : lastPlace p t < e) : (t : ℚ) ≤ 2 ^ (p - 1) * 2 ^ e := by
  have unit : (0 : ℚ) < 2 ^ lastPlace p t := zpow_pos two_pos _
  have high : (m : ℚ) ≤ 2 ^ p := by exact_mod_cast bits.high.le
  have place : 2 * (2 : ℚ) ^ lastPlace p t ≤ 2 ^ e := by
    rw [← two_zpow_succ]
    exact zpow_le_zpow_right₀ one_le_two before
  calc (t : ℚ) = m * 2 ^ lastPlace p t := bits.scaled
    _ ≤ 2 ^ p * 2 ^ lastPlace p t := mul_le_mul_of_nonneg_right high unit.le
    _ = 2 ^ (p - 1) * (2 * 2 ^ lastPlace p t) := by rw [two_pow_pred some_]; ring
    _ ≤ 2 ^ (p - 1) * 2 ^ e := mul_le_mul_of_nonneg_left place (by positivity)

/-- A number that ends behind the place is not reached, unless it is the power of two next
to the place. -/
theorem Bits.far (bits : Bits p t m) (some_ : 0 < p) (behind : e < lastPlace p t)
    (far : ¬ (m = 2 ^ (p - 1) ∧ lastPlace p t = e + 1)) :
    (2 : ℚ) ^ p * 2 ^ e < t ∧ (2 : ℚ) ^ p * 2 ^ e ≤ t - gapBelow p t / 2 := by
  have unit : (0 : ℚ) < 2 ^ e := zpow_pos two_pos _
  have full := two_pow_pred some_
  have half : (1 : ℚ) ≤ 2 ^ (p - 1) := one_le_pow₀ one_le_two
  have place : 2 * (2 : ℚ) ^ e ≤ 2 ^ lastPlace p t := by
    rw [← two_zpow_succ]
    exact zpow_le_zpow_right₀ one_le_two behind
  rw [bits.scaled, full]
  by_cases least : m = 2 ^ (p - 1)
  · have later : e + 1 + 1 ≤ lastPlace p t := by omega
    have place : 4 * (2 : ℚ) ^ e ≤ 2 ^ lastPlace p t := by
      have twice := zpow_le_zpow_right₀ (one_le_two (α := ℚ)) later
      rw [two_zpow_succ, two_zpow_succ] at twice
      linarith
    have gap := bits.gapBelow_le
    have cast : (m : ℚ) = 2 ^ (p - 1) := by exact_mod_cast least
    rw [bits.scaled, cast] at gap
    rw [cast]
    constructor <;> nlinarith
  · have more : (2 : ℚ) ^ (p - 1) + 1 ≤ m := by
      have above := lt_of_le_of_ne bits.low (Ne.symm least)
      exact_mod_cast above
    have gap := Rounding.gapBelow_le (p := p) (t := t)
    constructor <;> nlinarith

/-- Multiples of a unit compare as their factors do. -/
theorem threshold_iff (unit : 0 < u) (half : ℚ) (even : Prop) :
    (half < y ∨ (half = y ∧ even)) ↔ (half * u < y * u ∨ (half * u = y * u ∧ even)) := by
  rw [mul_lt_mul_iff_left₀ unit, mul_left_inj' unit.ne']

end Compare

/-- Rounding at the place of the last bit reaches what it should. -/
theorem Scaled.reaches (two : 2 ≤ p) (nearest : ToNearest near) (scaled : Scaled p x e)
    {t : Nat} (positive : 0 < t) (fits : Fits p t) :
    (t : ℚ) ≤ near (x / 2 ^ e) * 2 ^ e ↔ Reaches p t x := by
  have some_ : 0 < p := by omega
  rcases fits.bits positive some_ with ⟨m, bits⟩
  have unit : (0 : ℚ) < 2 ^ e := zpow_pos two_pos e
  have y_low : (2 : ℚ) ^ (p - 1) ≤ x / 2 ^ e := (le_div_iff₀ unit).mpr scaled.low
  have y_high : x / 2 ^ e < 2 ^ p := (div_lt_iff₀ unit).mpr scaled.high
  have y_nonneg : 0 ≤ x / 2 ^ e := le_trans (by positivity) y_low
  have split : x / 2 ^ e * 2 ^ e = x := div_mul_cancel₀ x unit.ne'
  have near_high : near (x / 2 ^ e) ≤ 2 ^ p :=
    nearest.ge y_nonneg (by exact_mod_cast y_high.le)
  rcases lt_trichotomy (lastPlace p t) e with before | here | behind
  · have short := bits.short some_ before
    have near_low : (2 : ℚ) ^ (p - 1) ≤ near (x / 2 ^ e) := by
      have low := nearest.le (m := 2 ^ (p - 1)) (by exact_mod_cast y_low)
      exact_mod_cast low
    constructor
    · intro _
      exact .of_le (short.trans scaled.low)
    · intro _
      exact short.trans (mul_le_mul_of_nonneg_right near_low unit.le)
  · rw [bits.scaled, here, mul_le_mul_iff_left₀ unit, Nat.cast_le]
    have m_pos : 0 < m := lt_of_lt_of_le (Nat.two_pow_pos _) bits.low
    by_cases least : m = 2 ^ (p - 1)
    · have below : (m : ℚ) ≤ x / 2 ^ e := by
        rw [least]
        exact_mod_cast y_low
      constructor
      · intro _
        apply Reaches.of_le
        rw [bits.scaled, here, ← split]
        exact mul_le_mul_of_nonneg_right below unit.le
      · intro _
        exact nearest.le below
    · rw [nearest _ y_nonneg m m_pos, threshold_iff unit, split, Reaches, bits.gapBelow_eq,
        if_neg least, bits.scaled, here, bits.even, sub_mul, one_div_mul_eq_div]
  · by_cases next_ : m = 2 ^ (p - 1) ∧ lastPlace p t = e + 1
    · rcases next_ with ⟨least, place⟩
      have scaled' : (t : ℚ) = (2 ^ p : Nat) * 2 ^ e := by
        rw [bits.scaled, place, two_zpow_succ, least]
        push_cast
        rw [two_pow_pred some_]
        ring
      have bothEven : Even (2 ^ p) ↔ Even m := by
        rw [least, Nat.even_pow, Nat.even_pow]
        exact ⟨fun _ => ⟨even_two, by omega⟩, fun _ => ⟨even_two, by omega⟩⟩
      rw [scaled', mul_le_mul_iff_left₀ unit, Nat.cast_le,
        nearest _ y_nonneg (2 ^ p) (Nat.two_pow_pos p), threshold_iff unit, split, Reaches,
        bits.gapBelow_eq, if_pos least, scaled', place, add_sub_cancel_right, bits.even,
        bothEven, sub_mul, one_div_mul_eq_div]
    · rcases bits.far some_ behind next_ with ⟨beyond, threshold⟩
      have high := scaled.high
      have near_high' : (near (x / 2 ^ e) : ℚ) ≤ 2 ^ p := by exact_mod_cast near_high
      constructor
      · intro reached
        have product := mul_le_mul_of_nonneg_right near_high' unit.le
        linarith
      · rintro (above | ⟨same, -⟩) <;> linarith

/-- A number that fits is scaled at the place of its last bit only. -/
theorem Bits.place_eq {n m : Nat} (bits : Bits p n m) (some_ : 0 < p)
    (scaled : Scaled p n e) : lastPlace p n = e := by
  have low := scaled.low
  have high := scaled.high
  have m_low : (2 : ℚ) ^ (p - 1) ≤ m := by exact_mod_cast bits.low
  have m_high : (m : ℚ) < 2 ^ p := by exact_mod_cast bits.high
  have full := two_pow_pred some_
  have half : (0 : ℚ) < 2 ^ (p - 1) := by positivity
  have place : (0 : ℚ) < 2 ^ lastPlace p n := zpow_pos two_pos _
  have unit : (0 : ℚ) < 2 ^ e := zpow_pos two_pos e
  rw [bits.scaled] at low high
  have above : (2 : ℚ) ^ e < 2 ^ (lastPlace p n + 1) := by
    rw [two_zpow_succ]
    nlinarith
  have below : (2 : ℚ) ^ lastPlace p n < 2 ^ (e + 1) := by
    rw [two_zpow_succ]
    nlinarith
  have above' := (zpow_lt_zpow_iff_right₀ one_lt_two).mp above
  have below' := (zpow_lt_zpow_iff_right₀ one_lt_two).mp below
  omega

/-- Rounding at the place of the last bit is rounding to `p` bits. -/
theorem Scaled.rounds (two : 2 ≤ p) (nearest : ToNearest near) (scaled : Scaled p x e) :
    Rounds p x (near (x / 2 ^ e) * 2 ^ e) where
  nonneg := mul_nonneg (Nat.cast_nonneg _) (zpow_pos two_pos e).le
  reaches := fun _ positive fits => scaled.reaches two nearest positive fits
  whole := by
    intro beyond
    have unit : (0 : ℚ) < 2 ^ e := zpow_pos two_pos e
    have y_high : x / 2 ^ e < 2 ^ p := (div_lt_iff₀ unit).mpr scaled.high
    have y_low : (2 : ℚ) ^ (p - 1) ≤ x / 2 ^ e := (le_div_iff₀ unit).mpr scaled.low
    have y_nonneg : 0 ≤ x / 2 ^ e := le_trans (by positivity) y_low
    have near_high : near (x / 2 ^ e) ≤ 2 ^ p :=
      nearest.ge y_nonneg (by exact_mod_cast y_high.le)
    have near_high' : (near (x / 2 ^ e) : ℚ) ≤ 2 ^ p := by exact_mod_cast near_high
    cases e with
    | ofNat k =>
        refine ⟨near (x / 2 ^ (k : Int)) * 2 ^ k, .of_le (by omega) near_high k, ?_⟩
        simp
    | negSucc k =>
        have half : (2 : ℚ) ^ Int.negSucc k ≤ 2 ^ (-1 : Int) :=
          zpow_le_zpow_right₀ one_le_two (by omega)
        have full : (0 : ℚ) < 2 ^ p := by positivity
        have product := mul_le_mul near_high' half unit.le full.le
        rw [zpow_neg_one] at product
        linarith
  exact_ := by
    rintro n fits rfl
    have unit : (0 : ℚ) < 2 ^ e := zpow_pos two_pos e
    have some_ : 0 < p := by omega
    have positive : 0 < n := by
      have above : (0 : ℚ) < n := lt_of_lt_of_le (by positivity) scaled.low
      exact_mod_cast above
    rcases fits.bits positive some_ with ⟨m, bits⟩
    have place : lastPlace p n = e := bits.place_eq some_ scaled
    rw [bits.scaled, place, mul_div_cancel_right₀ _ unit.ne', nearest.natCast]

end Scaled

/-! ## The integer part -/

section Next

variable {p t n : Nat}

theorem lt_next : t < next p t :=
  Nat.lt_add_of_pos_right (Nat.two_pow_pos _)

/-- Short numbers follow each other by one. -/
theorem next_of_lt (some_ : 0 < p) (short : t < 2 ^ p) : next p t = t + 1 := by
  have log : t.log2 + 1 - p = 0 := by
    rcases Nat.eq_zero_or_pos t with rfl | positive
    · rw [Nat.log2_zero]
      omega
    · have below := (Nat.log2_lt positive.ne').mpr short
      omega
  rw [next, log, pow_zero]

theorem log2_of_le (long : 2 ^ p ≤ t) : p ≤ t.log2 :=
  (Nat.le_log2 (lt_of_lt_of_le (Nat.two_pow_pos p) long).ne').mpr long

theorem Fits.next (fits : Fits p t) (some_ : 0 < p) : Fits p (next p t) := by
  by_cases short : t < 2 ^ p
  · rw [next_of_lt some_ short]
    have fits' := Fits.of_le some_ (Nat.succ_le_of_lt short) 0
    rwa [pow_zero, mul_one] at fits'
  · have long := not_lt.mp short
    have positive := lt_of_lt_of_le (Nat.two_pow_pos p) long
    have log := log2_of_le long
    rcases fits.dvd positive with ⟨m, split⟩
    have bound : m < 2 ^ p := by
      have high := Nat.lt_log2_self (n := t)
      have past : 2 ^ (t.log2 + 1) = 2 ^ (t.log2 + 1 - p) * 2 ^ p := by
        rw [← pow_add]
        congr 1
        omega
      rw [past] at high
      nth_rewrite 1 [split] at high
      exact Nat.lt_of_mul_lt_mul_left high
    have sum : Rounding.next p t = (m + 1) * 2 ^ (t.log2 + 1 - p) := by
      rw [Rounding.next, Nat.add_mul, one_mul, Nat.mul_comm m, ← split]
    rw [sum]
    exact .of_le some_ bound _

/-- Nothing that fits stands between a number and the next. -/
theorem Fits.next_le (fits : Fits p t) (some_ : 0 < p) (fits' : Fits p n) (less : t < n) :
    Rounding.next p t ≤ n := by
  by_cases short : t < 2 ^ p
  · rw [next_of_lt some_ short]
    exact less
  · have positive := lt_of_lt_of_le (Nat.two_pow_pos p) (not_lt.mp short)
    have log : t.log2 ≤ n.log2 :=
      (Nat.le_log2 (positive.trans less).ne').mpr
        ((Nat.log2_self_le positive.ne').trans less.le)
    have left := fits.dvd positive
    have right : 2 ^ (t.log2 + 1 - p) ∣ n :=
      (pow_dvd_pow 2 (by omega)).trans (fits'.dvd (positive.trans less))
    have gap := Nat.le_of_dvd (Nat.sub_pos_of_lt less) (Nat.dvd_sub right left)
    unfold Rounding.next
    omega

end Next

/-- What the integer part does not go beyond. -/
theorem Rounds.floor_le_iff {p t : Nat} {q r : ℚ} (rounds : Rounds p q r) (some_ : 0 < p)
    (fits : Fits p t) : ⌊r⌋ ≤ (t : Int) ↔ ¬ Reaches p (next p t) q := by
  rw [← rounds.reaches _ (Nat.zero_lt_of_lt lt_next) (fits.next some_), not_le]
  constructor
  · intro floor
    have step : (t : ℚ) + 1 ≤ next p t := by exact_mod_cast lt_next
    have above := Int.lt_floor_add_one r
    have below : (⌊r⌋ : ℚ) ≤ t := by exact_mod_cast floor
    linarith
  · intro below
    by_contra beyond
    have least : (t : Int) + 1 ≤ ⌊r⌋ := by omega
    have above : (t : ℚ) + 1 ≤ r := by exact_mod_cast Int.le_floor.mp least
    by_cases short : t < 2 ^ p
    · rw [next_of_lt some_ short] at below
      push_cast at below
      linarith
    · have long : (2 : ℚ) ^ p ≤ t := by exact_mod_cast not_lt.mp short
      rcases rounds.whole (by linarith) with ⟨n, fits', rfl⟩
      have above' : t + 1 ≤ n := by exact_mod_cast above
      have below' : n < next p t := by exact_mod_cast below
      have next_le := fits.next_le some_ fits' above'
      omega

/-- What the integer part comes to. -/
theorem Rounds.le_floor_iff {p t : Nat} {q r : ℚ} (rounds : Rounds p q r) (fits : Fits p t) :
    (t : Int) ≤ ⌊r⌋ ↔ t = 0 ∨ Reaches p t q := by
  rw [Int.le_floor, Int.cast_natCast]
  rcases Nat.eq_zero_or_pos t with rfl | positive
  · rw [Nat.cast_zero]
    exact ⟨fun _ => .inl rfl, fun _ => rounds.nonneg⟩
  · rw [rounds.reaches t positive fits]
    exact ⟨.inr, fun reached => reached.resolve_left positive.ne'⟩

/-- The integer part of a rounded number: it fits, it is reached, and the next number is
not. -/
theorem Rounds.floor_eq_iff {p t : Nat} {q r : ℚ} (rounds : Rounds p q r) (some_ : 0 < p) :
    ⌊r⌋ = (t : Int) ↔
      Fits p t ∧ (t = 0 ∨ Reaches p t q) ∧ ¬ Reaches p (next p t) q := by
  constructor
  · intro floor
    have fits : Fits p t := by
      by_cases short : t < 2 ^ p
      · exact .of_lt short
      · have long : (2 : ℚ) ^ p ≤ t := by exact_mod_cast not_lt.mp short
        have low : (t : ℚ) ≤ r := by exact_mod_cast Int.le_floor.mp floor.ge
        rcases rounds.whole (long.trans low) with ⟨n, fits, rfl⟩
        rw [Int.floor_natCast] at floor
        rwa [← Int.ofNat_inj.mp floor]
    exact ⟨fits, (rounds.le_floor_iff fits).mp floor.ge,
      (rounds.floor_le_iff some_ fits).mp floor.le⟩
  · rintro ⟨fits, reached, notNext⟩
    exact le_antisymm ((rounds.floor_le_iff some_ fits).mpr notNext)
      ((rounds.le_floor_iff fits).mpr reached)

/-! ## Integers -/

/-- An integer rounded to `p` bits. -/
def nearest (p n : Nat) : Nat :=
  let unit := 2 ^ (n.log2 + 1 - p)
  let low := n / unit
  let rest := n % unit
  if 2 * rest < unit then low * unit
  else if unit < 2 * rest then (low + 1) * unit
  else if low % 2 = 0 then low * unit
  else (low + 1) * unit

section Nearest

variable {p n : Nat}

theorem nearest_of_lt (some_ : 0 < p) (short : n < 2 ^ p) : nearest p n = n := by
  have unit : n.log2 + 1 - p = 0 := by
    have step := next_of_lt some_ short
    unfold next at step
    have one : 2 ^ (n.log2 + 1 - p) = 1 := Nat.add_left_cancel step
    exact (Nat.pow_eq_one.mp one).resolve_left (by decide)
  unfold nearest
  rw [unit, pow_zero]
  simp [Nat.mod_one]

section Unit

variable {low j : Nat} (low_le : 2 ^ (p - 1) ≤ low) (low_lt : low < 2 ^ p)

include low_le low_lt

theorem log2_mul_unit (some_ : 0 < p) : (low * 2 ^ j).log2 = p - 1 + j := by
  have positive : 0 < low * 2 ^ j :=
    Nat.mul_pos (lt_of_lt_of_le (Nat.two_pow_pos _) low_le) (Nat.two_pow_pos j)
  rw [Nat.log2_eq_iff positive.ne']
  constructor
  · rw [pow_add]
    exact Nat.mul_le_mul_right _ low_le
  · have past : p - 1 + j + 1 = p + j := by omega
    rw [past, pow_add]
    exact Nat.mul_lt_mul_of_pos_right low_lt (Nat.two_pow_pos j)

theorem next_mul_unit (some_ : 0 < p) : next p (low * 2 ^ j) = (low + 1) * 2 ^ j := by
  have place : p - 1 + j + 1 - p = j := by omega
  rw [next, log2_mul_unit low_le low_lt some_, place, Nat.add_mul, one_mul]

/-- Where the next number is reached: half a unit below it. -/
theorem reaches_next_iff (two : 2 ≤ p) {q : ℚ} :
    Reaches p ((low + 1) * 2 ^ j) q ↔
      low * 2 ^ j + (2 : ℚ) ^ j / 2 < q ∨
        (low * 2 ^ j + (2 : ℚ) ^ j / 2 = q ∧ Even (low + 1)) := by
  have threshold (gap : gapBelow p ((low + 1) * 2 ^ j) = 2 ^ j) :
      (((low + 1) * 2 ^ j : Nat) : ℚ) - gapBelow p ((low + 1) * 2 ^ j) / 2 =
        low * 2 ^ j + (2 : ℚ) ^ j / 2 := by
    rw [gap]
    push_cast
    ring
  rcases Nat.lt_or_eq_of_le (show low + 1 ≤ 2 ^ p from low_lt) with inside | carry
  · have log := log2_mul_unit (j := j) (low_le.trans (Nat.le_succ low)) inside (by omega)
    have gap : gapBelow p ((low + 1) * 2 ^ j) = 2 ^ j := by
      have notPower : (low + 1) * 2 ^ j ≠ 2 ^ (p - 1 + j) := by
        rw [pow_add]
        intro same
        have least := Nat.eq_of_mul_eq_mul_right (Nat.two_pow_pos j) same
        omega
      have place : ((p - 1 + j : Nat) : Int) + 1 - p = j := by omega
      rw [gapBelow, lastPlace, log, if_neg notPower, place, zpow_natCast]
    have even : LastBitZero p ((low + 1) * 2 ^ j) ↔ Even (low + 1) := by
      have place : p - 1 + j + 2 - p = j + 1 := by omega
      rw [LastBitZero, log, place, pow_succ, Nat.mul_comm (low + 1), even_iff_two_dvd]
      exact Nat.mul_dvd_mul_iff_left (Nat.two_pow_pos j)
    rw [Reaches, threshold gap, even]
  · have power : (low + 1) * 2 ^ j = 2 ^ (p + j) := by
      rw [carry, pow_add]
    have log : ((low + 1) * 2 ^ j).log2 = p + j := by
      rw [power, Nat.log2_two_pow]
    have gap : gapBelow p ((low + 1) * 2 ^ j) = 2 ^ j := by
      have place : ((p + j : Nat) : Int) + 1 - p - 1 = j := by omega
      rw [gapBelow, lastPlace, log, if_pos power, place, zpow_natCast]
    have even : LastBitZero p ((low + 1) * 2 ^ j) ↔ Even (low + 1) := by
      have zero : LastBitZero p ((low + 1) * 2 ^ j) := by
        rw [LastBitZero, log, power]
        exact pow_dvd_pow 2 (by omega)
      have even : Even (low + 1) := by
        rw [carry, Nat.even_pow]
        exact ⟨even_two, by omega⟩
      exact ⟨fun _ => even, fun _ => zero⟩
    rw [Reaches, threshold gap, even]

end Unit

/-- The parts of a long number. -/
theorem long_parts (some_ : 0 < p) (long : 2 ^ p ≤ n) :
    2 ^ (p - 1) ≤ n / 2 ^ (n.log2 + 1 - p) ∧ n / 2 ^ (n.log2 + 1 - p) < 2 ^ p := by
  have positive := lt_of_lt_of_le (Nat.two_pow_pos p) long
  have log := log2_of_le long
  have unit := Nat.two_pow_pos (n.log2 + 1 - p)
  constructor
  · rw [Nat.le_div_iff_mul_le unit, ← pow_add]
    have exponent : p - 1 + (n.log2 + 1 - p) = n.log2 := by omega
    rw [exponent]
    exact Nat.log2_self_le positive.ne'
  · rw [Nat.div_lt_iff_lt_mul unit, ← pow_add]
    have exponent : p + (n.log2 + 1 - p) = n.log2 + 1 := by omega
    rw [exponent]
    exact Nat.lt_log2_self

/-- The next number is reached behind the number only. -/
theorem Fits.lt_of_reaches_next {t : Nat} {q : ℚ} (fits : Fits p t) (two : 2 ≤ p)
    (long : 2 ^ p ≤ t) (reached : Reaches p (Rounding.next p t) q) : (t : ℚ) < q := by
  have some_ : 0 < p := by omega
  rcases long_parts some_ long with ⟨low_le, low_lt⟩
  have positive := lt_of_lt_of_le (Nat.two_pow_pos p) long
  have split := Nat.div_mul_cancel (fits.dvd positive)
  have half : (0 : ℚ) < 2 ^ (t.log2 + 1 - p) / 2 := by positivity
  generalize t.log2 + 1 - p = j at *
  rw [← split, next_mul_unit low_le low_lt some_, reaches_next_iff low_le low_lt two] at reached
  rw [← split]
  push_cast
  rcases reached with above | ⟨same, -⟩ <;> linarith

/-- A long number, rounded. -/
theorem Rounds.eq_of_parts {low j rest : Nat} {r : ℚ}
    (rounds : Rounds p (low * 2 ^ j + rest : Nat) r) (two : 2 ≤ p)
    (low_le : 2 ^ (p - 1) ≤ low) (low_lt : low < 2 ^ p) (rest_lt : rest < 2 ^ j)
    (long : 2 ^ p ≤ low * 2 ^ j) :
    r = ((if 2 * rest < 2 ^ j then low * 2 ^ j
      else if 2 ^ j < 2 * rest then (low + 1) * 2 ^ j
      else if low % 2 = 0 then low * 2 ^ j
      else (low + 1) * 2 ^ j : Nat) : ℚ) := by
  have some_ : 0 < p := by omega
  have fits : Fits p (low * 2 ^ j) := .of_le some_ low_lt.le j
  have fits' : Fits p ((low + 1) * 2 ^ j) := .of_le some_ low_lt j
  have next_eq := next_mul_unit (j := j) low_le low_lt some_
  have reached : Reaches p (low * 2 ^ j) (low * 2 ^ j + rest : Nat) :=
    .of_le (by exact_mod_cast Nat.le_add_right _ _)
  have r_long : (2 : ℚ) ^ p ≤ r := by
    have positive := lt_of_lt_of_le (Nat.two_pow_pos p) long
    calc (2 : ℚ) ^ p ≤ (low * 2 ^ j : Nat) := by exact_mod_cast long
      _ ≤ r := (rounds.reaches _ positive fits).mpr reached
  rcases rounds.whole r_long with ⟨n', -, rfl⟩
  -- Whether the rest is more than half decides.
  have down (notReached : ¬ Reaches p ((low + 1) * 2 ^ j) (low * 2 ^ j + rest : Nat)) :
      n' = low * 2 ^ j := by
    have floor := (rounds.floor_eq_iff some_).mpr
      ⟨fits, .inr reached, by rwa [next_eq]⟩
    rw [Int.floor_natCast] at floor
    exact_mod_cast floor
  have up (reached : Reaches p ((low + 1) * 2 ^ j) (low * 2 ^ j + rest : Nat)) :
      n' = (low + 1) * 2 ^ j := by
    have long' : 2 ^ p ≤ (low + 1) * 2 ^ j :=
      long.trans (Nat.mul_le_mul_right _ (Nat.le_succ low))
    have floor := (rounds.floor_eq_iff some_).mpr ⟨fits', .inr reached, by
      intro beyond
      have less := fits'.lt_of_reaches_next two long' beyond
      have less' : (low + 1) * 2 ^ j < low * 2 ^ j + rest := by exact_mod_cast less
      rw [Nat.add_mul] at less'
      omega⟩
    rw [Int.floor_natCast] at floor
    exact_mod_cast floor
  have half_iff : Reaches p ((low + 1) * 2 ^ j) (low * 2 ^ j + rest : Nat) ↔
      2 ^ j < 2 * rest ∨ (2 ^ j = 2 * rest ∧ Even (low + 1)) := by
    rw [reaches_next_iff low_le low_lt two]
    push_cast
    rw [add_lt_add_iff_left, add_right_inj, div_lt_iff₀ two_pos, div_eq_iff two_ne_zero,
      mul_comm (rest : ℚ)]
    norm_cast
  rw [half_iff] at down up
  by_cases below : 2 * rest < 2 ^ j
  · rw [if_pos below, down (by omega)]
  · rw [if_neg below]
    by_cases above : 2 ^ j < 2 * rest
    · rw [if_pos above, up (.inl above)]
    · rw [if_neg above]
      have tie : 2 ^ j = 2 * rest := by omega
      by_cases even : low % 2 = 0
      · have odd : ¬ Even (low + 1) := by
          rw [Nat.even_iff]
          omega
        rw [if_pos even, down (by tauto)]
      · have even' : Even (low + 1) := by
          rw [Nat.even_iff]
          omega
        rw [if_neg even, up (.inr ⟨tie, even'⟩)]

/-- Rounding an integer gives the nearest one that fits. -/
theorem Rounds.eq_nearest {r : ℚ} (rounds : Rounds p n r) (two : 2 ≤ p) :
    r = nearest p n := by
  have some_ : 0 < p := by omega
  by_cases short : n < 2 ^ p
  · rw [nearest_of_lt some_ short]
    exact rounds.exact_ n (.of_lt short) rfl
  · have long := not_lt.mp short
    rcases long_parts some_ long with ⟨low_le, low_lt⟩
    have log := log2_of_le long
    have split := Nat.div_add_mod' n (2 ^ (n.log2 + 1 - p))
    have low_long : 2 ^ p ≤ n / 2 ^ (n.log2 + 1 - p) * 2 ^ (n.log2 + 1 - p) := by
      calc 2 ^ p ≤ 2 ^ n.log2 := Nat.pow_le_pow_right (by decide) log
        _ = 2 ^ (p - 1) * 2 ^ (n.log2 + 1 - p) := by
          rw [← pow_add]
          congr 1
          omega
        _ ≤ _ := Nat.mul_le_mul_right _ low_le
    rw [← split] at rounds
    exact rounds.eq_of_parts two low_le low_lt (Nat.mod_lt _ (Nat.two_pow_pos _)) low_long

/-- A rounded integer fits. -/
theorem fits_nearest (some_ : 0 < p) : Fits p (nearest p n) := by
  by_cases short : n < 2 ^ p
  · rw [nearest_of_lt some_ short]
    exact .of_lt short
  · rcases long_parts some_ (not_lt.mp short) with ⟨-, low_lt⟩
    have down := Fits.of_le some_ low_lt.le (n.log2 + 1 - p)
    have up := Fits.of_le some_ low_lt (n.log2 + 1 - p)
    unfold nearest
    dsimp only
    split
    · exact down
    · split
      · exact up
      · split
        · exact down
        · exact up

theorem Fits.nearest_eq (fits : Fits p n) : nearest p n = n := by
  rcases Nat.eq_zero_or_pos n with rfl | positive
  · unfold nearest
    simp
  · have exact_ := Nat.mod_eq_zero_of_dvd (fits.dvd positive)
    unfold nearest
    dsimp only
    rw [exact_, Nat.mul_zero, if_pos (Nat.two_pow_pos _), Nat.div_mul_cancel (fits.dvd positive)]

theorem nearest_between : n / 2 ^ (n.log2 + 1 - p) * 2 ^ (n.log2 + 1 - p) ≤ nearest p n ∧
    nearest p n ≤ (n / 2 ^ (n.log2 + 1 - p) + 1) * 2 ^ (n.log2 + 1 - p) := by
  have less := Nat.mul_le_mul_right (2 ^ (n.log2 + 1 - p))
    (Nat.le_succ (n / 2 ^ (n.log2 + 1 - p)))
  unfold nearest
  dsimp only
  split
  · exact ⟨le_rfl, less⟩
  · split
    · exact ⟨less, le_rfl⟩
    · split
      · exact ⟨le_rfl, less⟩
      · exact ⟨less, le_rfl⟩

/-- Rounding does not go beyond a power of two. -/
theorem nearest_le {k : Nat} (some_ : 0 < p) (bound : n ≤ 2 ^ k) : nearest p n ≤ 2 ^ k := by
  rcases Nat.lt_or_eq_of_le bound with below | rfl
  · by_cases short : n < 2 ^ p
    · rw [nearest_of_lt some_ short]
      exact bound
    · have long := not_lt.mp short
      have positive := lt_of_lt_of_le (Nat.two_pow_pos p) long
      have log := log2_of_le long
      have log' : n.log2 < k := (Nat.log2_lt positive.ne').mpr below
      rcases long_parts some_ long with ⟨-, low_lt⟩
      calc nearest p n ≤ (n / 2 ^ (n.log2 + 1 - p) + 1) * 2 ^ (n.log2 + 1 - p) :=
            nearest_between.2
        _ ≤ 2 ^ p * 2 ^ (n.log2 + 1 - p) := Nat.mul_le_mul_right _ low_lt
        _ = 2 ^ (n.log2 + 1) := by
          rw [← pow_add]
          congr 1
          omega
        _ ≤ 2 ^ k := Nat.pow_le_pow_right (by decide) log'
  · have fits : Fits p (2 ^ k) := by
      have fits' := Fits.of_le some_ (Nat.one_le_two_pow (n := p)) k
      rwa [one_mul] at fits'
    rw [fits.nearest_eq]

theorem nearest_pos (some_ : 0 < p) (positive : 0 < n) : 0 < nearest p n := by
  by_cases short : n < 2 ^ p
  · rw [nearest_of_lt some_ short]
    exact positive
  · rcases long_parts some_ (not_lt.mp short) with ⟨low_le, -⟩
    have low_pos := lt_of_lt_of_le (Nat.two_pow_pos _) low_le
    exact lt_of_lt_of_le (Nat.mul_pos low_pos (Nat.two_pow_pos _)) nearest_between.1

end Nearest

end Kjdmud.Rounding
