import Mathlib.Algebra.Order.Field.Power
import Mathlib.Data.Int.Log
import Mathlib.Data.Rat.Floor
import Mathlib.Tactic.FieldSimp
import Mathlib.Tactic.Linarith
import Mathlib.Tactic.NormNum
import Mathlib.Tactic.Positivity
import Mathlib.Tactic.Ring
import Stencil.Binary64.Rounding

/-!
# Numbers of the double format as rationals

The exact value of a finite number (`Binary64.toRat`), and rounding in terms of exact values: a
ratio is rounded to a natural number within a half of it (`abs_roundHalfEven_sub_le`,
`roundHalfUp_bounds`), and its last place is found by its logarithm (`Binary64.lastPlace_eq`).
-/

namespace Stencil

section Ratio

variable {num den base : Nat}

/-- Among whole numbers, one within a half of a rational is nearest to it. -/
theorem abs_sub_le_of_half {whole : Int} {q : ℚ} (near : |(whole : ℚ) - q| ≤ 1 / 2)
    (other : Int) : |(whole : ℚ) - q| ≤ |(other : ℚ) - q| := by
  by_cases same : other = whole
  · rw [same]
  · have apart : (1 : ℚ) ≤ |(other : ℚ) - whole| := by
      exact_mod_cast Int.one_le_abs (sub_ne_zero.mpr same)
    have through : |(other : ℚ) - whole| ≤ |(other : ℚ) - q| + |(whole : ℚ) - q| := by
      rw [abs_sub_comm (whole : ℚ) q]
      exact abs_sub_le _ _ _
    linarith

/-- A natural number within a half of a ratio. -/
theorem abs_sub_div_le (positive : 0 < den) {rounded : Nat}
    (low : 2 * num ≤ 2 * (rounded * den) + den) (high : 2 * (rounded * den) ≤ 2 * num + den) :
    |(rounded : ℚ) - num / den| ≤ 1 / 2 := by
  have size : (0 : ℚ) < den := by exact_mod_cast positive
  have lower : 2 * (num : ℚ) ≤ 2 * (rounded * den) + den := by exact_mod_cast low
  have upper : 2 * ((rounded : ℚ) * den) ≤ 2 * num + den := by exact_mod_cast high
  have split : (rounded : ℚ) - num / den = (rounded * den - num) / den := by field_simp
  rw [split, abs_le, le_div_iff₀ size, div_le_iff₀ size]
  constructor <;> linarith

/-- Rounding with ties to even stays within a half of the ratio. -/
theorem abs_roundHalfEven_sub_le (positive : 0 < den) :
    |(roundHalfEven num den : ℚ) - num / den| ≤ 1 / 2 := by
  have parts : num / den * den + num % den = num := Nat.div_add_mod' num den
  have small : num % den < den := Nat.mod_lt num positive
  have next : (num / den + 1) * den = num / den * den + den := Nat.succ_mul _ _
  apply abs_sub_div_le positive
  all_goals
    rw [roundHalfEven]
    split <;> omega

/-- Rounding with ties upwards stays within a half of the ratio, and below it by less than that. -/
theorem roundHalfUp_bounds (num : Nat) (positive : 0 < den) :
    (num / den : ℚ) - 1 / 2 < roundHalfUp num den ∧
      (roundHalfUp num den : ℚ) ≤ num / den + 1 / 2 := by
  have size : (0 : ℚ) < den := by exact_mod_cast positive
  have parts : roundHalfUp num den * (2 * den) + (2 * num + den) % (2 * den) = 2 * num + den :=
    Nat.div_add_mod' _ _
  have small : (2 * num + den) % (2 * den) < 2 * den := Nat.mod_lt _ (by omega)
  have lower : 2 * num + den < roundHalfUp num den * (2 * den) + 2 * den := by omega
  have upper : roundHalfUp num den * (2 * den) ≤ 2 * num + den := by omega
  have low : 2 * (num : ℚ) + den < roundHalfUp num den * (2 * den) + 2 * den := by
    exact_mod_cast lower
  have high : (roundHalfUp num den : ℚ) * (2 * den) ≤ 2 * num + den := by exact_mod_cast upper
  constructor
  · rw [sub_lt_iff_lt_add, div_lt_iff₀ size]
    linarith
  · rw [← sub_le_iff_le_add, le_div_iff₀ size]
    linarith

/-- The natural power by an exponent that is not negative is the power by that exponent. -/
theorem cast_pow_toNat (base : Nat) {exponent : Int} (nonneg : 0 ≤ exponent) :
    ((Nat.pow base exponent.toNat : Nat) : ℚ) = (base : ℚ) ^ exponent := by
  rw [Nat.pow_eq, Nat.cast_pow, ← zpow_natCast, Int.toNat_of_nonneg nonneg]

/-- A ratio that is scaled down is divided by the power. -/
theorem scaleDown_div (num den : Nat) (positive : 0 < base) (exponent : Int) :
    ((scaleDown base exponent num den).1 : ℚ) / (scaleDown base exponent num den).2 =
      num / den / (base : ℚ) ^ exponent := by
  have power : (base : ℚ) ≠ 0 := by exact_mod_cast positive.ne'
  rw [scaleDown, Nat.cast_mul, Nat.cast_mul]
  rcases le_or_gt 0 exponent with nonneg | negative
  · rw [cast_pow_toNat base nonneg, Int.toNat_of_nonpos (neg_nonpos.mpr nonneg)]
    change (num : ℚ) * ((1 : Nat) : ℚ) / _ = _
    rw [Nat.cast_one, mul_one, div_div]
  · rw [cast_pow_toNat base (neg_nonneg.mpr negative.le), Int.toNat_of_nonpos negative.le]
    change _ / ((den : ℚ) * ((1 : Nat) : ℚ)) = _
    rw [Nat.cast_one, mul_one, zpow_neg, ← div_eq_mul_inv, div_right_comm]

theorem scaleDown_pos (num : Nat) (positive : 0 < base) (divisor : 0 < den) (exponent : Int) :
    0 < (scaleDown base exponent num den).2 :=
  Nat.mul_pos divisor (Nat.pow_pos positive)

/-- The exponent that is settled is the logarithm of the ratio. -/
theorem settleExponent_eq {guess : Int} (two : 1 < base) (numerator : 0 < num)
    (divisor : 0 < den) (low : (base : ℚ) ^ (guess - 1) ≤ num / den)
    (high : (num : ℚ) / den < (base : ℚ) ^ (guess + 1)) :
    settleExponent base guess num den = Int.log base ((num : ℚ) / den) := by
  have ratio : (0 : ℚ) < num / den := by positivity
  have power : (0 : ℚ) < (base : ℚ) ^ guess := zpow_pos (by exact_mod_cast two.le) guess
  have scaled : (0 : ℚ) < (scaleDown base guess num den).2 := by
    exact_mod_cast scaleDown_pos num (by omega) divisor guess
  have below : (scaleDown base guess num den).1 < (scaleDown base guess num den).2 ↔
      (num : ℚ) / den < (base : ℚ) ^ guess := by
    rw [← Nat.cast_lt (α := ℚ), ← div_lt_one scaled, scaleDown_div num den (by omega),
      div_lt_one power]
  have above := (Int.zpow_le_iff_le_log two ratio).mp low
  have under := (Int.lt_zpow_iff_log_lt two ratio).mp high
  rw [settleExponent]
  dsimp only
  split_ifs with less
  · have bound := (Int.lt_zpow_iff_log_lt two ratio).mp (below.mp less)
    omega
  · have bound := (Int.zpow_le_iff_le_log two ratio).mp (not_lt.mp (mt below.mpr less))
    omega

end Ratio

namespace Binary64

section LastPlace

variable {num den : Nat} (numerator : 0 < num) (divisor : 0 < den)
include numerator divisor

/-- The last place of a ratio is the fifty-third binary one from the front, unless the format ends
before it. -/
theorem lastPlace_eq :
    lastPlace num den = max (Int.log 2 ((num : ℚ) / den) - 52) (-1074) := by
  have size : (0 : ℚ) < den := by exact_mod_cast divisor
  have bounds {n : Nat} (positive : 0 < n) :
      (2 : ℚ) ^ (n.log2 : Int) ≤ n ∧ (n : ℚ) < (2 : ℚ) ^ ((n.log2 : Int) + 1) := by
    rw [zpow_natCast, show ((n.log2 : Int) + 1) = ((n.log2 + 1 : Nat) : Int) from rfl, zpow_natCast]
    exact ⟨by exact_mod_cast Nat.log2_self_le positive.ne', by exact_mod_cast Nat.lt_log2_self⟩
  have two : (2 : ℚ) ≠ 0 := by norm_num
  have low : ((2 : Nat) : ℚ) ^ ((num.log2 : Int) - den.log2 - 1) ≤ num / den := by
    rw [Nat.cast_two, le_div_iff₀ size]
    calc
      (2 : ℚ) ^ ((num.log2 : Int) - den.log2 - 1) * den
        ≤ (2 : ℚ) ^ ((num.log2 : Int) - den.log2 - 1) * (2 : ℚ) ^ ((den.log2 : Int) + 1) := by
          gcongr
          exact (bounds divisor).2.le
      _ = (2 : ℚ) ^ (num.log2 : Int) := by
          rw [← zpow_add₀ two]
          congr 1
          ring
      _ ≤ num := (bounds numerator).1
  have high : (num : ℚ) / den < ((2 : Nat) : ℚ) ^ ((num.log2 : Int) - den.log2 + 1) := by
    rw [Nat.cast_two, div_lt_iff₀ size]
    calc
      (num : ℚ) < (2 : ℚ) ^ ((num.log2 : Int) + 1) := (bounds numerator).2
      _ = (2 : ℚ) ^ ((num.log2 : Int) - den.log2 + 1) * (2 : ℚ) ^ (den.log2 : Int) := by
          rw [← zpow_add₀ two]
          congr 1
          ring
      _ ≤ (2 : ℚ) ^ ((num.log2 : Int) - den.log2 + 1) * den := by
          gcongr
          exact (bounds divisor).1
  rw [lastPlace, settleExponent_eq (by decide) numerator divisor low high]

/-- A ratio is less than the fifty-fourth power of two from its last place on. -/
theorem lt_zpow_lastPlace : (num : ℚ) / den < 2 ^ (53 + lastPlace num den) := by
  have ratio : (0 : ℚ) < num / den := by positivity
  have place := lastPlace_eq numerator divisor
  exact (Int.lt_zpow_iff_log_lt (b := 2) (by decide) ratio).mpr (by omega)

/-- A ratio reaches fifty-three binary places from its last place on, unless that is the last one of
the format. -/
theorem zpow_lastPlace_le (inner : -1074 < lastPlace num den) :
    (2 : ℚ) ^ (52 + lastPlace num den) ≤ num / den := by
  have ratio : (0 : ℚ) < num / den := by positivity
  have place := lastPlace_eq numerator divisor
  exact (Int.zpow_le_iff_le_log (b := 2) (by decide) ratio).mpr (by omega)

/-- A ratio below a power of two has its last place fifty-three places below it, if the format
reaches so far. -/
theorem lastPlace_le {place : Int} (least : -1074 ≤ place)
    (small : (num : ℚ) / den < 2 ^ (53 + place)) : lastPlace num den ≤ place := by
  have ratio : (0 : ℚ) < num / den := by positivity
  have log := (Int.lt_zpow_iff_log_lt (b := 2) (by decide) ratio).mp small
  have found := lastPlace_eq numerator divisor
  omega

end LastPlace

/-- A rational with a sign in front. -/
def signed (negative : Bool) (q : ℚ) : ℚ :=
  if negative then -q else q

/-- A sign does not change the size of a number. -/
theorem abs_signed (negative : Bool) (q : ℚ) : |signed negative q| = |q| := by
  cases negative
  · rfl
  · exact abs_neg q

/-- Two numbers of one sign are as far apart as their sizes. -/
theorem abs_signed_sub_signed (negative : Bool) (q r : ℚ) :
    |signed negative q - signed negative r| = |q - r| := by
  cases negative
  · rfl
  · change |-q - -r| = _
    rw [neg_sub_neg, abs_sub_comm]

/-- An integer is its size with its sign. -/
theorem signed_natAbs (n : Int) : signed (decide (n < 0)) n.natAbs = n := by
  by_cases negative : n < 0
  · rw [decide_eq_true negative, signed, if_pos rfl, Nat.cast_natAbs, abs_of_neg negative]
    simp
  · rw [decide_eq_false negative, signed, if_neg Bool.false_ne_true, Nat.cast_natAbs,
      abs_of_nonneg (not_lt.mp negative)]

/-- The exact value of a finite number, and zero for the others. -/
def toRat (x : Binary64) : ℚ :=
  x.units / unitsPerOne

/-- The natural power of two is the rational one. -/
theorem cast_pow_two (places : Nat) : ((Nat.pow 2 places : Nat) : ℚ) = 2 ^ (places : Int) := by
  rw [Nat.pow_eq, Nat.cast_pow, Nat.cast_two, zpow_natCast]

/-- There are two to the 1074 units in one. -/
theorem cast_unitsPerOne : (unitsPerOne : ℚ) = 2 ^ (1074 : Int) := by
  unfold unitsPerOne
  simp only [cast_pow_two]
  rfl

theorem unitsPerOne_pos : (0 : ℚ) < unitsPerOne := by
  rw [cast_unitsPerOne]
  exact zpow_pos (by norm_num) _

section Value

variable {x : Binary64}

/-- The value of a number is its magnitude in units with its sign. -/
theorem toRat_eq (x : Binary64) :
    x.toRat = signed x.isNegative ((x.magnitude : ℚ) / unitsPerOne) := by
  rw [toRat, units, signed]
  split_ifs
  · rw [Int.cast_neg, Int.cast_natCast, neg_div]
  · rw [Int.cast_natCast]

/-- The value of a finite number is its mantissa times its power of two, with its sign. -/
theorem toRat_finite (negative : Bool) (mantissa : Nat) (exponent : Int)
    (canonical : Canonical mantissa exponent) :
    (finite negative mantissa exponent canonical).toRat =
      signed negative (mantissa * 2 ^ exponent) := by
  have two : (2 : ℚ) ≠ 0 := by norm_num
  have least : 0 ≤ exponent + 1074 := by
    have bound := canonical.2.1
    omega
  rw [toRat_eq, magnitude, cast_unitsPerOne, Nat.cast_mul, cast_pow_toNat 2 least, Nat.cast_two,
    zpow_add₀ two, ← mul_assoc, mul_div_cancel_right₀ _ (zpow_ne_zero _ two)]
  rfl

/-- The size of a value is its magnitude in units. -/
theorem abs_toRat (x : Binary64) : |x.toRat| = (x.magnitude : ℚ) / unitsPerOne := by
  rw [toRat_eq, abs_signed, abs_of_nonneg (by positivity)]

/-- A magnitude is below that of a natural number if and only if the size of the value is. -/
theorem magnitude_lt_iff (bound : Nat) :
    x.magnitude < bound * unitsPerOne ↔ |x.toRat| < bound := by
  rw [abs_toRat, div_lt_iff₀ unitsPerOne_pos, ← Nat.cast_mul, Nat.cast_lt]

/-- A value is an integer if and only if its units are those of the integer. -/
theorem toRat_eq_intCast_iff (n : Int) : x.toRat = n ↔ x.units = n * unitsPerOne := by
  rw [toRat, div_eq_iff unitsPerOne_pos.ne', ← Int.cast_natCast unitsPerOne, ← Int.cast_mul,
    Int.cast_inj]

/-- A number is the same as an integer if and only if it is finite and has its value. -/
theorem sameInteger_iff (n : Int) :
    x.sameInteger n = true ↔ x.isFinite = true ∧ x.toRat = n := by
  rw [sameInteger, Bool.and_eq_true, beq_iff_eq, toRat_eq_intCast_iff]

/-- A finite number with the value of an integer is whole. -/
theorem isWhole_of_toRat {n : Int} (finite : x.isFinite = true) (whole : x.toRat = n) :
    x.isWhole = true := by
  have units := (toRat_eq_intCast_iff n).mp whole
  have divides : (unitsPerOne : Int) ∣ x.magnitude := by
    have given : (unitsPerOne : Int) ∣ x.units := ⟨n, by rw [units, Int.mul_comm]⟩
    rw [Binary64.units] at given
    split at given
    · exact (Int.dvd_neg).mp given
    · exact given
  rw [isWhole, finite, Bool.true_and, beq_iff_eq]
  exact Nat.mod_eq_zero_of_dvd (Int.natCast_dvd_natCast.mp divides)

/-- A whole number has the value of its integer part. -/
theorem toRat_of_isWhole (whole : x.isWhole = true) : x.toRat = x.truncate := by
  rw [isWhole, Bool.and_eq_true, beq_iff_eq] at whole
  have divides : (unitsPerOne : Int) ∣ x.units := by
    have size := Int.natCast_dvd_natCast.mpr (Nat.dvd_of_mod_eq_zero whole.2)
    rw [units]
    split
    · exact Int.dvd_neg.mpr size
    · exact size
  rw [toRat_eq_intCast_iff, truncate, Int.tdiv_mul_cancel divides]

/-- The integer part of an integer value is that integer. -/
theorem truncate_of_toRat {n : Int} (whole : x.toRat = n) : x.truncate = n := by
  have one : (unitsPerOne : Int) ≠ 0 :=
    Int.natCast_ne_zero.mpr (Nat.cast_ne_zero.mp unitsPerOne_pos.ne')
  rw [truncate, (toRat_eq_intCast_iff n).mp whole, Int.mul_tdiv_cancel _ one]

end Value

end Binary64
end Stencil
