import Stencil.Proofs.Binary64.Nearest

/-!
# Integers in the double format

The format holds the integers of at most fifty-three bits with zeros behind them
(`Binary64.holdsInteger_iff`). An integer is rounded to a nearest number of the format, which is a
whole one (`Binary64.exists_toRat_ofInteger`) and is the integer itself if the format holds it
(`Binary64.toRat_ofInteger`).
-/

namespace Stencil.Binary64

/-- An integer of at most fifty-three bits with zeros behind them, within the range of the format.
-/
def HoldsInteger (n : Int) : Prop :=
  ∃ mantissa exponent : Nat, mantissa < Nat.pow 2 53 ∧ exponent ≤ 971 ∧
    n.natAbs = mantissa * Nat.pow 2 exponent

/-- An integer rounded to the format. -/
def ofInteger (n : Int) : Binary64 :=
  ofRatio (n < 0) n.natAbs 1

section Holds

variable {n : Int}

/-- The format holds every integer below two to the fifty-third. -/
theorem holdsInteger_of_lt (small : n.natAbs < Nat.pow 2 53) : HoldsInteger n :=
  ⟨n.natAbs, 0, small, by decide, (Nat.mul_one _).symm⟩

/-- A whole number of the format is an integer that it holds. -/
theorem holdsInteger_of_toRat {x : Binary64} (finite : x.isFinite = true) (same : x.toRat = n) :
    HoldsInteger n := by
  match x, finite with
  | .finite negative mantissa exponent canonical, _ =>
    have size : (n.natAbs : ℚ) = mantissa * 2 ^ exponent := by
      have magnitude := congrArg (fun q : ℚ => |q|) same
      rw [toRat_finite, abs_signed, abs_of_nonneg (by positivity)] at magnitude
      rw [magnitude, Nat.cast_natAbs, Int.cast_abs]
    rcases le_or_gt 0 exponent with whole | fraction
    · refine ⟨mantissa, exponent.toNat, canonical.1, by have reach := canonical.2.2.1; omega, ?_⟩
      rw [← Nat.cast_inj (R := ℚ), size, Nat.cast_mul, cast_pow_toNat 2 whole, Nat.cast_two]
    · -- with places behind the point, the integer is no longer than the mantissa
      apply holdsInteger_of_lt
      have shrunk : (n.natAbs : ℚ) ≤ mantissa := by
        rw [size]
        exact mul_le_of_le_one_right (by positivity)
          (zpow_le_one_of_nonpos₀ (by norm_num) fraction.le)
      exact lt_of_le_of_lt (by exact_mod_cast shrunk) canonical.1

end Holds

section OfInteger

variable {n : Int}

/-- The number an integer is turned into is nearest to it, unless it is an infinity. -/
theorem isNearest_ofInteger (finite : (ofInteger n).isFinite = true) :
    IsNearest (ofInteger n) n := by
  have nearest := isNearest_ofRatio _ Nat.one_pos finite
  rwa [Nat.cast_one, div_one, signed_natAbs] at nearest

/-- An integer that the format holds is rounded to itself. -/
theorem toRat_ofInteger (holds : HoldsInteger n) :
    (ofInteger n).isFinite = true ∧ (ofInteger n).toRat = n := by
  obtain ⟨mantissa, exponent, bits, reach, size⟩ := holds
  have same : ((n.natAbs : Nat) : ℚ) / (1 : Nat) = mantissa * 2 ^ (exponent : Int) := by
    rw [Nat.cast_one, div_one, size, Nat.cast_mul, cast_pow_two]
  have kept := ofRatio_of_eq (decide (n < 0)) Nat.one_pos bits (by omega) (by omega) same
  rwa [Nat.cast_one, div_one, signed_natAbs] at kept

/-- The format holds an integer if and only if some finite number of the format has its value. -/
theorem holdsInteger_iff : HoldsInteger n ↔ ∃ x : Binary64, x.isFinite = true ∧ x.toRat = n :=
  ⟨fun holds => ⟨ofInteger n, toRat_ofInteger holds⟩,
    fun ⟨_, isFinite, same⟩ => holdsInteger_of_toRat isFinite same⟩

/-- An integer of at most 1023 binary places is turned into a finite number. -/
theorem isFinite_ofInteger {places : Nat} (small : n.natAbs < Nat.pow 2 places)
    (reach : places ≤ 1023) : (ofInteger n).isFinite = true := by
  apply isFinite_ofRatio _ Nat.one_pos
  rw [Nat.cast_one, div_one]
  calc
    ((n.natAbs : Nat) : ℚ) < (Nat.pow 2 places : Nat) := Nat.cast_lt.mpr small
    _ = 2 ^ (places : Int) := cast_pow_two places
    _ ≤ 2 ^ (1023 : Int) := zpow_le_zpow_right₀ (by norm_num) (by omega)

/-- An integer of at most 300 decimal digits is turned into a finite number. -/
theorem isFinite_ofInteger_of_digits {digits : Nat} (few : n.natAbs < Nat.pow 10 digits)
    (reach : digits ≤ 300) : (ofInteger n).isFinite = true := by
  have wide : Nat.pow 10 digits ≤ Nat.pow 2 (10 * ((digits + 2) / 3)) := by
    calc
      Nat.pow 10 digits ≤ Nat.pow 10 (3 * ((digits + 2) / 3)) :=
        Nat.pow_le_pow_right (by decide) (by omega)
      _ = Nat.pow (Nat.pow 10 3) ((digits + 2) / 3) := Nat.pow_mul 10 3 _
      _ ≤ Nat.pow (Nat.pow 2 10) ((digits + 2) / 3) := Nat.pow_le_pow_left (by decide) _
      _ = Nat.pow 2 (10 * ((digits + 2) / 3)) := (Nat.pow_mul 2 10 _).symm
  exact isFinite_ofInteger (few.trans_le wide) (by omega)

/-- An integer is rounded to a whole number. -/
theorem exists_toRat_ofInteger (finite : (ofInteger n).isFinite = true) :
    ∃ whole : Int, (ofInteger n).toRat = whole := by
  by_cases small : n.natAbs < Nat.pow 2 53
  · exact ⟨n, (toRat_ofInteger (holdsInteger_of_lt small)).2⟩
  · have numerator : 0 < n.natAbs := lt_of_lt_of_le (by decide) (not_lt.mp small)
    have whole : 0 ≤ lastPlace n.natAbs 1 := by
      have large : (2 : ℚ) ^ (53 : Int) ≤ n.natAbs := by exact_mod_cast not_lt.mp small
      have less := lt_zpow_lastPlace numerator Nat.one_pos
      rw [Nat.cast_one, div_one] at less
      have ordered := (zpow_lt_zpow_iff_right₀ (by norm_num : (1 : ℚ) < 2)).mp (large.trans_lt less)
      omega
    obtain ⟨places, same⟩ := Int.eq_ofNat_of_zero_le whole
    refine ⟨if n < 0 then -(ratioMantissa n.natAbs 1 * 2 ^ places : Int)
      else ratioMantissa n.natAbs 1 * 2 ^ places, ?_⟩
    rw [ofInteger, toRat_ofRatio numerator Nat.one_pos finite, ratioNearest, same, zpow_natCast,
      signed]
    simp only [decide_eq_true_eq]
    split_ifs <;> push_cast <;> rfl

/-- The number of an integer that the format holds is cut back to that integer. -/
theorem truncate_ofInteger (holds : HoldsInteger n) : (ofInteger n).truncate = n :=
  truncate_of_toRat (toRat_ofInteger holds).2

/-- Rounding does not pass an integer that the format holds upwards. -/
theorem truncate_ofInteger_le {bound : Int} (holds : HoldsInteger bound)
    (finite : (ofInteger n).isFinite = true) (below : n ≤ bound) :
    (ofInteger n).truncate ≤ bound := by
  obtain ⟨whole, same⟩ := exists_toRat_ofInteger finite
  obtain ⟨boundFinite, itself⟩ := toRat_ofInteger holds
  have ordered := (isNearest_ofInteger finite).le_of_le boundFinite
    (by rw [itself]; exact_mod_cast below)
  rw [same, itself] at ordered
  rw [truncate_of_toRat same]
  exact_mod_cast ordered

/-- Rounding does not pass an integer that the format holds downwards. -/
theorem le_truncate_ofInteger {bound : Int} (holds : HoldsInteger bound)
    (finite : (ofInteger n).isFinite = true) (above : bound ≤ n) :
    bound ≤ (ofInteger n).truncate := by
  obtain ⟨whole, same⟩ := exists_toRat_ofInteger finite
  obtain ⟨boundFinite, itself⟩ := toRat_ofInteger holds
  have ordered := (isNearest_ofInteger finite).ge_of_ge boundFinite
    (by rw [itself]; exact_mod_cast above)
  rw [same, itself] at ordered
  rw [truncate_of_toRat same]
  exact_mod_cast ordered

end OfInteger

section OfInt

variable {n : Int} {x : Binary64}

/-- An integer has a number of its own if and only if the nearest one is finite, and it is that one.
-/
theorem ofInt?_eq_some_iff : ofInt? n = some x ↔ x.isFinite = true ∧ ofInteger n = x := by
  have found : ofInt? n = if (ofInteger n).isFinite then some (ofInteger n) else none := rfl
  rw [found]
  split_ifs with finite
  · rw [Option.some_inj]
    exact ⟨fun same => ⟨same ▸ finite, same⟩, And.right⟩
  · exact iff_of_false nofun fun both => finite (both.2 ▸ both.1)

end OfInt

end Stencil.Binary64
