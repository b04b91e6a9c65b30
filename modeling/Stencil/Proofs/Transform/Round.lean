import Stencil.Proofs.Template.Integer
import Stencil.Transform.Builtin

/-!
# Rounding to decimal places

The step that rounds takes a number to the multiple of a power of ten that is nearest to its exact
value, away from zero where two are as near (`IsRounded`), and that to a nearest number of the
format. The working precision suffices for every number below the rounding limit. A number of
places out of range is refused, whatever the value. The main statement is `Builtin.round_exact`.
-/

namespace Stencil

open Text

/-- A multiple of `10 ^ -places` that is nearest to a rational, away from zero if another one is as
near. -/
structure IsRounded (q : ℚ) (places : Nat) (d : ℚ) : Prop where
  multiple : ∃ m : Int, d = m / 10 ^ places
  near : |d - q| ≤ 1 / 10 ^ places / 2
  away : |d - q| = 1 / 10 ^ places / 2 → |q| < |d|

namespace IsRounded

variable {q d e : ℚ} {places : Nat}

/-- The multiple itself, as a whole number next to the scaled rational. -/
theorem scaled (rounded : IsRounded q places d) : ∃ m : Int, d = m / 10 ^ places ∧
    |(m : ℚ) - q * 10 ^ places| ≤ 1 / 2 ∧
    (|(m : ℚ) - q * 10 ^ places| = 1 / 2 → |q * 10 ^ places| < |(m : ℚ)|) := by
  obtain ⟨⟨m, rfl⟩, near, away⟩ := rounded
  have power : (0 : ℚ) < 10 ^ places := by positivity
  have distance : |m / 10 ^ places - q| = |(m : ℚ) - q * 10 ^ places| / 10 ^ places := by
    rw [← abs_of_pos power, ← abs_div, abs_of_pos power, sub_div, mul_div_cancel_right₀ _ power.ne']
  rw [distance, div_right_comm, div_le_div_iff_of_pos_right power] at near
  rw [distance, div_right_comm, div_left_inj' power.ne', abs_div, abs_of_pos power,
    lt_div_iff₀ power] at away
  refine ⟨m, rfl, near, fun tie => ?_⟩
  rw [abs_mul, abs_of_pos power]
  exact away tie

/-- Of two whole numbers next to each other, the half between them is rounded to one only. -/
theorem not_away_both (m : Int) : ¬(|(m : ℚ) + 1 / 2| < |(m : ℚ)| ∧
    |(m : ℚ) + 1 / 2| < |(m : ℚ) + 1|) := by
  rintro ⟨below, above⟩
  rcases le_or_gt 0 m with nonneg | negative
  · have size : (0 : ℚ) ≤ m := by exact_mod_cast nonneg
    rw [abs_of_nonneg (by linarith), abs_of_nonneg size] at below
    linarith
  · have size : (m : ℚ) ≤ -1 := by exact_mod_cast Int.le_sub_one_of_lt negative
    rw [abs_of_neg (by linarith), abs_of_nonpos (by linarith)] at above
    linarith

/-- Of two integers nearest to a number, neither is smaller: at a tie both lie away from zero. -/
theorem not_lt_of_near {m n : Int} {a : ℚ} (near : |(m : ℚ) - a| ≤ 1 / 2)
    (away : |(m : ℚ) - a| = 1 / 2 → |a| < |(m : ℚ)|) (otherNear : |(n : ℚ) - a| ≤ 1 / 2)
    (otherAway : |(n : ℚ) - a| = 1 / 2 → |a| < |(n : ℚ)|) : ¬m < n := by
  intro less
  have apart : (m : ℚ) + 1 ≤ n := by exact_mod_cast less
  have low := (abs_le.mp near).1
  have high := (abs_le.mp otherNear).2
  -- two whole numbers within a half of one number are its two neighbours
  have half : a = m + 1 / 2 := by linarith
  have next : (n : ℚ) = m + 1 := by linarith
  rw [half, next] at otherAway
  rw [half] at away
  refine not_away_both m ⟨away ?_, otherAway ?_⟩
  · rw [sub_add_cancel_left, abs_neg, abs_of_pos (by norm_num)]
  · rw [add_sub_add_left_eq_sub, abs_of_pos (by norm_num)]
    norm_num

/-- A rational is rounded to one decimal only. -/
theorem unique (first : IsRounded q places d) (second : IsRounded q places e) : d = e := by
  obtain ⟨m, rfl, near, away⟩ := first.scaled
  obtain ⟨n, rfl, otherNear, otherAway⟩ := second.scaled
  have same : m = n := le_antisymm (not_lt.mp (not_lt_of_near otherNear otherAway near away))
    (not_lt.mp (not_lt_of_near near away otherNear otherAway))
  rw [same]

end IsRounded

namespace Binary64

/-- The decimal that a finite number is rounded to. -/
def rounded (places : Nat) (x : Binary64) : ℚ :=
  signed x.isNegative (x.roundedMultiple places / 10 ^ places)

variable {x : Binary64} {places : Nat}

/-- The multiple that a number is rounded to, in terms of the number. -/
theorem roundedMultiple_bounds (places : Nat) (x : Binary64) :
    |x.toRat| * 10 ^ places - 1 / 2 < x.roundedMultiple places ∧
      (x.roundedMultiple places : ℚ) ≤ |x.toRat| * 10 ^ places + 1 / 2 := by
  have bounds := roundHalfUp_bounds (x.magnitude * Nat.pow 10 places)
    (Nat.cast_pos.mp unitsPerOne_pos)
  have scaled : ((x.magnitude * Nat.pow 10 places : Nat) : ℚ) / unitsPerOne =
      |x.toRat| * 10 ^ places := by
    rw [abs_toRat, Nat.cast_mul, Nat.pow_eq, Nat.cast_pow, Nat.cast_ofNat, mul_div_right_comm]
  rwa [scaled] at bounds

/-- The size of the rounded number is its multiple of the last place. -/
theorem abs_rounded (places : Nat) (x : Binary64) :
    |x.rounded places| = x.roundedMultiple places / 10 ^ places := by
  rw [rounded, abs_signed, abs_of_nonneg (by positivity)]

/-- The distance from a number to what it is rounded to. -/
theorem abs_rounded_sub (places : Nat) (x : Binary64) :
    |x.rounded places - x.toRat| =
      |x.roundedMultiple places - |x.toRat| * 10 ^ places| / 10 ^ places := by
  have power : (0 : ℚ) < 10 ^ places := by positivity
  have size : x.toRat = signed x.isNegative |x.toRat| := by
    rw [abs_toRat]
    exact toRat_eq x
  calc
    |x.rounded places - x.toRat| = |(x.roundedMultiple places / 10 ^ places - |x.toRat|)| := by
      rw [rounded, size, abs_signed_sub_signed, abs_signed, abs_abs]
    _ = |(x.roundedMultiple places - |x.toRat| * 10 ^ places) / 10 ^ places| := by
      rw [sub_div, mul_div_cancel_right₀ _ power.ne']
    _ = _ := by rw [abs_div, abs_of_pos power]

/-- A number is rounded to the nearest multiple of the last place. -/
theorem isRounded_rounded (places : Nat) (x : Binary64) :
    IsRounded x.toRat places (x.rounded places) := by
  obtain ⟨low, high⟩ := roundedMultiple_bounds places x
  have power : (0 : ℚ) < 10 ^ places := by positivity
  refine ⟨?_, ?_, fun tie => ?_⟩
  · refine ⟨if x.isNegative then -x.roundedMultiple places else x.roundedMultiple places, ?_⟩
    rw [rounded, signed]
    split_ifs
    · rw [Int.cast_neg, Int.cast_natCast, neg_div]
    · rw [Int.cast_natCast]
  · rw [abs_rounded_sub, div_right_comm, div_le_div_iff_of_pos_right power, abs_le]
    constructor <;> linarith
  · rw [abs_rounded_sub, div_right_comm, div_left_inj' power.ne'] at tie
    rw [abs_rounded, lt_div_iff₀ power]
    -- the multiple is more than the half below, so a half away is the half above
    rcases (abs_eq (by norm_num)).mp tie with above | below <;> linarith

/-- The working precision has room for the multiple of a number below the rounding limit. -/
theorem roundedMultiple_lt (small : |x.toRat| < 10 ^ 21) :
    x.roundedMultiple places < Nat.pow 10 (Builtin.workingDigits places) := by
  have high := (roundedMultiple_bounds places x).2
  have power : (1 : ℚ) ≤ 10 ^ places := one_le_pow₀ (by norm_num)
  have room : (x.roundedMultiple places : ℚ) < 10 ^ (22 + places) := by
    calc
      (x.roundedMultiple places : ℚ) ≤ |x.toRat| * 10 ^ places + 1 / 2 := high
      _ < 10 ^ 21 * 10 ^ places + 9 * 10 ^ 21 * 10 ^ places := by
        gcongr
        linarith
      _ = 10 ^ (22 + places) := by ring
  rw [Builtin.workingDigits, Nat.pow_eq]
  exact_mod_cast room

/-- What a number below the rounding limit is rounded to becomes a nearest number of the format. -/
theorem isNearest_ofMultiple (small : |x.toRat| < 10 ^ 21) :
    IsNearest (ofMultiple x.isNegative (x.roundedMultiple places) places) (x.rounded places) := by
  have divisor : 0 < Nat.pow 10 places := Nat.pow_pos (by decide)
  have power : ((Nat.pow 10 places : Nat) : ℚ) = 10 ^ places := by
    rw [Nat.pow_eq, Nat.cast_pow, Nat.cast_ofNat]
  have size : (x.roundedMultiple places : ℚ) / (Nat.pow 10 places : Nat) < 2 ^ (1023 : Int) := by
    have one : (1 : ℚ) ≤ 10 ^ places := one_le_pow₀ (by norm_num)
    have high := (roundedMultiple_bounds places x).2
    rw [power, div_lt_iff₀ (by positivity)]
    calc
      (x.roundedMultiple places : ℚ) ≤ |x.toRat| * 10 ^ places + 1 / 2 := high
      _ < 10 ^ 21 * 10 ^ places + 1 * 10 ^ places := by
        gcongr
        linarith
      _ = (10 ^ 21 + 1) * 10 ^ places := by ring
      _ ≤ 2 ^ (1023 : Int) * 10 ^ places := by
        gcongr
        calc
          (10 ^ 21 + 1 : ℚ) ≤ 2 ^ (70 : Int) := by norm_num
          _ ≤ 2 ^ (1023 : Int) := zpow_le_zpow_right₀ (by norm_num) (by norm_num)
  have nearest := isNearest_ofRatio x.isNegative divisor (isFinite_ofRatio _ divisor size)
  rwa [power] at nearest

end Binary64

namespace Builtin

/-- The step that rounds to so many places. -/
def roundStep (places : Int) : Step :=
  Step.parse ("round:" ++ toString places)

variable {x : Binary64} {value decimals : Value} {places : Int} {dateTemplate : String}

/-- A number below the limit is quantized to its multiple of the last place. -/
theorem quantize_of_small {places : Nat} (small : |x.toRat| < 10 ^ 21) :
    quantize (workingDigits places) places x = .ok (x.roundedMultiple places) :=
  if_pos (Binary64.roundedMultiple_lt small)

/-- A magnitude is below the limit if and only if the size of the value is below 10 ^ 21. -/
theorem magnitude_lt_roundingLimit_iff :
    x.magnitude < roundingLimit * Binary64.unitsPerOne ↔ |x.toRat| < 10 ^ 21 := by
  rw [Binary64.magnitude_lt_iff, roundingLimit, Nat.pow_eq, Nat.cast_pow, Nat.cast_ofNat]

/-- A number below the rounding limit is worked out and converted back. -/
theorem round_of_small {places : Nat} (given : decimals.toInteger 0 = .ok (places : Int))
    (reach : places ≤ 100) (number : value.toNumber = .ok x) (finite : x.isFinite = true)
    (small : |x.toRat| < 10 ^ 21) :
    round value decimals =
      .ok (.float (.ofMultiple x.isNegative (x.roundedMultiple places) places)) := by
  have below : ¬roundingLimit * Binary64.unitsPerOne ≤ x.magnitude :=
    not_le.mpr (magnitude_lt_roundingLimit_iff.mpr small)
  rw [round, given, Outcome.ok_bind, if_neg (by omega), number, Outcome.ok_bind, finite,
    if_neg (by simpa using below), Int.toNat_natCast, quantize_of_small small]
  rfl

/-- A number that is not below the rounding limit is left as it is. -/
theorem round_of_large {places : Nat} (given : decimals.toInteger 0 = .ok (places : Int))
    (reach : places ≤ 100) (number : value.toNumber = .ok x) (large : ¬|x.toRat| < 10 ^ 21) :
    round value decimals = .ok (.float x) := by
  have above : roundingLimit * Binary64.unitsPerOne ≤ x.magnitude :=
    not_lt.mp fun small => large (magnitude_lt_roundingLimit_iff.mp small)
  rw [round, given, Outcome.ok_bind, if_neg (by omega), number, Outcome.ok_bind,
    if_pos (by simp [above])]
  rfl

/-- Places that are negative or more than a hundred are refused. -/
theorem round_of_outside (given : decimals.toInteger 0 = .ok places)
    (outside : ¬(0 ≤ places ∧ places ≤ 100)) :
    round value decimals = .error (.placesOutOfRange places) := by
  rw [round, given, Outcome.ok_bind, if_pos (by omega)]

/-- A rounding step gives what rounding does, or keeps the value and reports why. -/
theorem apply_roundStep (value : Value) :
    (registry dateTemplate).apply (roundStep places) value [] =
      match round value (.text (toString places)) with
      | .ok image => (image, [])
      | .error fault => (value, [.transformationFailed "round" fault.message]) := by
  have identifier : Path.isIdentifier "round".toList = true := by decide
  obtain ⟨named, args⟩ := Step.parse_integer identifier places
  rw [show "round" ++ ":" = "round:" from rfl] at named args
  rw [Registry.apply, roundStep, named, args]
  rfl

/-- A number of places in range is read as it is. -/
theorem toInteger_places {size : Nat} (reach : size ≤ 100) :
    (Value.text (toString (size : Int))).toInteger 0 = .ok (size : Int) := by
  have few : (size : Int).natAbs < Nat.pow 10 3 := lt_of_le_of_lt reach (by decide)
  have held : Binary64.HoldsInteger size :=
    Binary64.holdsInteger_of_lt (lt_of_le_of_lt reach (by decide))
  rw [Value.toInteger_integer (by decide) few (by decide), Binary64.truncate_ofInteger held]

/-- A number of places out of range is read as one that is out of range as well. -/
theorem exists_toInteger_outside (few : places.natAbs < Nat.pow 10 300)
    (outside : ¬(0 ≤ places ∧ places ≤ 100)) : ∃ taken : Int,
      (Value.text (toString places)).toInteger 0 = .ok taken ∧ ¬(0 ≤ taken ∧ taken ≤ 100) := by
  refine ⟨_, Value.toInteger_integer (by decide) few le_rfl 0, ?_⟩
  have finite := Binary64.isFinite_ofInteger_of_digits few le_rfl
  rcases lt_or_ge places 0 with negative | nonneg
  · have held : Binary64.HoldsInteger (-1) := Binary64.holdsInteger_of_lt (by decide)
    have below := Binary64.truncate_ofInteger_le held finite (by omega)
    omega
  · have held : Binary64.HoldsInteger 101 := Binary64.holdsInteger_of_lt (by decide)
    have above := Binary64.le_truncate_ofInteger held finite (by omega)
    omega

/-- **Rounding is exact.** A finite number below `10 ^ 21` is rounded to each number of places up to
a hundred without a report: the working precision suffices, the decimal that is worked out is the
multiple of `10 ^ -places` nearest to the exact value of the number, ties going away from zero, and
the image is a number of the format nearest to that decimal. Every number of places out of range,
unless it is as large as `10 ^ 300`, leaves every value as it is and is reported. -/
theorem round_exact (dateTemplate : String) (places : Int) :
    (0 ≤ places ∧ places ≤ 100 → ∀ x : Binary64, x.isFinite = true → |x.toRat| < 10 ^ 21 →
      ∃ multiple : Nat,
        quantize (workingDigits places.toNat) places.toNat x = .ok multiple ∧
        let decimal := Binary64.signed x.isNegative (multiple / 10 ^ places.toNat)
        let image := Binary64.ofMultiple x.isNegative multiple places.toNat
        IsRounded x.toRat places.toNat decimal ∧ image.IsNearest decimal ∧
          (registry dateTemplate).apply (roundStep places) (.float x) [] = (.float image, [])) ∧
    (¬(0 ≤ places ∧ places ≤ 100) → places.natAbs < Nat.pow 10 300 → ∀ value, ∃ taken : Int,
      ¬(0 ≤ taken ∧ taken ≤ 100) ∧ (registry dateTemplate).apply (roundStep places) value [] =
        (value, [.transformationFailed "round" (Fault.placesOutOfRange taken).message])) := by
  constructor
  · rintro ⟨nonneg, reach⟩ x finite small
    obtain ⟨size, rfl⟩ := Int.eq_ofNat_of_zero_le nonneg
    have few : size ≤ 100 := by omega
    refine ⟨x.roundedMultiple size, quantize_of_small small, x.isRounded_rounded size,
      Binary64.isNearest_ofMultiple small, ?_⟩
    rw [apply_roundStep, round_of_small (toInteger_places few) few rfl finite small]
    rfl
  · intro outside few value
    obtain ⟨taken, given, apart⟩ := exists_toInteger_outside few outside
    exact ⟨taken, apart, by rw [apply_roundStep, round_of_outside given apart]⟩

/-- The greatest number below the rounding limit with the most places, and one place too many. -/
theorem round_exact_widest :
    let x : Binary64 := .finite false 7629394531249999 17 (by decide)
    x.isFinite = true ∧ |x.toRat| < 10 ^ 21 ∧
      (∃ multiple : Nat,
        quantize (workingDigits 100) 100 x = .ok multiple ∧
        let decimal := Binary64.signed x.isNegative (multiple / 10 ^ 100)
        let image := Binary64.ofMultiple x.isNegative multiple 100
        IsRounded x.toRat 100 decimal ∧ image.IsNearest decimal ∧
          (registry defaultDateTemplate).apply (roundStep 100) (.float x) [] =
            (.float image, [])) ∧
      ∃ taken : Int, ¬(0 ≤ taken ∧ taken ≤ 100) ∧
        (registry defaultDateTemplate).apply (roundStep 101) (.float x) [] =
          (.float x, [.transformationFailed "round" (Fault.placesOutOfRange taken).message]) := by
  intro x
  have small : |x.toRat| < 10 ^ 21 := by
    rw [Binary64.toRat_finite, Binary64.abs_signed]
    norm_num
  exact ⟨rfl, small, (round_exact defaultDateTemplate 100).1 (by decide) x rfl small,
    (round_exact defaultDateTemplate 101).2 (by decide) (by decide +kernel) (.float x)⟩

end Builtin

end Stencil
