import Stencil.Proofs.Binary64.Rational

/-!
# Rounding is nearest

A ratio becomes a number of the double format that no other finite one is nearer to
(`Binary64.isNearest_ofRatio`), unless it is too large, and a ratio that is itself a number of the
format becomes that number (`Binary64.ofRatio_of_eq`).
-/

namespace Stencil.Binary64

/-- A finite number that is as near to a rational as any other one. -/
structure IsNearest (x : Binary64) (q : ℚ) : Prop where
  finite : x.isFinite = true
  near : ∀ y : Binary64, y.isFinite = true → |x.toRat - q| ≤ |y.toRat - q|

namespace IsNearest

variable {x y : Binary64} {q : ℚ}

/-- Rounding does not pass a number of the format upwards. -/
theorem le_of_le (nearest : IsNearest x q) (finite : y.isFinite = true) (above : q ≤ y.toRat) :
    x.toRat ≤ y.toRat := by
  by_contra beyond
  have far := nearest.near y finite
  rw [abs_of_nonneg (by linarith), abs_of_nonneg (by linarith)] at far
  linarith

/-- Rounding does not pass a number of the format downwards. -/
theorem ge_of_ge (nearest : IsNearest x q) (finite : y.isFinite = true) (below : y.toRat ≤ q) :
    y.toRat ≤ x.toRat := by
  by_contra under
  have far := nearest.near y finite
  rw [abs_of_nonpos (by linarith), abs_of_nonpos (by linarith)] at far
  linarith

/-- A number of the format is rounded to itself. -/
theorem eq_of_eq (nearest : IsNearest x q) (finite : y.isFinite = true) (same : y.toRat = q) :
    x.toRat = q := by
  have far := nearest.near y finite
  rw [same, sub_self, abs_zero] at far
  exact sub_eq_zero.mp (abs_nonpos_iff.mp far)

end IsNearest

/-- The mantissa that a ratio is rounded to. -/
def ratioMantissa (num den : Nat) : Nat :=
  let (scaledNum, scaledDen) := scaleDown 2 (lastPlace num den) num den
  roundHalfEven scaledNum scaledDen

/-- The multiple of its last place that a ratio is rounded to. -/
def ratioNearest (num den : Nat) : ℚ :=
  ratioMantissa num den * 2 ^ lastPlace num den

section Ratio

variable {num den : Nat} (numerator : 0 < num) (divisor : 0 < den)

theorem zpow_two_pos (exponent : Int) : (0 : ℚ) < 2 ^ exponent :=
  zpow_pos (by norm_num) exponent

theorem zpow_two_add (first second : Int) : (2 : ℚ) ^ (first + second) = 2 ^ first * 2 ^ second :=
  zpow_add₀ (by norm_num) first second

/-- A mantissa of at most fifty-three bits lies below the fifty-fourth place. -/
theorem mul_zpow_lt {mantissa : Nat} (bits : mantissa < Nat.pow 2 53) (exponent : Int) :
    (mantissa : ℚ) * 2 ^ exponent < 2 ^ (53 + exponent) := by
  have bound : (mantissa : ℚ) < 2 ^ (53 : Int) := by exact_mod_cast bits
  rw [zpow_two_add]
  exact mul_lt_mul_of_pos_right bound (zpow_two_pos exponent)

/-- A mantissa of fifty-three bits reaches the fifty-third place. -/
theorem le_mul_zpow {mantissa : Nat} (full : Nat.pow 2 52 ≤ mantissa) (exponent : Int) :
    (2 : ℚ) ^ (52 + exponent) ≤ mantissa * 2 ^ exponent := by
  have bound : (2 : ℚ) ^ (52 : Int) ≤ mantissa := by exact_mod_cast full
  rw [zpow_two_add]
  exact mul_le_mul_of_nonneg_right bound (zpow_two_pos exponent).le

include divisor

/-- The mantissa of a ratio is at most half a unit of the last place away from it. -/
theorem abs_ratioMantissa_sub_le (num : Nat) :
    |(ratioMantissa num den : ℚ) - num / den / 2 ^ lastPlace num den| ≤ 1 / 2 := by
  have scaled := scaleDown_div num den (by decide : 0 < 2) (lastPlace num den)
  rw [Nat.cast_two] at scaled
  rw [← scaled]
  exact abs_roundHalfEven_sub_le (scaleDown_pos num (by decide) divisor _)

/-- No multiple of its last place is nearer to a ratio. -/
theorem ratioNearest_near (num : Nat) (multiple : Int) :
    |ratioNearest num den - num / den| ≤ |(multiple : ℚ) * 2 ^ lastPlace num den - num / den| := by
  have place := zpow_two_pos (lastPlace num den)
  have factor (q : ℚ) : q * 2 ^ lastPlace num den - num / den =
      (q - num / den / 2 ^ lastPlace num den) * 2 ^ lastPlace num den := by
    rw [sub_mul, div_mul_cancel₀ _ place.ne']
  rw [ratioNearest, factor, factor, abs_mul, abs_mul]
  refine mul_le_mul_of_nonneg_right ?_ (abs_nonneg _)
  have half := abs_ratioMantissa_sub_le divisor num
  rw [← Int.cast_natCast (ratioMantissa num den)] at half ⊢
  exact abs_sub_le_of_half half multiple

include numerator

/-- The mantissa of a ratio has at most 53 binary places, or is the next power of two. -/
theorem ratioMantissa_le : ratioMantissa num den ≤ Nat.pow 2 53 := by
  have half := abs_le.mp (abs_ratioMantissa_sub_le divisor num)
  have small := lt_zpow_lastPlace numerator divisor
  rw [zpow_two_add, ← div_lt_iff₀ (zpow_two_pos _)] at small
  have bound : (ratioMantissa num den : ℚ) < (Nat.pow 2 53 : Nat) + 1 := by
    have same : (2 : ℚ) ^ (53 : Int) = (Nat.pow 2 53 : Nat) := by norm_num
    rw [same] at small
    linarith
  exact Nat.lt_succ_iff.mp (by exact_mod_cast bound)

/-- Above the smallest exponent, the mantissa of a ratio has its leading place filled. -/
theorem le_ratioMantissa (inner : -1074 < lastPlace num den) :
    Nat.pow 2 52 ≤ ratioMantissa num den := by
  have half := abs_le.mp (abs_ratioMantissa_sub_le divisor num)
  have large := zpow_lastPlace_le numerator divisor inner
  rw [zpow_two_add, ← le_div_iff₀ (zpow_two_pos _)] at large
  have bound : ((Nat.pow 2 52 : Nat) : ℚ) < ratioMantissa num den + 1 := by
    have same : (2 : ℚ) ^ (52 : Int) = (Nat.pow 2 52 : Nat) := by norm_num
    rw [same] at large
    linarith
  exact Nat.lt_succ_iff.mp (by exact_mod_cast bound)

/-- A ratio that is a multiple of a place in the format, with a mantissa of fifty-three bits, is
rounded to itself. -/
theorem ratioNearest_of_eq {mantissa : Nat} {exponent : Int} (bits : mantissa < Nat.pow 2 53)
    (least : -1074 ≤ exponent) (same : (num : ℚ) / den = mantissa * 2 ^ exponent) :
    ratioNearest num den = num / den := by
  have small : (num : ℚ) / den < 2 ^ (53 + exponent) := same ▸ mul_zpow_lt bits exponent
  obtain ⟨gap, further⟩ := Int.le.dest (lastPlace_le numerator divisor least small)
  have multiple : (num : ℚ) / den = ((mantissa * 2 ^ gap : Int) : ℚ) * 2 ^ lastPlace num den := by
    rw [same, ← further, zpow_two_add, zpow_natCast]
    push_cast
    ring
  have near := ratioNearest_near divisor num (mantissa * 2 ^ gap)
  rw [← multiple, sub_self, abs_zero] at near
  exact sub_eq_zero.mp (abs_nonpos_iff.mp near)

/-- A number of the format is a multiple of the last place of a ratio, or it lies below the least
mantissa of that place, which the ratio reaches. -/
theorem toRat_cases {y : Binary64} (finite : y.isFinite = true) :
    (∃ multiple : Int, y.toRat = multiple * 2 ^ lastPlace num den) ∨
      (y.toRat < 2 ^ (52 + lastPlace num den) ∧
        (2 : ℚ) ^ (52 + lastPlace num den) ≤ num / den) := by
  match y, finite with
  | .finite negative mantissa exponent canonical, _ =>
    rw [toRat_finite]
    rcases le_or_gt (lastPlace num den) exponent with coarser | finer
    · left
      obtain ⟨gap, further⟩ := Int.le.dest coarser
      refine ⟨if negative then -(mantissa * 2 ^ gap) else mantissa * 2 ^ gap, ?_⟩
      rw [← further, zpow_two_add, zpow_natCast, signed]
      split <;> (push_cast; ring)
    · right
      refine ⟨?_, zpow_lastPlace_le numerator divisor (by have least := canonical.2.1; omega)⟩
      calc
        signed negative ((mantissa : ℚ) * 2 ^ exponent) ≤ |(mantissa : ℚ) * 2 ^ exponent| :=
          (le_abs_self _).trans (abs_signed _ _).le
        _ = mantissa * 2 ^ exponent := abs_of_nonneg (by positivity)
        _ < 2 ^ (53 + exponent) := mul_zpow_lt canonical.1 exponent
        _ ≤ 2 ^ (52 + lastPlace num den) := zpow_le_zpow_right₀ (by norm_num) (by omega)

omit numerator in
/-- The least mantissa of the last place of a ratio is no nearer to it. -/
theorem ratioNearest_near_least (num : Nat) :
    |ratioNearest num den - num / den| ≤ |(2 : ℚ) ^ (52 + lastPlace num den) - num / den| := by
  have near := ratioNearest_near divisor num (2 ^ 52)
  have same : ((2 ^ 52 : Int) : ℚ) * 2 ^ lastPlace num den = 2 ^ (52 + lastPlace num den) := by
    rw [zpow_two_add]
    norm_num
  rwa [same] at near

/-- No number of the format is nearer to a ratio than the multiple of its last place. -/
theorem ratioNearest_near_toRat {y : Binary64} (finite : y.isFinite = true) :
    |ratioNearest num den - num / den| ≤ |y.toRat - num / den| := by
  rcases toRat_cases numerator divisor finite with ⟨multiple, same⟩ | ⟨below, reached⟩
  · rw [same]
    exact ratioNearest_near divisor num multiple
  · refine (ratioNearest_near_least divisor num).trans ?_
    rw [abs_of_nonpos (by linarith), abs_of_nonpos (by linarith)]
    linarith

end Ratio

section Pack

variable {negative : Bool} {mantissa : Nat} {exponent : Int}

/-- A packed mantissa and exponent are a finite number if they are canonical. -/
theorem isFinite_pack (canonical : Canonical mantissa exponent) :
    (pack negative mantissa exponent).isFinite = true := by
  rw [pack, dif_pos canonical]
  rfl

/-- A packed number has the value of its mantissa and exponent. -/
theorem toRat_pack (canonical : Canonical mantissa exponent) :
    (pack negative mantissa exponent).toRat = signed negative (mantissa * 2 ^ exponent) := by
  rw [pack, dif_pos canonical, toRat_finite]

/-- What is packed into a finite number was canonical. -/
theorem canonical_of_isFinite_pack (finite : (pack negative mantissa exponent).isFinite = true) :
    Canonical mantissa exponent := by
  by_contra other
  rw [pack, dif_neg other] at finite
  cases finite

theorem canonical_zero : Canonical 0 (-1074) := by
  decide

/-- A zero of either sign is finite. -/
theorem isFinite_signedZero (negative : Bool) : (signedZero negative).isFinite = true :=
  isFinite_pack canonical_zero

/-- A zero of either sign has the value zero. -/
theorem toRat_signedZero (negative : Bool) : (signedZero negative).toRat = 0 := by
  rw [signedZero, toRat_pack canonical_zero, Nat.cast_zero, zero_mul, signed, neg_zero, ite_self]

end Pack

/-- Rounding at most doubles a number. -/
theorem IsNearest.abs_toRat_le {x : Binary64} {q : ℚ} (nearest : IsNearest x q) :
    |x.toRat| ≤ 2 * |q| := by
  have far := nearest.near (signedZero false) (isFinite_signedZero false)
  rw [toRat_signedZero, zero_sub, abs_neg] at far
  calc
    |x.toRat| = |x.toRat - q + q| := by rw [sub_add_cancel]
    _ ≤ |x.toRat - q| + |q| := abs_add_le _ _
    _ ≤ 2 * |q| := by linarith

/-- A number and its negation are finite alike. -/
theorem isFinite_negate (x : Binary64) : x.negate.isFinite = x.isFinite := by
  cases x <;> rfl

/-- The negation of a finite number has the opposite value. -/
theorem toRat_negate {x : Binary64} (finite : x.isFinite = true) :
    x.negate.toRat = -x.toRat := by
  match x, finite with
  | .finite negative mantissa exponent canonical, _ =>
    rw [negate, toRat_finite, toRat_finite]
    cases negative
    · rfl
    · exact (neg_neg _).symm

section OfRatio

variable {negative : Bool} {num den : Nat}

theorem ofRatio_zero (negative : Bool) (den : Nat) :
    ofRatio negative 0 den = signedZero negative :=
  if_pos rfl

/-- A ratio is packed from its mantissa, which moves up one exponent if rounding has filled it. -/
theorem ofRatio_eq (numerator : 0 < num) (negative : Bool) (den : Nat) :
    ofRatio negative num den =
      if ratioMantissa num den = Nat.pow 2 53 then
        pack negative (Nat.pow 2 52) (lastPlace num den + 1)
      else pack negative (ratioMantissa num den) (lastPlace num den) :=
  if_neg numerator.ne'

/-- The mantissa and the exponent of a rounded ratio. A mantissa that has been rounded up to one
more bit is halved. -/
theorem exists_ofRatio (numerator : 0 < num) (divisor : 0 < den) (negative : Bool) :
    ∃ (mantissa : Nat) (exponent : Int),
      ofRatio negative num den = pack negative mantissa exponent ∧
      mantissa * 2 ^ exponent = ratioNearest num den ∧ mantissa < Nat.pow 2 53 ∧
      -1074 ≤ exponent ∧ (exponent = -1074 ∨ Nat.pow 2 52 ≤ mantissa) := by
  have least : -1074 ≤ lastPlace num den := le_max_right _ _
  rw [ofRatio_eq numerator]
  split_ifs with carried
  · refine ⟨_, _, rfl, ?_, by decide, by omega, .inr le_rfl⟩
    rw [ratioNearest, carried, zpow_two_add]
    norm_num
    ring
  · have bits := lt_of_le_of_ne (ratioMantissa_le numerator divisor) carried
    refine ⟨_, _, rfl, rfl, bits, least, ?_⟩
    rcases least.eq_or_lt with last | inner
    · exact .inl last.symm
    · exact .inr (le_ratioMantissa numerator divisor inner)

/-- A ratio that is rounded to a finite number is rounded to the nearest value of its place. -/
theorem toRat_ofRatio (numerator : 0 < num) (divisor : 0 < den)
    (finite : (ofRatio negative num den).isFinite = true) :
    (ofRatio negative num den).toRat = signed negative (ratioNearest num den) := by
  obtain ⟨mantissa, exponent, made, value, -⟩ := exists_ofRatio numerator divisor negative
  rw [made] at finite ⊢
  rw [toRat_pack (canonical_of_isFinite_pack finite), value]

/-- A ratio is rounded to a finite number if the nearest value of its place is small enough. -/
theorem isFinite_ofRatio_of_ratioNearest (numerator : 0 < num) (divisor : 0 < den)
    (small : ratioNearest num den < 2 ^ (1024 : Int)) :
    (ofRatio negative num den).isFinite = true := by
  obtain ⟨mantissa, exponent, made, value, bits, least, full⟩ :=
    exists_ofRatio numerator divisor negative
  have reach : exponent ≤ 971 := by
    by_contra beyond
    have far : (2 : ℚ) ^ (1024 : Int) ≤ ratioNearest num den := by
      rw [← value]
      calc
        (2 : ℚ) ^ (1024 : Int) ≤ 2 ^ (52 + exponent) :=
          zpow_le_zpow_right₀ (by norm_num) (by omega)
        _ ≤ mantissa * 2 ^ exponent := le_mul_zpow (full.resolve_left (by omega)) exponent
    exact absurd small (not_lt.mpr far)
  rw [made]
  exact isFinite_pack ⟨bits, least, reach, full⟩

/-- A ratio within half the range of the format is rounded to a finite number. -/
theorem isFinite_ofRatio (negative : Bool) (divisor : 0 < den)
    (small : (num : ℚ) / den < 2 ^ (1023 : Int)) :
    (ofRatio negative num den).isFinite = true := by
  rcases Nat.eq_zero_or_pos num with rfl | numerator
  · rw [ofRatio_zero]
    exact isFinite_signedZero negative
  · apply isFinite_ofRatio_of_ratioNearest numerator divisor
    have near := ratioNearest_near divisor num 0
    have ratio : (0 : ℚ) ≤ num / den := by positivity
    rw [Int.cast_zero, zero_mul, zero_sub, abs_neg, abs_of_nonneg ratio] at near
    have twice : (2 : ℚ) ^ (1024 : Int) = 2 * 2 ^ (1023 : Int) := by
      rw [show (1024 : Int) = 1 + 1023 from rfl, zpow_two_add, zpow_one]
    rw [twice]
    linarith [(abs_le.mp near).2]

/-- **A ratio is rounded to a nearest number of the format,** unless it is too large. -/
theorem isNearest_ofRatio (negative : Bool) (divisor : 0 < den)
    (finite : (ofRatio negative num den).isFinite = true) :
    IsNearest (ofRatio negative num den) (signed negative (num / den)) := by
  refine ⟨finite, fun y other => ?_⟩
  rcases Nat.eq_zero_or_pos num with rfl | numerator
  · have zero : signed negative ((0 : Nat) / den) = 0 := by
      rw [Nat.cast_zero, zero_div, signed, neg_zero, ite_self]
    rw [ofRatio_zero, toRat_signedZero, zero, sub_self, abs_zero]
    exact abs_nonneg _
  · rw [toRat_ofRatio numerator divisor finite, abs_signed_sub_signed]
    cases negative with
    | false => exact ratioNearest_near_toRat numerator divisor other
    | true =>
      -- a sign in front of the ratio is the opposite one in front of its rivals
      have opposite := ratioNearest_near_toRat numerator divisor ((isFinite_negate y).trans other)
      have same : -y.toRat - (num : ℚ) / den = -(y.toRat - -((num : ℚ) / den)) := by ring
      rwa [toRat_negate other, same, abs_neg] at opposite

/-- A ratio that is a number of the format is rounded to that number. -/
theorem ofRatio_of_eq (negative : Bool) (divisor : 0 < den) {mantissa : Nat} {exponent : Int}
    (bits : mantissa < Nat.pow 2 53) (least : -1074 ≤ exponent) (reach : exponent ≤ 971)
    (same : (num : ℚ) / den = mantissa * 2 ^ exponent) :
    (ofRatio negative num den).isFinite = true ∧
      (ofRatio negative num den).toRat = signed negative (num / den) := by
  rcases Nat.eq_zero_or_pos num with rfl | numerator
  · rw [ofRatio_zero, toRat_signedZero, Nat.cast_zero, zero_div, signed, neg_zero, ite_self]
    exact ⟨isFinite_signedZero negative, rfl⟩
  · have itself := ratioNearest_of_eq numerator divisor bits least same
    have finite : (ofRatio negative num den).isFinite = true := by
      apply isFinite_ofRatio_of_ratioNearest numerator divisor
      rw [itself, same]
      exact (mul_zpow_lt bits exponent).trans_le (zpow_le_zpow_right₀ (by norm_num) (by omega))
    exact ⟨finite, by rw [toRat_ofRatio numerator divisor finite, itself]⟩

end OfRatio

end Stencil.Binary64
