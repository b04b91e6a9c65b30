import Stencil.Binary64.Decimal
import Stencil.Proofs.Binary64.Nearest
import Stencil.Proofs.Text.Digits

/-!
# Ties and overflow

What the double format makes of a magnitude (`Binary64.Rounds`): the nearest number, of two the one
with the even mantissa, and an infinity from half-way past the greatest finite number on. There is
one such number (`Binary64.Rounds.unique`), and ratios and decimal numbers are rounded to it
(`Binary64.rounds_ofRatio`, `Binary64.rounds_ofDecimal`).
-/

namespace Stencil

/-- A natural number that is half-way from a ratio is the even one. -/
theorem roundHalfEven_even {num den : Nat} (positive : 0 < den)
    (tie : |(roundHalfEven num den : ℚ) - num / den| = 1 / 2) : roundHalfEven num den % 2 = 0 := by
  have size : (0 : ℚ) < den := Nat.cast_pos.mpr positive
  have split : (roundHalfEven num den : ℚ) - num / den =
      (roundHalfEven num den * den - num) / den := by field_simp
  rw [split, abs_div, abs_of_pos size, div_eq_iff size.ne'] at tie
  have ends : 2 * (roundHalfEven num den * den) = 2 * num + den ∨
      2 * (roundHalfEven num den * den) + den = 2 * num := by
    rcases abs_choice ((roundHalfEven num den : ℚ) * den - num) with above | below
    · left
      exact_mod_cast (by linarith : 2 * ((roundHalfEven num den : ℚ) * den) = 2 * num + den)
    · right
      exact_mod_cast (by linarith : 2 * ((roundHalfEven num den : ℚ) * den) + den = 2 * num)
  have parts : num / den * den + num % den = num := Nat.div_add_mod' num den
  have small : num % den < den := Nat.mod_lt num positive
  have next : (num / den + 1) * den = num / den * den + den := Nat.succ_mul _ _
  rw [roundHalfEven] at ends ⊢
  split_ifs at ends ⊢ <;> omega

namespace Binary64

/-- The magnitude half-way past the greatest finite number. -/
def overflow : ℚ :=
  2 ^ (1024 : Int) - 2 ^ (970 : Int)

/-- The overflow is half a unit of the last place past the greatest mantissa at the greatest
exponent. -/
theorem overflow_eq : overflow = (2 ^ (53 : Int) - 1 / 2) * 2 ^ (971 : Int) := by
  rw [overflow, show (1024 : Int) = 53 + 971 from rfl, show (970 : Int) = 971 + -1 from rfl,
    zpow_two_add, zpow_two_add, zpow_neg_one]
  ring

/-- The overflow is below two to the 1024th. -/
theorem overflow_lt : overflow < 2 ^ (1024 : Int) :=
  sub_lt_self _ (zpow_two_pos _)

/-- What is below two to the 1023rd is below the overflow. -/
theorem lt_overflow_of_lt {q : ℚ} (small : q < 2 ^ (1023 : Int)) : q < overflow := by
  have half : (2 : ℚ) ^ (1023 : Int) = 2 ^ (52 : Int) * 2 ^ (971 : Int) := by
    rw [← zpow_two_add]
    rfl
  have less : (2 : ℚ) ^ (52 : Int) ≤ 2 ^ (53 : Int) - 1 / 2 := by norm_num
  rw [half] at small
  rw [overflow_eq]
  exact small.trans_le (mul_le_mul_of_nonneg_right less (zpow_two_pos _).le)

section Tie

variable {num den : Nat} (numerator : 0 < num) (divisor : 0 < den)
include numerator divisor

omit numerator in
/-- The mantissa that a ratio is rounded to from half a place away is even. -/
theorem ratioMantissa_even_of_half
    (tie : |(ratioMantissa num den : ℚ) - num / den / 2 ^ lastPlace num den| = 1 / 2) :
    ratioMantissa num den % 2 = 0 := by
  have ratio := scaleDown_div num den Nat.two_pos (lastPlace num den)
  rw [Nat.cast_two] at ratio
  rw [← ratio] at tie
  exact roundHalfEven_even (scaleDown_pos num Nat.two_pos divisor _) tie

/-- If another number of the format is as near to a ratio, the mantissa it is rounded to is even. -/
theorem ratioMantissa_even {y : Binary64} (finite : y.isFinite = true)
    (other : y.toRat ≠ ratioNearest num den)
    (tie : |y.toRat - num / den| = |ratioNearest num den - num / den|) :
    ratioMantissa num den % 2 = 0 := by
  have place := zpow_two_pos (lastPlace num den)
  have scaled (q : ℚ) : |q * 2 ^ lastPlace num den - num / den| =
      |q - num / den / 2 ^ lastPlace num den| * 2 ^ lastPlace num den := by
    rw [← abs_of_pos place, ← abs_mul, abs_of_pos place, sub_mul, div_mul_cancel₀ _ place.ne']
  rcases toRat_cases numerator divisor finite with ⟨multiple, same⟩ | ⟨below, reached⟩
  · rw [same, ratioNearest, scaled, scaled, mul_left_inj' place.ne'] at tie
    rw [same, ratioNearest, Ne, mul_left_inj' place.ne'] at other
    have half := abs_ratioMantissa_sub_le divisor num
    -- two multiples that are as near are a place apart, so each is half a place away
    have apart : (1 : ℚ) ≤ |(multiple : ℚ) - ratioMantissa num den| := by
      have differ : multiple - ratioMantissa num den ≠ 0 := fun none =>
        other (by exact_mod_cast sub_eq_zero.mp none)
      exact_mod_cast Int.one_le_abs differ
    have through := abs_sub_le (multiple : ℚ) (num / den / 2 ^ lastPlace num den)
      (ratioMantissa num den)
    rw [tie, abs_sub_comm (num / den / 2 ^ lastPlace num den : ℚ)] at through
    exact ratioMantissa_even_of_half divisor (by linarith)
  · have least := ratioNearest_near_least divisor num
    rw [← tie, abs_of_nonpos (by linarith), abs_of_nonpos (by linarith)] at least
    linarith

/-- What is rounded within the range of the format lies below the overflow. -/
theorem lt_overflow (small : ratioNearest num den < 2 ^ (1024 : Int)) :
    (num : ℚ) / den < overflow := by
  rcases lt_trichotomy (lastPlace num den) 971 with finer | last | coarser
  · refine lt_overflow_of_lt ((lt_zpow_lastPlace numerator divisor).trans_le ?_)
    exact zpow_le_zpow_right₀ (by norm_num) (by omega)
  · by_contra beyond
    have power : (2 : ℚ) ^ (53 : Int) = (Nat.pow 2 53 : Nat) := cast_pow_two 53 ▸ rfl
    have half := abs_ratioMantissa_sub_le divisor num
    rw [last] at half
    rw [not_lt, overflow_eq, ← le_div_iff₀ (zpow_two_pos _), power] at beyond
    rw [ratioNearest, last, show (1024 : Int) = 53 + 971 from rfl, zpow_two_add,
      mul_lt_mul_iff_left₀ (zpow_two_pos _), power, Nat.cast_lt] at small
    -- only the greatest mantissa is left, half a place below the ratio, and it is odd
    have low := (abs_le.mp half).1
    have greatest : (Nat.pow 2 53 : Nat) ≤ ratioMantissa num den + 1 := by
      exact_mod_cast (by linarith : ((Nat.pow 2 53 : Nat) : ℚ) ≤ ratioMantissa num den + 1)
    have size : ratioMantissa num den + 1 = Nat.pow 2 53 := by omega
    have even : ratioMantissa num den % 2 = 0 := by
      apply ratioMantissa_even_of_half divisor
      rw [← size, Nat.cast_add, Nat.cast_one] at beyond
      rw [last]
      generalize (num : ℚ) / den / 2 ^ (971 : Int) = ratio at beyond low
      rw [abs_of_nonpos (by linarith)]
      linarith
    have odd : (Nat.pow 2 53) % 2 = 0 := rfl
    omega
  · have full := le_ratioMantissa numerator divisor (by omega)
    refine absurd small (not_lt.mpr (le_trans ?_ (le_mul_zpow full _)))
    exact zpow_le_zpow_right₀ (by norm_num) (by omega)

/-- What is rounded past the range of the format does not lie below the overflow. -/
theorem overflow_le (large : 2 ^ (1024 : Int) ≤ ratioNearest num den) :
    overflow ≤ (num : ℚ) / den := by
  rcases le_or_gt (lastPlace num den) 971 with within | beyond
  · have half := (abs_le.mp (abs_ratioMantissa_sub_le divisor num)).2
    rw [sub_le_iff_le_add', ← sub_le_iff_le_add, le_div_iff₀ (zpow_two_pos _), sub_mul] at half
    have place : (2 : ℚ) ^ lastPlace num den ≤ 2 ^ (970 : Int) * 2 := by
      rw [← zpow_add_one₀ (by norm_num)]
      exact zpow_le_zpow_right₀ (by norm_num) within
    rw [ratioNearest] at large
    rw [overflow]
    linarith
  · have reached := zpow_lastPlace_le numerator divisor (by omega)
    refine overflow_lt.le.trans (le_trans ?_ reached)
    exact zpow_le_zpow_right₀ (by norm_num) (by omega)

end Tie

/-- What a magnitude with a sign in front of it is rounded to: the nearest number of the format, of
two the one with the even mantissa, and infinity from the overflow on. -/
inductive Rounds (negative : Bool) (size : ℚ) : Binary64 → Prop
  | finite {mantissa : Nat} {exponent : Int} {canonical : Canonical mantissa exponent}
    (within : size < overflow)
    (nearest : IsNearest (.finite negative mantissa exponent canonical) (signed negative size))
    (even : ∀ y : Binary64, y.isFinite = true →
      y.toRat ≠ (finite negative mantissa exponent canonical).toRat →
      |y.toRat - signed negative size| =
        |(finite negative mantissa exponent canonical).toRat - signed negative size| →
      mantissa % 2 = 0) :
    Rounds negative size (.finite negative mantissa exponent canonical)
  | infinity (beyond : overflow ≤ size) : Rounds negative size (.infinity negative)

section Rounds

variable {negative : Bool} {num den : Nat}

/-- A zero of either sign is the finite number of the mantissa zero at the smallest exponent. -/
theorem signedZero_eq (negative : Bool) :
    signedZero negative = .finite negative 0 (-1074) canonical_zero := by
  rw [signedZero, pack, dif_pos canonical_zero]

/-- A number with a sign in front of it. -/
theorem exists_signed (negative : Bool) {y : Binary64} (finite : y.isFinite = true) :
    ∃ z : Binary64, z.isFinite = true ∧ y.toRat = signed negative z.toRat := by
  cases negative with
  | false => exact ⟨y, finite, rfl⟩
  | true =>
    refine ⟨y.negate, (isFinite_negate y).trans finite, ?_⟩
    rw [toRat_negate finite, signed, if_pos rfl, neg_neg]

/-- A finite number lies within the range of the format. -/
theorem abs_toRat_lt {x : Binary64} (finite : x.isFinite = true) :
    |x.toRat| < 2 ^ (1024 : Int) := by
  match x, finite with
  | .finite negative mantissa exponent canonical, _ =>
    rw [toRat_finite, abs_signed, abs_of_nonneg (by positivity)]
    have reach := canonical.2.2.1
    exact (mul_zpow_lt canonical.1 exponent).trans_le
      (zpow_le_zpow_right₀ (by norm_num) (by omega))

/-- A finite number that a ratio is rounded to has the mantissa of the ratio or a carried one. -/
theorem exists_finite_ofRatio (numerator : 0 < num)
    (finite : (ofRatio negative num den).isFinite = true) :
    ∃ mantissa exponent, ∃ canonical : Canonical mantissa exponent,
      ofRatio negative num den = .finite negative mantissa exponent canonical ∧
        (ratioMantissa num den % 2 = 0 → mantissa % 2 = 0) := by
  rw [ofRatio_eq numerator] at finite ⊢
  split_ifs at finite ⊢ with carried
  all_goals have canonical := canonical_of_isFinite_pack finite
  · exact ⟨_, _, canonical, dif_pos canonical, fun _ => rfl⟩
  · exact ⟨_, _, canonical, dif_pos canonical, id⟩

/-- A ratio that is not rounded to a finite number is rounded to the infinity of its sign. -/
theorem ofRatio_of_not_isFinite (numerator : 0 < num)
    (beyond : (ofRatio negative num den).isFinite = false) :
    ofRatio negative num den = .infinity negative := by
  rw [ofRatio_eq numerator] at beyond ⊢
  split_ifs at beyond ⊢ with carried
  all_goals exact dif_neg fun canonical => by simp [isFinite_pack canonical] at beyond

/-- **A ratio is rounded as the format demands.** -/
theorem rounds_ofRatio (negative : Bool) (num : Nat) (divisor : 0 < den) :
    Rounds negative (num / den) (ofRatio negative num den) := by
  rcases Nat.eq_zero_or_pos num with rfl | numerator
  · have finite : (ofRatio negative 0 den).isFinite = true := isFinite_signedZero negative
    have nearest := isNearest_ofRatio negative divisor finite
    rw [ofRatio_zero, signedZero_eq] at nearest ⊢
    refine .finite (lt_overflow_of_lt ?_) nearest fun _ _ _ _ => rfl
    rw [Nat.cast_zero, zero_div]
    exact zpow_two_pos _
  · by_cases small : ratioNearest num den < 2 ^ (1024 : Int)
    · have finite : (ofRatio negative num den).isFinite = true :=
        isFinite_ofRatio_of_ratioNearest numerator divisor small
      have nearest := isNearest_ofRatio negative divisor finite
      have value := toRat_ofRatio numerator divisor finite
      obtain ⟨mantissa, exponent, canonical, made, kept⟩ := exists_finite_ofRatio numerator finite
      rw [made] at nearest value ⊢
      refine .finite (lt_overflow numerator divisor small) nearest fun y other differs tie =>
        kept ?_
      -- a sign in front of the ratio is the same one in front of its rivals
      obtain ⟨rival, rivalFinite, same⟩ := exists_signed negative other
      rw [value, same] at differs
      rw [value, same, abs_signed_sub_signed, abs_signed_sub_signed] at tie
      exact ratioMantissa_even numerator divisor rivalFinite (mt (congrArg _) differs) tie
    · have beyond : (ofRatio negative num den).isFinite = false := by
        rw [Bool.eq_false_iff]
        intro finite
        have bound := abs_toRat_lt finite
        rw [toRat_ofRatio numerator divisor finite, abs_signed] at bound
        exact small (lt_of_abs_lt bound)
      rw [ofRatio_of_not_isFinite numerator beyond]
      exact .infinity (overflow_le numerator divisor (not_lt.mp small))

/-- A number of the format that is not zero is as large as the least positive one. -/
theorem le_abs_toRat {y : Binary64} (finite : y.isFinite = true) (some : y.toRat ≠ 0) :
    2 ^ (-1074 : Int) ≤ |y.toRat| := by
  match y, finite with
  | .finite negative mantissa exponent canonical, _ =>
    rw [toRat_finite] at some ⊢
    rw [abs_signed, abs_of_nonneg (by positivity)]
    have filled : (1 : ℚ) ≤ mantissa := by
      refine Nat.one_le_cast.mpr (Nat.one_le_iff_ne_zero.mpr ?_)
      rintro rfl
      simp [signed] at some
    calc
      (2 : ℚ) ^ (-1074 : Int) ≤ 2 ^ exponent := zpow_le_zpow_right₀ (by norm_num) canonical.2.1
      _ = 1 * 2 ^ exponent := (one_mul _).symm
      _ ≤ mantissa * 2 ^ exponent := mul_le_mul_of_nonneg_right filled (zpow_two_pos _).le

/-- A magnitude that half the least positive number is above becomes zero. -/
theorem rounds_signedZero (negative : Bool) {size : ℚ} (nonneg : 0 ≤ size)
    (tiny : size < 2 ^ (-1075 : Int)) : Rounds negative size (signedZero negative) := by
  have zero := toRat_signedZero negative
  have least : (2 : ℚ) ^ (-1074 : Int) = 2 * 2 ^ (-1075 : Int) := by
    rw [show (-1074 : Int) = 1 + -1075 from rfl, zpow_two_add, zpow_one]
  rw [signedZero_eq] at zero ⊢
  refine .finite (lt_overflow_of_lt (tiny.trans_le ?_)) ⟨rfl, fun y finite => ?_⟩
    fun _ _ _ _ => rfl
  · exact zpow_le_zpow_right₀ (by norm_num) (by norm_num)
  · rw [zero, zero_sub, abs_neg, abs_signed, abs_of_nonneg nonneg]
    by_cases none : y.toRat = 0
    · rw [none, zero_sub, abs_neg, abs_signed]
      exact le_abs_self size
    · have reach := le_abs_toRat finite none
      have through := abs_sub_abs_le_abs_sub y.toRat (signed negative size)
      rw [abs_signed, abs_of_nonneg nonneg] at through
      linarith

theorem zpow_ten_add (first second : Int) :
    (10 : ℚ) ^ (first + second) = 10 ^ first * 10 ^ second :=
  zpow_add₀ (by norm_num) first second

theorem zpow_ten_pos (exponent : Int) : (0 : ℚ) < 10 ^ exponent :=
  zpow_pos (by norm_num) exponent

/-- A power of two below a power of ten. -/
theorem zpow_two_le_zpow_ten (places : Nat) :
    (2 : ℚ) ^ (3 * places : Int) ≤ 10 ^ (places : Int) := by
  rw [zpow_mul, zpow_natCast, zpow_natCast]
  exact pow_le_pow_left₀ (by norm_num) (by norm_num) places

section Decimal

open Text

theorem length_decimalText_pos (number : Nat) : 0 < (decimalText number).length :=
  List.length_pos_iff.mpr (decimalText_ne_nil number)

/-- A decimal number lies below the power of ten that its digits reach to. -/
theorem decimal_lt (digits : Nat) (exponent : Int) :
    (digits : ℚ) * 10 ^ exponent < 10 ^ ((decimalText digits).length + exponent) := by
  have few := (length_decimalText_le_iff (length_decimalText_pos digits)).mp le_rfl
  rw [zpow_ten_add, zpow_natCast]
  exact mul_lt_mul_of_pos_right (by exact_mod_cast few) (zpow_ten_pos exponent)

/-- A decimal number that is not zero reaches the power of ten of its first digit. -/
theorem le_decimal {digits : Nat} (some : digits ≠ 0) (exponent : Int) :
    10 ^ ((decimalText digits).length - 1 + exponent) ≤ (digits : ℚ) * 10 ^ exponent := by
  have reached : Nat.pow 10 ((decimalText digits).length - 1) ≤ digits := by
    rcases Nat.eq_zero_or_pos ((decimalText digits).length - 1) with single | further
    · rw [single]
      exact Nat.one_le_iff_ne_zero.mpr some
    · refine Nat.le_of_not_lt (mt (length_decimalText_le_iff further).mpr ?_)
      omega
  have length :
      ((decimalText digits).length : Int) - 1 = ((decimalText digits).length - 1 : Nat) := by
    have filled := length_decimalText_pos digits
    omega
  rw [length, zpow_ten_add, zpow_natCast]
  exact mul_le_mul_of_nonneg_right (by exact_mod_cast reached) (zpow_ten_pos exponent).le

/-- **A decimal number is rounded as the format demands.** -/
theorem rounds_ofDecimal (negative : Bool) (digits : Nat) (exponent : Int) :
    Rounds negative (digits * 10 ^ exponent) (ofDecimal negative digits exponent) := by
  have far := zpow_two_le_zpow_ten 400
  rw [ofDecimal]
  dsimp only
  split_ifs with low high
  · refine rounds_signedZero negative (by positivity) ?_
    rcases low with rfl | low
    · rw [Nat.cast_zero, zero_mul]
      exact zpow_two_pos _
    · calc
        (digits : ℚ) * 10 ^ exponent < 10 ^ ((decimalText digits).length + exponent) :=
          decimal_lt digits exponent
        _ ≤ 10 ^ (-(400 : Nat) : Int) := zpow_le_zpow_right₀ (by norm_num) low.le
        _ ≤ 2 ^ (-(3 * (400 : Nat)) : Int) := by
          rw [zpow_neg, zpow_neg]
          exact inv_anti₀ (zpow_two_pos _) far
        _ ≤ 2 ^ (-1075 : Int) := zpow_le_zpow_right₀ (by norm_num) (by norm_num)
  · refine .infinity (overflow_lt.le.trans ?_)
    calc
      (2 : ℚ) ^ (1024 : Int) ≤ 2 ^ (3 * (400 : Nat) : Int) :=
        zpow_le_zpow_right₀ (by norm_num) (by norm_num)
      _ ≤ 10 ^ ((400 : Nat) : Int) := far
      _ ≤ 10 ^ ((decimalText digits).length - 1 + exponent) :=
        zpow_le_zpow_right₀ (by norm_num) (by omega)
      _ ≤ (digits : ℚ) * 10 ^ exponent := le_decimal (not_or.mp low).1 exponent
  · have positive := scaleDown_pos digits (Nat.succ_pos 9) Nat.one_pos (-exponent)
    have ratio := scaleDown_div digits 1 (Nat.succ_pos 9) (-exponent)
    rw [Nat.cast_one, div_one, zpow_neg, div_inv_eq_mul] at ratio
    have rounded := rounds_ofRatio negative (scaleDown 10 (-exponent) digits 1).1 positive
    rwa [ratio] at rounded

end Decimal

end Rounds

section Unique

variable {negative : Bool} {size : ℚ} {mantissa other : Nat} {exponent place : Int}

/-- A number with a finer last place is less. -/
theorem lt_of_finer (canonical : Canonical mantissa exponent) (also : Canonical other place)
    (finer : place < exponent) : (other : ℚ) * 2 ^ place < mantissa * 2 ^ exponent := by
  have least := also.2.1
  calc
    (other : ℚ) * 2 ^ place < 2 ^ (53 + place) := mul_zpow_lt also.1 place
    _ ≤ 2 ^ (52 + exponent) := zpow_le_zpow_right₀ (by norm_num) (by omega)
    _ ≤ mantissa * 2 ^ exponent := le_mul_zpow (canonical.2.2.2.resolve_left (by omega)) exponent

/-- A greater number of the format is a whole step of the lesser one greater. -/
theorem succ_mul_le (canonical : Canonical mantissa exponent) (also : Canonical other place)
    (less : (mantissa : ℚ) * 2 ^ exponent < other * 2 ^ place) :
    ((mantissa + 1 : Nat) : ℚ) * 2 ^ exponent ≤ other * 2 ^ place := by
  rcases le_or_gt exponent place with coarser | finer
  · obtain ⟨gap, further⟩ := Int.le.dest coarser
    have multiple :
        (other : ℚ) * 2 ^ place = ((other * Nat.pow 2 gap : Nat) : ℚ) * 2 ^ exponent := by
      rw [← further, zpow_two_add, Nat.cast_mul, cast_pow_two]
      ring
    rw [multiple, mul_lt_mul_iff_left₀ (zpow_two_pos exponent), Nat.cast_lt] at less
    rw [multiple]
    exact mul_le_mul_of_nonneg_right (Nat.cast_le.mpr less) (zpow_two_pos exponent).le
  · exact absurd less (lt_of_finer canonical also finer).not_gt

/-- With the same sign, different sizes give different numbers. -/
theorem signed_injective (negative : Bool) : Function.Injective (signed negative) := by
  cases negative
  · exact Function.injective_id
  · exact neg_injective

/-- A number of the format has one mantissa and one exponent. -/
theorem canonical_unique (canonical : Canonical mantissa exponent) (also : Canonical other place)
    (same : (mantissa : ℚ) * 2 ^ exponent = other * 2 ^ place) :
    mantissa = other ∧ exponent = place := by
  rcases lt_trichotomy exponent place with finer | rfl | finer
  · exact absurd same (lt_of_finer also canonical finer).ne
  · exact ⟨Nat.cast_injective (mul_right_cancel₀ (zpow_two_pos exponent).ne' same), rfl⟩
  · exact absurd same.symm (lt_of_finer canonical also finer).ne

/-- Of two numbers that are as near, the lesser one is followed by a nearer one or by an odd one. -/
theorem not_lt_of_even (canonical : Canonical mantissa exponent) (also : Canonical other place)
    (even : mantissa % 2 = 0) (alsoEven : other % 2 = 0)
    (nearest : IsNearest (.finite negative mantissa exponent canonical) (signed negative size))
    (tie : |(mantissa : ℚ) * 2 ^ exponent - size| = |(other : ℚ) * 2 ^ place - size|) :
    ¬(mantissa : ℚ) * 2 ^ exponent < other * 2 ^ place := by
  intro less
  have next : Canonical (mantissa + 1) exponent := by
    obtain ⟨bits, least, most, full⟩ := canonical
    have whole : Nat.pow 2 53 % 2 = 0 := rfl
    exact ⟨by omega, least, most, full.imp_right fun reached => by omega⟩
  have near := nearest.near (.finite negative (mantissa + 1) exponent next) rfl
  rw [toRat_finite, toRat_finite, abs_signed_sub_signed, abs_signed_sub_signed] at near
  have step : (mantissa : ℚ) * 2 ^ exponent < (mantissa + 1 : Nat) * 2 ^ exponent :=
    mul_lt_mul_of_pos_right (Nat.cast_lt.mpr mantissa.lt_succ_self) (zpow_two_pos exponent)
  have reach := succ_mul_le canonical also less
  have middle : (mantissa : ℚ) * 2 ^ exponent - size = -(other * 2 ^ place - size) :=
    (abs_eq_abs.mp tie).resolve_left fun same => less.ne (sub_left_inj.mp same)
  rcases reach.eq_or_lt with reached | short
  · have odd := (canonical_unique next also reached).1
    omega
  · refine absurd near (not_le.mpr ?_)
    rw [abs_of_nonpos (by linarith : (mantissa : ℚ) * 2 ^ exponent - size ≤ 0), abs_lt]
    constructor <;> linarith

/-- **There is one number that a magnitude is rounded to.** -/
theorem Rounds.unique {x y : Binary64} (first : Rounds negative size x)
    (second : Rounds negative size y) : x = y := by
  cases first with
  | infinity beyond =>
    cases second with
    | infinity => rfl
    | finite within => exact absurd within (not_lt.mpr beyond)
  | @finite mantissa exponent canonical within nearest even =>
    cases second with
    | infinity beyond => exact absurd within (not_lt.mpr beyond)
    | @finite other place alsoCanonical _ also alsoEven =>
      have tie := le_antisymm (nearest.near _ also.finite) (also.near _ nearest.finite)
      by_cases same : (mantissa : ℚ) * 2 ^ exponent = other * 2 ^ place
      · obtain ⟨rfl, rfl⟩ := canonical_unique canonical alsoCanonical same
        rfl
      · have differ := (signed_injective negative).ne same
        rw [← toRat_finite negative mantissa exponent canonical,
          ← toRat_finite negative other place alsoCanonical] at differ
        have parity := even _ also.finite differ.symm tie.symm
        have alsoParity := alsoEven _ nearest.finite differ tie
        rw [toRat_finite, toRat_finite, abs_signed_sub_signed, abs_signed_sub_signed] at tie
        rcases lt_or_gt_of_ne same with less | less
        · exact absurd less (not_lt_of_even canonical alsoCanonical parity alsoParity nearest tie)
        · exact absurd less (not_lt_of_even alsoCanonical canonical alsoParity parity also tie.symm)

end Unique

end Binary64
end Stencil
