import Stencil.Binary64.Basic

/-!
# Rounding to the double format

A ratio of natural numbers is rounded to the nearest number of the format, a tie going to the
even mantissa and a magnitude past the largest finite number to infinity. Integers, sums and
products are exact ratios rounded in this way.
-/

namespace Stencil

/-- The natural number nearest to a ratio, a tie going to the even one. -/
def roundHalfEven (num den : Nat) : Nat :=
  let quotient := num / den
  let doubled := 2 * (num % den)
  if den < doubled ∨ (doubled = den ∧ quotient % 2 = 1) then quotient + 1 else quotient

/-- The natural number nearest to a ratio, a tie going to the greater one. -/
def roundHalfUp (num den : Nat) : Nat :=
  (2 * num + den) / (2 * den)

/-- The ratio `num / den` divided by `base ^ exponent`, as a ratio of natural numbers. -/
def scaleDown (base : Nat) (exponent : Int) (num den : Nat) : Nat × Nat :=
  (num * Nat.pow base (-exponent).toNat, den * Nat.pow base exponent.toNat)

/-- The exponent of the greatest power of `base` that a positive ratio reaches, from a guess that
is that exponent or one more. -/
def settleExponent (base : Nat) (guess : Int) (num den : Nat) : Int :=
  let (scaledNum, scaledDen) := scaleDown base guess num den
  if scaledNum < scaledDen then guess - 1 else guess

namespace Binary64

/-- The exponent of the last place of a positive ratio in the double format. -/
def lastPlace (num den : Nat) : Int :=
  max (settleExponent 2 ((Nat.log2 num : Int) - Nat.log2 den) num den - 52) (-1074)

/-- The number of the given sign nearest to a ratio. -/
def ofRatio (negative : Bool) (num den : Nat) : Binary64 :=
  if num = 0 then signedZero negative
  else
    let exponent := lastPlace num den
    let (scaledNum, scaledDen) := scaleDown 2 exponent num den
    let mantissa := roundHalfEven scaledNum scaledDen
    if mantissa = Nat.pow 2 53 then pack negative (Nat.pow 2 52) (exponent + 1)
    else pack negative mantissa exponent

/-- The finite number nearest to an integer, if the integer is in range. -/
def ofInt? (n : Int) : Option Binary64 :=
  let x := ofRatio (n < 0) n.natAbs 1
  if x.isFinite then some x else none

/-- The sum of two finite numbers, rounded once. An exact zero is positive unless both terms are
negative. -/
def addFinite (x y : Binary64) : Binary64 :=
  let sum := x.units + y.units
  if sum = 0 then signedZero (x.isNegative && y.isNegative)
  else ofRatio (sum < 0) sum.natAbs unitsPerOne

/-- The sum of two numbers; infinities of different signs have none. -/
def add : Binary64 → Binary64 → Binary64
  | .nan, _ => .nan
  | _, .nan => .nan
  | .infinity first, .infinity second => if first = second then .infinity first else .nan
  | .infinity negative, _ => .infinity negative
  | _, .infinity negative => .infinity negative
  | x, y => addFinite x y

/-- The product of two finite numbers, rounded once. -/
def mulFinite (x y : Binary64) : Binary64 :=
  ofRatio (x.isNegative != y.isNegative) (x.magnitude * y.magnitude) (unitsPerOne * unitsPerOne)

/-- The product of two numbers; an infinity and zero have none. -/
def mul (x y : Binary64) : Binary64 :=
  if x = .nan ∨ y = .nan then .nan
  else if x.isFinite && y.isFinite then mulFinite x y
  else if (x.isFinite && x.magnitude == 0) || (y.isFinite && y.magnitude == 0) then .nan
  else .infinity (x.isNegative != y.isNegative)

/-- A finite number divided by a positive integer, rounded once. -/
def divNat (x : Binary64) (divisor : Nat) : Binary64 :=
  ofRatio x.isNegative x.magnitude (unitsPerOne * divisor)

/-- A finite number rounded to a multiple of `10 ^ -places`, as that multiple: the nearest one to
the exact binary value, a tie going away from zero. -/
def roundedMultiple (places : Nat) (x : Binary64) : Nat :=
  roundHalfUp (x.magnitude * Nat.pow 10 places) unitsPerOne

/-- The number of the given sign nearest to a multiple of `10 ^ -places`. -/
def ofMultiple (negative : Bool) (multiple places : Nat) : Binary64 :=
  ofRatio negative multiple (Nat.pow 10 places)

end Binary64
end Stencil
