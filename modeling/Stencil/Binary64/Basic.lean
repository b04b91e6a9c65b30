/-!
# Binary floating point numbers

A number in the double format is not a number, an infinity, or a sign with a mantissa and an
exponent of two. Every finite one is a whole number of units, the unit being the least positive
number of the format; comparison and arithmetic are exact on units and rounded once. The unit
view is `Binary64.units`.
-/

namespace Stencil

/-- The mantissas and exponents of finite numbers: at most fifty-three bits, and exactly so many
unless the exponent is the least one. -/
def Canonical (mantissa : Nat) (exponent : Int) : Prop :=
  mantissa < Nat.pow 2 53 ∧ -1074 ≤ exponent ∧ exponent ≤ 971
    ∧ (exponent = -1074 ∨ Nat.pow 2 52 ≤ mantissa)

instance (mantissa : Nat) (exponent : Int) : Decidable (Canonical mantissa exponent) :=
  inferInstanceAs (Decidable (_ ∧ _ ∧ _ ∧ _))

/-- A number in the double format. Each has one form, so equality of forms tells apart what the
format tells apart, the two zeros included. -/
inductive Binary64
  | nan
  | infinity (negative : Bool)
  | finite (negative : Bool) (mantissa : Nat) (exponent : Int)
      (canonical : Canonical mantissa exponent)
  deriving DecidableEq, Repr

namespace Binary64

/-- The finite number of a sign, mantissa and exponent, or the infinity of that sign when they
are not those of a finite number. -/
def pack (negative : Bool) (mantissa : Nat) (exponent : Int) : Binary64 :=
  if canonical : Canonical mantissa exponent then .finite negative mantissa exponent canonical
  else .infinity negative

/-- The zero of a sign. -/
def signedZero (negative : Bool) : Binary64 :=
  pack negative 0 (-1074)

/-- How many units of the smallest subnormal number make one. -/
def unitsPerOne : Nat :=
  Nat.pow 2 1074

/-- The magnitude of a finite number in units, and zero for the others. -/
def magnitude : Binary64 → Nat
  | .finite _ mantissa exponent _ => mantissa * Nat.pow 2 (exponent + 1074).toNat
  | _ => 0

/-- Whether a number has a minus sign, which zeros and infinities may have too. -/
def isNegative : Binary64 → Bool
  | .nan => false
  | .infinity negative => negative
  | .finite negative _ _ _ => negative

/-- A finite number in units, and zero for the others. -/
def units (x : Binary64) : Int :=
  if x.isNegative then -x.magnitude else x.magnitude

/-- Whether a number is neither an infinity nor not a number. -/
def isFinite : Binary64 → Bool
  | .finite .. => true
  | _ => false

/-- Whether a number is finite and has no fraction. -/
def isWhole (x : Binary64) : Bool :=
  x.isFinite && x.magnitude % unitsPerOne == 0

/-- The integer part of a number, rounded towards zero. -/
def truncate (x : Binary64) : Int :=
  x.units.tdiv unitsPerOne

/-- The number of the same magnitude and sign plus. -/
def abs : Binary64 → Binary64
  | .nan => .nan
  | .infinity _ => .infinity false
  | .finite _ mantissa exponent canonical => .finite false mantissa exponent canonical

/-- The number of the same magnitude and opposite sign. -/
def negate : Binary64 → Binary64
  | .nan => .nan
  | .infinity negative => .infinity !negative
  | .finite negative mantissa exponent canonical => .finite (!negative) mantissa exponent canonical

/-- Equality as numbers: the zeros are equal, and what is not a number equals nothing. -/
def sameNumber : Binary64 → Binary64 → Bool
  | .nan, _ => false
  | _, .nan => false
  | .infinity a, .infinity b => a == b
  | .infinity _, _ => false
  | _, .infinity _ => false
  | x, y => x.units == y.units

/-- Whether a number is exactly a given integer. -/
def sameInteger (x : Binary64) (n : Int) : Bool :=
  x.isFinite && x.units == n * unitsPerOne

end Binary64
end Stencil
