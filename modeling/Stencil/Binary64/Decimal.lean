import Stencil.Binary64.Rounding
import Stencil.Text.Digit

/-!
# Decimal text of a double

`Binary64.shortest` gives the fewest decimal digits that read back as the same number, and of
several such the nearest to it; a tie goes to the even digit. A `NumberLayout` record tells how
digits and exponent are laid out. `Binary64.ofDecimal` is the way back.
-/

namespace Stencil

/-- A positive decimal number `digits * 10 ^ exponent`. -/
structure Decimal where
  digits : Nat
  exponent : Int
  deriving DecidableEq, Repr

namespace Binary64

/-- The reals that round to a positive number of the given mantissa, as multiples of a quarter of
the last place: the ends and the number itself. Below a power of two the neighbours are half as
far apart. -/
def roundingInterval (mantissa : Nat) (exponent : Int) : Nat × Nat × Nat :=
  let lower := if mantissa = Nat.pow 2 52 ∧ -1074 < exponent then 1 else 2
  (4 * mantissa - lower, 4 * mantissa, 4 * mantissa + 2)

/-- Of the two neighbours of `value / den` on the grid of whole numbers, the nearer one whose
product with `den` lies between `low` and `high`; the ends count if `closed`. -/
def gridPoint? (closed : Bool) (low value high den : Nat) : Option Nat :=
  let below := value / den
  let within (point : Nat) : Bool :=
    if closed then low ≤ point * den && point * den ≤ high
    else low < point * den && point * den < high
  let preferred := roundHalfEven value den
  let other := if preferred = below then below + 1 else below
  if within preferred then some preferred else if within other then some other else none

/-- The fewest decimal digits that read back as the number of this positive mantissa. -/
def shortest (mantissa : Nat) (exponent : Int) : Decimal :=
  let (low, value, high) := roundingInterval mantissa exponent
  let unit := Nat.pow 2 (exponent - 2).toNat
  let den := Nat.pow 2 (2 - exponent).toNat
  let guess := ((Text.decimalText (value * unit)).length : Int) - (Text.decimalText den).length
  let lead := settleExponent 10 guess (value * unit) den
  let attempt (count : Nat) : Option Decimal :=
    let place := lead - count
    let scale := unit * Nat.pow 10 (-place).toNat
    let scaledDen := den * Nat.pow 10 place.toNat
    (gridPoint? (mantissa % 2 == 0) (low * scale) (value * scale) (high * scale) scaledDen).map
      (⟨·, place⟩)
  ((List.range 17).findSome? attempt).getD ⟨value * unit / den, 0⟩

/-- The number of the given sign nearest to `digits * 10 ^ exponent`. Beyond the reach of the
format the exponent alone decides. -/
def ofDecimal (negative : Bool) (digits : Nat) (exponent : Int) : Binary64 :=
  let reach := ((Text.decimalText digits).length : Int) + exponent
  if digits = 0 ∨ reach < -400 then signedZero negative
  else if 400 < reach then .infinity negative
  else
    let (num, den) := scaleDown 10 (-exponent) digits 1
    ofRatio negative num den

end Binary64

/-- How a decimal number is laid out. -/
structure NumberLayout where
  /-- The least exponent of the leading digit for which no exponent is written. -/
  positionalFrom : Int
  /-- The greatest exponent of the leading digit for which no exponent is written. -/
  positionalTo : Int
  /-- The least number of digits of a written exponent. -/
  exponentWidth : Nat
  /-- What follows a number without fraction in positional layout. -/
  wholeMark : List Char

namespace NumberLayout

/-- A decimal number with its exponent written out after the leading digit. -/
def scientific (layout : NumberLayout) (digits : List Char) (lead : Int) : List Char :=
  let mantissa := match digits with
    | first :: second :: rest => first :: '.' :: second :: rest
    | short => short
  let sign := if lead < 0 then '-' else '+'
  mantissa ++ 'e' :: sign :: Text.paddedText layout.exponentWidth lead.natAbs

/-- A decimal number with the point at its place. -/
def positional (layout : NumberLayout) (digits : List Char) (lead : Int) : List Char :=
  if lead < 0 then '0' :: '.' :: List.replicate (-lead - 1).toNat '0' ++ digits
  else
    let wholeLength := (lead + 1).toNat
    if digits.length ≤ wholeLength then
      digits ++ List.replicate (wholeLength - digits.length) '0' ++ layout.wholeMark
    else digits.take wholeLength ++ '.' :: digits.drop wholeLength

/-- A decimal number in a layout: with a point, or with an exponent if its leading digit stands too
far from the point. -/
def write (layout : NumberLayout) (number : Decimal) : List Char :=
  let all := Text.decimalText number.digits
  let digits := (all.reverse.dropWhile (· == '0')).reverse
  let lead := (all.length : Int) + number.exponent - 1
  if layout.positionalFrom ≤ lead ∧ lead ≤ layout.positionalTo then
    layout.positional digits lead
  else layout.scientific digits lead

/-- The plain layout: a fraction is always written, an exponent has two digits or more and is
used from `10 ^ 16` upwards and below `10 ^ -4`. -/
def plain : NumberLayout := ⟨-4, 15, 2, ['.', '0']⟩

/-- The layout of values shown in text: as the plain one, without padding of the exponent and
without a fraction on whole numbers. -/
def shown : NumberLayout := ⟨-4, 15, 1, []⟩

end NumberLayout

namespace Binary64

/-- The text of a finite number in a layout, by the shortest digits that stand for it. -/
def finiteText (layout : NumberLayout) (negative : Bool) (mantissa : Nat) (exponent : Int) :
    List Char :=
  let body :=
    if mantissa = 0 then '0' :: layout.wholeMark else layout.write (shortest mantissa exponent)
  if negative then '-' :: body else body

/-- The text of a number in the plain layout, with words for what is no finite number. -/
def plainText : Binary64 → String
  | .nan => "nan"
  | .infinity negative => if negative then "-inf" else "inf"
  | .finite negative mantissa exponent _ =>
    String.ofList (finiteText .plain negative mantissa exponent)

end Binary64
end Stencil
