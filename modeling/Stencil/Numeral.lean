import Stencil.Binary64.Literal
import Stencil.Fault

/-!
# Integer numerals

A numeral is a sign, a mark of its base and digits; blanks may stand around it, and all but the
digits may be missing. Decimal digits of every script count, and so do the letters of the larger
bases. Only the length of a numeral in base ten is limited.
-/

namespace Stencil.Numeral

/-- The value of a digit in a base. -/
def digitValue? (base : Nat) (c : Char) : Option Nat :=
  ((Text.decimalValue? c).or (Text.hexValue? c)).filter (· < base)

/-- The letter that marks the numerals of a base. -/
def markOf? (base : Nat) : Option Char :=
  if base = 2 then some 'b' else if base = 8 then some 'o' else if base = 16 then some 'x' else none

/-- A numeral without the mark of its base. -/
def dropMark (base : Nat) (text : List Char) : List Char :=
  match text with
  | '0' :: c :: rest => if markOf? base = some c.toLower then rest else text
  | _ => text

/-- The number that digits denote in a base, the most significant first. -/
def natural (base : Nat) (digits : List Char) : Nat :=
  digits.foldl (fun number c => number * base + (digitValue? base c).getD 0) 0

/-- The integer that a whole text spells in a base. -/
def read (base : Nat) (text : List Char) : Outcome Int :=
  let (negative, unsigned) := NumberLiteral.takeSign (Text.trim text)
  let body := dropMark base unsigned
  let digits := body.takeWhile fun c => (digitValue? base c).isSome
  if base = 10 ∧ digitLimit < digits.length then .error (.longNumeral digits.length)
  else if digits.isEmpty || digits.length < body.length then
    .error (.notInteger base (String.ofList text))
  else
    let size : Int := natural base digits
    .ok (if negative then -size else size)

end Stencil.Numeral
