import Stencil.Calendar.Iso
import Stencil.Calendar.Pattern
import Stencil.Value.Basic

/-!
# Values as moments

Dates begin at midnight, numbers count milliseconds of the epoch, and texts are read in the
international and then in the written forms.
-/

namespace Stencil

/-- A number of seconds as whole microseconds: the fraction is taken to microseconds in the double
format, and then a half goes to the even one. -/
def Binary64.epochMicros (seconds : Binary64) : Int :=
  let whole := seconds.magnitude / unitsPerOne
  let fraction := seconds.magnitude % unitsPerOne
  let micros := ofRatio false (fraction * 1000000) unitsPerOne
  let size : Int := whole * 1000000 + roundHalfEven micros.magnitude unitsPerOne
  if seconds.isNegative then -size else size

/-- The moment so many seconds after the epoch began. -/
def momentOfSeconds? (seconds : Binary64) : Option Calendar.Moment :=
  if seconds.isFinite then Calendar.Moment.ofEpochMicros? seconds.epochMicros else none

/-- The moment that a text spells in any of the forms that are read. -/
def momentOfText? (text : String) : Option Calendar.Moment :=
  let trimmed := Text.trim text.toList
  (Calendar.Iso.moment? trimmed).or ((Calendar.Pattern.anyForm? trimmed).map .startOf)

/-- The moment that a value stands for: numbers count milliseconds. -/
def Value.moment? : Value → Option Calendar.Moment
  | .moment m => some m
  | .date d => some (.startOf d)
  | .int n => momentOfSeconds? (Binary64.ofRatio (n < 0) n.natAbs 1000)
  | .float x => if x.isFinite then momentOfSeconds? (x.divNat 1000) else none
  | .text s => momentOfText? s
  | _ => none

end Stencil
