import Stencil.Binary64.Literal
import Stencil.Value.Display

/-!
# Values as numbers

A number is itself. Any other value is displayed, and the longest number literal at the front of
that text counts.
-/

namespace Stencil.Value

/-- The number that the longest literal at the front of a text denotes, leading blanks aside. -/
def leadingNumber (text : String) : Binary64 :=
  match NumberLiteral.scan? (Text.trimStart text.toList) with
  | some (literal, _) => literal.value
  | none => .nan

/-- An integer as a number of the format, unless it is too large. -/
def integerNumber (n : Int) : Outcome Binary64 :=
  match Binary64.ofInt? n with
  | some x => .ok x
  | none => .error .integerTooLarge

/-- A value as a number; what has no number in front is not a number. -/
def toNumber : Value → Outcome Binary64
  | .int n => integerNumber n
  | .float x => .ok x
  | value => do return leadingNumber (← value.display)

/-- A value as an integer, its fraction dropped; an absent or empty value, and one that is no
finite number, counts as `fallback`. -/
def toInteger (value : Value) (fallback : Int) : Outcome Int :=
  match value with
  | .null | .undefined | .text "" => .ok fallback
  | value => do
    let x ← value.toNumber
    return if x.isFinite then x.truncate else fallback

end Stencil.Value
