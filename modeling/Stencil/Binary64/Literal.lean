import Stencil.Binary64.Decimal
import Stencil.Text.Blank

/-!
# Number literals

A literal is an optional sign, then the word for infinity or decimal digits of any script with an
optional point and exponent. `NumberLiteral.scan?` takes the longest literal off the front of a
text. `Binary64.read?` reads a whole text in the wider notation of data files, which allows
underscores between digits and the short words for infinity and not a number.
-/

namespace Stencil

/-- A number literal: digits before and after the point, and an exponent. -/
inductive NumberLiteral
  | infinity (negative : Bool)
  | decimal (negative : Bool) (whole fraction : List Char) (exponent : Int)
  deriving DecidableEq, Repr

namespace NumberLiteral

/-- The number that a literal stands for. -/
def value : NumberLiteral → Binary64
  | .infinity negative => .infinity negative
  | .decimal negative whole fraction exponent =>
    Binary64.ofDecimal negative (Text.decimalNumber (whole ++ fraction))
      (exponent - fraction.length)

/-- An optional sign at the front of a text, and the rest. -/
def takeSign : List Char → Bool × List Char
  | '-' :: rest => (true, rest)
  | '+' :: rest => (false, rest)
  | text => (false, text)

/-- The decimal digits at the front of a text, and the rest. -/
def takeDigits (text : List Char) : List Char × List Char :=
  (text.takeWhile Text.isDecimal, text.dropWhile Text.isDecimal)

/-- The exponent at the front of a text and the rest; without digits there is none. -/
def takeExponent : List Char → Int × List Char
  | [] => (0, [])
  | mark :: rest =>
    if mark = 'e' ∨ mark = 'E' then
      let (negative, unsigned) := takeSign rest
      let (digits, after) := takeDigits unsigned
      if digits.isEmpty then (0, mark :: rest)
      else
        let size : Int := Text.decimalNumber digits
        (if negative then -size else size, after)
    else (0, mark :: rest)

/-- The digits around a point at the front of a text, and the rest; at least one digit is
needed. -/
def takeMantissa? (text : List Char) : Option (List Char × List Char × List Char) :=
  match takeDigits text with
  | ([], '.' :: rest) =>
    match takeDigits rest with
    | ([], _) => none
    | (fraction, after) => some ([], fraction, after)
  | ([], _) => none
  | (whole, '.' :: rest) =>
    let (fraction, after) := takeDigits rest
    some (whole, fraction, after)
  | (whole, rest) => some (whole, [], rest)

/-- The longest decimal literal at the front of a text, and the rest. -/
def scanDecimal? (text : List Char) : Option (NumberLiteral × List Char) := do
  let (negative, unsigned) := takeSign text
  let (whole, fraction, rest) ← takeMantissa? unsigned
  let (exponent, rest) := takeExponent rest
  return (.decimal negative whole fraction exponent, rest)

/-- The longest literal at the front of a text, and the rest. -/
def scan? (text : List Char) : Option (NumberLiteral × List Char) :=
  let (negative, unsigned) := takeSign text
  let word := "Infinity".toList
  if word.isPrefixOf unsigned then some (.infinity negative, unsigned.drop word.length)
  else scanDecimal? text

/-- The decimal literal that is a whole text. -/
def ofText? (text : List Char) : Option NumberLiteral :=
  match scanDecimal? text with
  | some (literal, []) => some literal
  | _ => none

end NumberLiteral

namespace Binary64

/-- A text without the underscores that stand between two digits; none when an underscore stands
elsewhere. -/
def dropGrouping? : (afterDigit : Bool) → List Char → Option (List Char)
  | _, [] => some []
  | afterDigit, '_' :: rest =>
    if afterDigit && rest.head?.any Text.isDecimal then dropGrouping? false rest else none
  | _, c :: rest => (dropGrouping? (Text.isDecimal c) rest).map (c :: ·)

/-- The number that a whole text spells: blanks around it are dropped, the words are read in any
case, and underscores may group digits. -/
def read? (text : List Char) : Option Binary64 := do
  let body := Text.trim text
  let (negative, unsigned) := NumberLiteral.takeSign body
  let word := String.ofList (unsigned.map Char.toLower)
  if word = "inf" ∨ word = "infinity" then return .infinity negative
  if word = "nan" then return .nan
  let literal ← NumberLiteral.ofText? (← dropGrouping? false body)
  return literal.value

end Binary64
end Stencil
