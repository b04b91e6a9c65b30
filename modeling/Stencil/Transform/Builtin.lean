import Stencil.Text.Base64
import Stencil.Text.Case
import Stencil.Text.Percent
import Stencil.Text.Search
import Stencil.Transform.Registry
import Stencil.Value.Json
import Stencil.Value.Moment
import Stencil.Value.Number

/-!
# Built-in transformations

The eighteen transformations that every resolver knows unless it is given others. Those on text
work on the display text of their value, those on numbers on the number it denotes, and those on
sequences leave other values alone.
-/

namespace Stencil.Builtin

/-- The display text of a value, changed as a list of characters. -/
def onText (change : List Char → List Char) (value : Value) : Outcome Value := do
  return .text (String.ofList (change (← value.display).toList))

/-- Each word with its first letter in upper case and the others in lower case. -/
def capitalize (text : List Char) : List Char :=
  [' '].intercalate ((text.splitOn ' ').map Text.capitalizeWord)

/-- The first characters of the display text, with dots where something was cut off. -/
def truncate (value length : Value) : Outcome Value := do
  let text := (← value.display).toList
  let limit := (← length.toInteger 50).toNat
  return .text (String.ofList
    (if text.length ≤ limit then text else text.take limit ++ ['.', '.', '.']))

/-- The magnitude from which numbers have no digits after the point. -/
def roundingLimit : Nat :=
  Nat.pow 10 21

/-- The digits that a number below the rounding limit is worked out with: twenty-one in front of
the point and one more for a carry, and those of the places behind it. -/
def workingDigits (places : Nat) : Nat :=
  22 + places

/-- A finite number as the nearest multiple of `10 ^ -places`; one that has more than the given
digits is refused. -/
def quantize (digits places : Nat) (number : Binary64) : Outcome Nat :=
  let multiple := number.roundedMultiple places
  if multiple < Nat.pow 10 digits then .ok multiple
  else .error (.transformation "[<class 'decimal.InvalidOperation'>]")

/-- The number rounded to so many decimal places, a half away from zero. -/
def round (value decimals : Value) : Outcome Value := do
  let places ← decimals.toInteger 0
  if places < 0 ∨ 100 < places then .error (.placesOutOfRange places)
  else
    let number ← value.toNumber
    if !number.isFinite || roundingLimit * Binary64.unitsPerOne ≤ number.magnitude then
      return .float number
    else
      let multiple ← quantize (workingDigits places.toNat) places.toNat number
      return .float (.ofMultiple number.isNegative multiple places.toNat)

/-- The magnitude of a number. -/
def abs (value : Value) : Outcome Value := do
  return .float (← value.toNumber).abs

/-- The display texts of the items of a list, with a separator between them. -/
def join (value separator : Value) : Outcome Value :=
  match value with
  | .list items | .tuple items => do
    let between ← separator.display
    return .text (between.intercalate (← Value.displayItems items))
  | other => do return .text (← other.display)

/-- The first item of a sequence; other values stay. -/
def first : Value → Value
  | .list items | .tuple items => items.head?.getD .undefined
  | other => other

/-- The last item of a sequence; other values stay. -/
def last : Value → Value
  | .list items | .tuple items => items.getLast?.getD .undefined
  | other => other

/-- The bound of counts: they fit into a signed machine word. -/
def countLimit : Nat :=
  Nat.pow 2 63

/-- A size as an integer, unless it is too large to be counted. -/
def count (size : Nat) : Outcome Value :=
  if size < countLimit then .ok (.int size)
  else .error (.transformation "cannot fit 'int' into an index-sized integer")

/-- The number of characters or items; other values have none. -/
def length : Value → Outcome Value
  | .text s => count s.length
  | .halved s => count s.signs.length
  | .list items | .tuple items => count items.length
  | _ => count 0

/-- A date template with the first month, day and year mark filled in, in this order. -/
def fillDate (template : List Char) (date : Calendar.Date) : List Char :=
  let withMonth := Text.replaceFirst ['M', 'M'] (Text.paddedText 2 date.month) template
  let withDay := Text.replaceFirst ['D', 'D'] (Text.paddedText 2 date.day) withMonth
  Text.replaceFirst ['Y', 'Y', 'Y', 'Y'] (Text.decimalText date.year) withDay

/-- The date that a value denotes, in a template; the default one stands in for null. Other values
stay as they are. -/
def dateFormat (defaultTemplate : String) (value template : Value) : Outcome Value :=
  match value.moment? with
  | none => .ok value
  | some moment => do
    let chosen ← if template.isNull then pure defaultTemplate else template.display
    return .text (String.ofList (fillDate chosen.toList moment.date))

/-- The JSON text of a value, or its display text when it has none. -/
def json : Value → Outcome Value
  | .undefined => .ok .undefined
  | value =>
    match value.jsonText with
    | .ok spelled => .ok (.text spelled)
    | .error _ => do return .text (← value.display)

/-- The value, or a fallback for an absent or empty one. -/
def default (value fallback : Value) : Value :=
  match value with
  | .null | .undefined | .text "" => fallback
  | other => other

/-- The bytes of a text in base 64. -/
def base64 (value : Value) : Outcome Value :=
  onText (fun text => Text.base64Encode (Text.utf8Bytes text)) value

/-- A transformation that takes no arguments. -/
def plain (label : String) (run : Value → Outcome Value) (value : Value) (args : List Value) :
    Outcome Value :=
  if args.isEmpty then run value else .error (.argumentCount ⟨label, 0⟩ (args.length + 1))

/-- An operation on the value and an argument that may be left out. -/
def withDefault (label : String) (fallback : Value) (run : Value → Value → Outcome Value)
    (value : Value) (args : List Value) : Outcome Value :=
  match args with
  | [] => run value fallback
  | [arg] => run value arg
  | args => .error (.argumentCount ⟨label, 1⟩ (args.length + 1))

/-- The built-in transformations, with the template of dates that are given none. -/
def all (dateTemplate : String) : List Transformation :=
  [⟨"uppercase", "Uppercase", plain "_uppercase" (onText Text.upper),
      "Convert string to uppercase", some "String", some "\x7b\x7bname|uppercase\x7d\x7d → JOHN"⟩,
    ⟨"lowercase", "Lowercase", plain "_lowercase" (onText Text.lower),
      "Convert string to lowercase", some "String", some "\x7b\x7bname|lowercase\x7d\x7d → john"⟩,
    ⟨"capitalize", "Capitalize", plain "_capitalize" (onText capitalize),
      "Capitalize first letter of each word", some "String",
      some "\x7b\x7bname|capitalize\x7d\x7d → John Doe"⟩,
    ⟨"trim", "Trim", plain "_trim" (onText Text.trim),
      "Remove whitespace from both ends", some "String",
      some "\x7b\x7btext|trim\x7d\x7d → \"hello\""⟩,
    ⟨"truncate", "Truncate", withDefault "_truncate" (.int 50) truncate,
      "Truncate string to specified length", some "String",
      some "\x7b\x7btext|truncate:10\x7d\x7d → \"Hello worl...\""⟩,
    ⟨"round", "Round", withDefault "_round" (.int 0) round,
      "Round number to specified decimal places", some "Number",
      some "\x7b\x7bprice|round:2\x7d\x7d → 10.5"⟩,
    ⟨"abs", "Absolute", plain "_abs" abs,
      "Get absolute value", some "Number", some "\x7b\x7bamount|abs\x7d\x7d → 10"⟩,
    ⟨"join", "Join", withDefault "_join" (.text ", ") join,
      "Join array elements with separator", some "Array",
      some "\x7b\x7bitems|join:\", \"\x7d\x7d → \"a, b, c\""⟩,
    ⟨"first", "First", plain "_first" fun value => .ok (first value),
      "Get first element of array", some "Array", some "\x7b\x7bitems|first\x7d\x7d → \"a\""⟩,
    ⟨"last", "Last", plain "_last" fun value => .ok (last value),
      "Get last element of array", some "Array", some "\x7b\x7bitems|last\x7d\x7d → \"c\""⟩,
    ⟨"length", "Length", plain "_length" length,
      "Get length of string or array", some "Array", some "\x7b\x7bitems|length\x7d\x7d → 3"⟩,
    ⟨"dateFormat", "Date Format",
      withDefault "_make_date_format.<locals>.date_format" .null (dateFormat dateTemplate),
      "Format date (MM, DD, YYYY tokens)", some "Date",
      some "\x7b\x7bdate|dateFormat\x7d\x7d → \"12/13/2024\""⟩,
    ⟨"json", "JSON", plain "_json" json, "Convert to JSON string", some "Conversion",
      some "\x7b\x7bdata|json\x7d\x7d → \x7b\"key\":\"value\"\x7d"⟩,
    ⟨"number", "Number", plain "_number" fun value => do return .float (← value.toNumber),
      "Convert to number", some "Conversion", some "\x7b\x7bvalue|number\x7d\x7d → 42"⟩,
    ⟨"string", "String", plain "_string" (onText id),
      "Convert to string", some "Conversion", some "\x7b\x7bvalue|string\x7d\x7d → \"42\""⟩,
    ⟨"default", "Default",
      withDefault "_default" (.text "") fun value fallback => .ok (default value fallback),
      "Use default value if empty/null/undefined", some "Utility",
      some "\x7b\x7bvalue|default:\"N/A\"\x7d\x7d → N/A"⟩,
    ⟨"urlEncode", "URL Encode", plain "_url_encode" (onText Text.percentEncode),
      "URL encode string", some "Utility",
      some "\x7b\x7btext|urlEncode\x7d\x7d → hello%20world"⟩,
    ⟨"base64", "Base64", plain "_base64" base64,
      "Encode to base64", some "Utility", some "\x7b\x7btext|base64\x7d\x7d → aGVsbG8="⟩]

/-- The template of dates that are given none and for which none is configured. -/
def defaultDateTemplate : String :=
  "MM/DD/YYYY"

/-- The registry with all builtin transformations. -/
def registry (dateTemplate : String) : Registry :=
  ⟨(all dateTemplate).map fun transformation => (transformation.id, transformation)⟩

end Stencil.Builtin
