import Stencil.Numeral
import Stencil.Text.Base64
import Stencil.Text.Case
import Stencil.Value.Number
import Stencil.Yaml.Tag

/-!
# Values of scalars

The value of a scalar is what its text spells as its type demands. Underscores are dropped from
numbers; an integer is read in base two, sixteen, eight, sixty or ten, and a number with a point
in base sixty or ten. A type that is given to a text of another form is a fault.
-/

namespace Stencil.Yaml.Scalar

/-- Whether a numeral is negative, and the rest of it behind its sign. -/
def takeSign (text : List Char) : Outcome (Bool × List Char) :=
  if text.isEmpty then .error .emptyNumeral else .ok (NumberLiteral.takeSign text)

/-- The integer that places in base sixty denote. -/
def sexagesimalInteger (text : List Char) : Outcome Int := do
  let places ← (text.splitOn ':').mapM (Numeral.read 10)
  return places.foldl (fun total place => total * 60 + place) 0

/-- The integer that a numeral denotes. A zero in front marks base eight. -/
def integer (text : List Char) : Outcome Int := do
  let (negative, unsigned) ← takeSign (text.filter (· != '_'))
  let size ← match unsigned with
    | [] => .error .emptyNumeral
    | ['0'] => .ok 0
    | '0' :: 'b' :: digits => Numeral.read 2 digits
    | '0' :: 'x' :: digits => Numeral.read 16 digits
    | '0' :: digits => Numeral.read 8 ('0' :: digits)
    | _ => if unsigned.contains ':' then sexagesimalInteger unsigned else Numeral.read 10 unsigned
  return if negative then -size else size

/-- The number that a text spells in base ten. -/
def decimal (text : List Char) : Outcome Binary64 :=
  match Binary64.read? text with
  | some number => .ok number
  | none => .error (.notNumber (String.ofList text))

/-- The sum of places in base sixty, the lowest first, whose weights begin with the given one. -/
def weighted (total : Binary64) (weight : Int) : List Binary64 → Outcome Binary64
  | [] => .ok total
  | place :: rest => do
    weighted (total.add (place.mul (← Value.integerNumber weight))) (weight * 60) rest

/-- The number that places in base sixty denote. -/
def sexagesimal (text : List Char) : Outcome Binary64 := do
  weighted (.signedZero false) 1 (← (text.splitOn ':').mapM decimal).reverse

/-- The number that a numeral with a point, or the name of an infinity or of no number,
denotes. -/
def float (text : List Char) : Outcome Binary64 := do
  let (negative, unsigned) ← takeSign (Text.lower (text.filter (· != '_')))
  let size ←
    if unsigned = ".inf".toList then pure (.infinity false)
    else if unsigned = ".nan".toList then pure .nan
    else if unsigned.contains ':' then sexagesimal unsigned
    else decimal unsigned
  return if negative then size.negate else size

/-- The truth value that a word names, in any case. -/
def truth (text : List Char) : Outcome Bool :=
  let word := String.ofList (Text.lower text)
  match Tag.truthWords.lookup word with
  | some b => .ok b
  | none => .error (.notTruth word)

/-- The bytes that a text in base 64 stands for. -/
def bytes (text : List Char) : Outcome (List UInt8) :=
  if text.all (·.toNat < 0x80) then
    match Text.base64Decode? text with
    | some data => .ok data
    | none => .error .notYaml
  else .error .notYaml

/-- A part of the calendar, its fault worded as one of a value. -/
def calendar {α : Type} : Except Calendar.CalendarFault α → Outcome α
  | .ok part => .ok part
  | .error fault => .error (.calendar fault)

/-- The offset of a zone. -/
def offset (zone : Zone) : Outcome Calendar.Offset :=
  calendar (Calendar.Offset.of zone.negative ((zone.hours * 60 + zone.minutes) * 60 * 1000000))

/-- The date, or the moment, that a timestamp denotes. -/
def timestamp (text : List Char) : Outcome Value := do
  match Timestamp.read? (Tag.dropFinalBreak text) with
  | none => .error .notTime
  | some read =>
    match read.time with
    | none => return .date (← calendar (Calendar.Date.of read.year read.month read.day))
    | some time =>
      let offset ← time.zone.mapM offset
      let date ← calendar (Calendar.Date.of read.year read.month read.day)
      let clock ← calendar (Calendar.Clock.of time.hour time.minute time.second time.micro)
      return .moment ⟨date, clock, offset⟩

/-- The value of a scalar of a type. -/
def value (tag : Tag) (text : String) : Outcome Value :=
  let chars := text.toList
  match tag with
  | .null => .ok .null
  | .bool => do return .bool (← truth chars)
  | .int => do return .int (← integer chars)
  | .float => do return .float (← float chars)
  | .text => .ok (.text text)
  | .binary => do return .bytes (← bytes chars)
  | .timestamp => timestamp chars
  | .merge | .scalarKey | .sequence | .mapping | .set | .pairs | .unknown => .error .notYaml

end Stencil.Yaml.Scalar
