import Stencil.Calendar.Moment
import Stencil.Text.Quoted
import Stencil.Text.Utf8

/-!
# Faults

Everything that can end an operation without a result, as causes; `Fault.message` words them.
A rejected value is described by the list of its problems, each with the place where it was
found.
-/

namespace Stencil

/-- What is wrong with a value that a schema rejects. -/
inductive Complaint
  | missing
  | notText
  | notUnicode
  | notMap
  | notList
  | empty
  | notAmong (choices : List String)
  | notRecord (name : String)
  | keyNotText
  deriving DecidableEq, Repr

/-- Choices as a sentence: each in quotes, the last one after the word or. -/
def listChoices (choices : List String) : String :=
  let quotedChoices := choices.map fun choice => s!"'{choice}'"
  match quotedChoices.reverse with
  | [] => ""
  | [only] => only
  | last :: before =>
    let front := ", ".intercalate before.reverse
    s!"{front} or {last}"

/-- The message of a complaint. -/
def Complaint.message : Complaint → String
  | .missing => "Field required"
  | .notText => "Input should be a valid string"
  | .notUnicode => "Input should be a valid string, unable to parse raw data as a unicode string"
  | .notMap => "Input should be a valid dictionary"
  | .notList => "Input should be a valid list"
  | .empty => "String should have at least 1 character"
  | .notAmong choices => s!"Input should be {listChoices choices}"
  | .notRecord name => s!"Input should be a valid dictionary or instance of {name}"
  | .keyNotText => "Keys should be strings"

/-- A complaint and the path of field names, keys and positions that leads to its place. -/
structure Problem where
  place : List String
  complaint : Complaint
  deriving DecidableEq, Repr

/-- A problem as a line of a report; the place of the whole value has a name of its own. -/
def Problem.line (problem : Problem) : String :=
  let place := if problem.place.isEmpty then "<root>" else ".".intercalate problem.place
  s!"  - {place}: {problem.complaint.message}"

/-- Why a transformation cannot be registered. -/
inductive Rejection
  | notIdentifier
  | taken
  deriving DecidableEq, Repr

/-- The message of the reason why an identifier is rejected. -/
def Rejection.message : Rejection → String
  | .notIdentifier => "id must be an identifier"
  | .taken => "already registered"

/-- How many arguments a transformation takes, the value included, and its name in messages. -/
structure Arity where
  label : String
  optional : Nat
  deriving DecidableEq, Repr

/-- The complaint of a transformation about its number of arguments. -/
def Arity.message (arity : Arity) (given : Nat) : String :=
  let expected :=
    if arity.optional = 0 then "1 positional argument"
    else s!"from 1 to {arity.optional + 1} positional arguments"
  s!"{arity.label}() takes {expected} but {given} were given"

/-- Why an operation has no result. -/
inductive Fault
  /-- A numeral of this many digits is not read. -/
  | longNumeral (digits : Nat)
  /-- An integer is too long to be written. -/
  | longInteger
  /-- A text is no integer in a base. -/
  | notInteger (base : Nat) (text : String)
  /-- A numeral is empty. -/
  | emptyNumeral
  /-- A text is no number. -/
  | notNumber (text : String)
  /-- A text is no truth value. -/
  | notTruth (text : String)
  /-- A text is no point in time. -/
  | notTime
  /-- A value of this type stands where a text is read. -/
  | notReadable (type : String)
  /-- A text is no document of the YAML format. -/
  | notYaml
  /-- No character has this code. -/
  | codePoint (code : Nat)
  /-- An integer is out of the range of the double format. -/
  | integerTooLarge
  /-- A value of this type has no JSON text. -/
  | unserializable (type : String)
  /-- A key of this type has no JSON text. -/
  | unusableKey (type : String)
  /-- A key that is an infinity or not a number has no JSON text. -/
  | nonFiniteKey
  /-- A text names none of the choices. -/
  | notChoice (text choices : String)
  /-- A value is rejected by its schema. -/
  | invalid (problems : List Problem)
  /-- References of a template have no value. -/
  | unresolved (paths : List String) (template : String)
  /-- A transformation cannot be registered. -/
  | unregistrable (id : String) (reason : Rejection)
  /-- A transformation is given too many arguments. -/
  | argumentCount (arity : Arity) (given : Nat)
  /-- A number of decimal places is out of range. -/
  | placesOutOfRange (places : Int)
  /-- A registered transformation failed with a message of its own. -/
  | transformation (text : String)
  /-- A variable of this name is in the catalog already. -/
  | variableExists (id : String)
  /-- No variable of this name is in the catalog. -/
  | variableMissing (id : String)
  /-- A path to write to has no parts. -/
  | emptyPath
  /-- Numbers are no date, time of day or offset. -/
  | calendar (fault : Calendar.CalendarFault)
  /-- Bytes are no text. -/
  | encoding (error : Text.Utf8Error)
  /-- A file cannot be looked at or read, for a reason that is worded elsewhere. -/
  | inaccessible (reason : String)
  /-- No home directory is known. -/
  | homeless
  /-- A successful load has no value. -/
  | loadWithoutValue
  /-- A failed load has no message. -/
  | loadWithoutError
  /-- The value of a failed load is asked for. -/
  | unwrapFailed (error : Option String)
  /-- A value of this type has no entries. -/
  | noEntries (type : String)
  /-- The item at this position is no entry. -/
  | itemNotEntry (position : Nat)
  /-- The item at this position has this many parts instead of two. -/
  | itemLength (position length : Nat)
  /-- An undefined value cannot be exported. -/
  | unexportable
  /-- A value of this type cannot be a key. -/
  | unhashable (type : String)
  deriving DecidableEq, Repr

/-- The result of an operation, or the fault that ended it. -/
abbrev Outcome := Except Fault

/-- The wording of an offset's length in days and seconds, which is how a negative one is
borrowed from whole days. -/
def offsetLength (negative : Bool) (days seconds : Nat) : String :=
  let total : Int := days * 86400 + seconds
  let signed := if negative then -total else total
  let wholeDays := signed.fdiv 86400
  let restSeconds := signed.fmod 86400
  let parts := (if wholeDays = 0 then [] else [s!"days={wholeDays}"])
    ++ (if restSeconds = 0 then [] else [s!"seconds={restSeconds}"])
  let inner := ", ".intercalate parts
  s!"datetime.timedelta({inner})"

/-- The message of what keeps a date, a time or an offset from being one. -/
def calendarMessage : Calendar.CalendarFault → String
  | .year value => s!"year {value} is out of range"
  | .month => "month must be in 1..12"
  | .day => "day is out of range for month"
  | .hour => "hour must be in 0..23"
  | .minute => "minute must be in 0..59"
  | .second => "second must be in 0..59"
  | .offset negative days seconds =>
    "offset must be a timedelta strictly between -timedelta(hours=24) and timedelta(hours=24), "
      ++ s!"not {offsetLength negative days seconds}."

/-- A path between the braces of a reference. -/
def braced (path : String) : String :=
  "\x7b\x7b" ++ path ++ "\x7d\x7d"

/-- The limit on the digits of integers that are read or written. -/
def digitLimit : Nat :=
  4300

/-- The limit on the characters of a text that is shown for not being an integer, the quotes
included. -/
def shownLimit : Nat :=
  200

/-- The limit below which a code is only out of the range of characters. -/
def codeLimit : Nat :=
  Nat.pow 2 31

/-- The message of a fault. -/
def Fault.message : Fault → String
  | .longNumeral digits =>
    s!"Exceeds the limit (4300 digits) for integer string conversion: value has {digits} digits; "
      ++ "use sys.set_int_max_str_digits() to increase the limit"
  | .longInteger =>
    "Exceeds the limit (4300 digits) for integer string conversion; "
      ++ "use sys.set_int_max_str_digits() to increase the limit"
  | .notInteger base text =>
    let shown := String.ofList ((Text.quoted text).toList.take shownLimit)
    s!"invalid literal for int() with base {base}: {shown}"
  | .emptyNumeral => "string index out of range"
  | .notNumber text => s!"could not convert string to float: {Text.quoted text}"
  | .notTruth text => text
  | .notTime => "'NoneType' object has no attribute 'groupdict'"
  | .notReadable type => s!"expected string or bytes-like object, got '{type}'"
  | .notYaml => "The text is no YAML document"
  | .codePoint code =>
    if code < codeLimit then "chr() arg not in range(0x110000)"
    else "Python int too large to convert to C int"
  | .integerTooLarge => "int too large to convert to float"
  | .unserializable type => s!"Object of type {type} is not JSON serializable"
  | .unusableKey type => s!"keys must be str, int, float, bool or None, not {type}"
  | .nonFiniteKey => "Out of range float values are not JSON compliant"
  | .notChoice text choices => s!"{Text.quoted text} is not a valid {choices}"
  | .invalid problems => "\n".intercalate (problems.map Problem.line)
  | .unresolved paths _ =>
    "Unresolved variable reference(s): " ++ ", ".intercalate (paths.map braced)
  | .unregistrable id reason => s!"Cannot register transformation '{id}': {reason.message}"
  | .argumentCount arity given => arity.message given
  | .placesOutOfRange places => s!"round() decimals must be between 0 and 100, got {places}"
  | .transformation text => text
  | .variableExists id => s!"Variable '{id}' already exists. Use update() or remove() first."
  | .variableMissing id => s!"Variable '{id}' not found in catalog"
  | .emptyPath => "Variable path cannot be empty"
  | .calendar fault => calendarMessage fault
  | .encoding error => error.message
  | .inaccessible reason => reason
  | .homeless => "Could not determine home directory."
  | .loadWithoutValue => "Success result must have a value"
  | .loadWithoutError => "Failed result must have an error message"
  | .unwrapFailed error => "Cannot unwrap failed result: " ++ error.getD "None"
  | .noEntries type => s!"'{type}' object is not iterable"
  | .itemNotEntry position =>
    s!"cannot convert dictionary update sequence element #{position} to a sequence"
  | .itemLength position length =>
    s!"dictionary update sequence element #{position} has length {length}; 2 is required"
  | .unexportable =>
    "Unable to serialize unknown type: <class 'workflow_variables.engine.values._Undefined'>"
  | .unhashable type => s!"unhashable type: '{type}'"

end Stencil
