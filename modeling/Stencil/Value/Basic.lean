import Stencil.Binary64.Rounding
import Stencil.Fault
import Stencil.Fields
import Stencil.Text.Halved

/-!
# Values

A value is what a context holds, what a reference resolves to and what a transformation takes and
gives: the kinds of a data file, dates and moments, byte strings, and a mark for a path that leads
nowhere. Maps keep the order of their entries, and their keys may be any values; numbers that are
equal are one key, whatever their form.
-/

namespace Stencil

/-- A value of a template's data. -/
inductive Value
  /-- The mark of a path that leads nowhere. -/
  | undefined
  | null
  | bool (b : Bool)
  | int (n : Int)
  | float (x : Binary64)
  | text (s : String)
  /-- A text that is not made of characters alone. -/
  | halved (s : Text.Halved)
  | bytes (data : List UInt8)
  | date (d : Calendar.Date)
  | moment (m : Calendar.Moment)
  | list (items : List Value)
  | tuple (items : List Value)
  | set (items : List Value)
  | map (entries : List (Value × Value))
  deriving Inhabited

namespace Value

/-- Whether a value is the mark of a path that leads nowhere. -/
def isUndefined : Value → Bool
  | .undefined => true
  | _ => false

/-- Whether a value is null. -/
def isNull : Value → Bool
  | .null => true
  | _ => false

/-- Whether a value is absent: null or undefined. -/
def isAbsent : Value → Bool
  | .undefined | .null => true
  | _ => false

/-- Whether a value is an integer or a float. -/
def isNumber : Value → Bool
  | .int _ | .float _ => true
  | _ => false

/-- Whether a value is a map. -/
def isMap : Value → Bool
  | .map _ => true
  | _ => false

/-- The text that a value is, if it is made of characters. -/
def text? : Value → Option String
  | .text s => some s
  | _ => none

/-- The text of a value that is a text but not made of characters alone. -/
def halved? : Value → Option Text.Halved
  | .halved s => some s
  | _ => none

/-- A value with half a surrogate pair is a text of that kind. -/
theorem exists_of_halved? {value : Value} (halved : value.halved?.isSome = true) :
    ∃ s, value = .halved s := by
  cases value with
  | halved s => exact ⟨s, rfl⟩
  | _ => cases halved

/-- The name of the type of a value. -/
def typeName : Value → String
  | .undefined => "_Undefined"
  | .null => "NoneType"
  | .bool _ => "bool"
  | .int _ => "int"
  | .float _ => "float"
  | .text _ | .halved _ => "str"
  | .bytes _ => "bytes"
  | .date _ => "date"
  | .moment _ => "datetime"
  | .list _ => "list"
  | .tuple _ => "tuple"
  | .set _ => "set"
  | .map _ => "dict"

/-- The name of a value's type together with the group that the type belongs to. -/
def qualifiedTypeName : Value → String
  | .date _ => "datetime.date"
  | .moment _ => "datetime.datetime"
  | value => value.typeName

/-- The entries of a dictionary with text keys. -/
def fieldEntries (fields : Fields Value) : List (Value × Value) :=
  fields.map fun (key, value) => (.text key, value)

/-- A dictionary with text keys as a value. -/
def ofFields (fields : Fields Value) : Value :=
  .map (fieldEntries fields)

/-- Texts as a list. -/
def ofTexts (texts : List String) : Value :=
  .list (texts.map .text)

/-- The value of a text key. -/
def lookupText (key : String) : List (Value × Value) → Option Value
  | [] => none
  | (.text name, value) :: rest => if name = key then some value else lookupText key rest
  | _ :: rest => lookupText key rest

/-- An integer or a truth value as the integer it counts for. -/
def integer? : Value → Option Int
  | .int n => some n
  | .bool b => some (if b then 1 else 0)
  | _ => none

/-- Whether two values that have no parts are the same key; numbers are compared elsewhere. -/
def sameScalar (first second : Value) : Bool :=
  match first, second with
  | .undefined, .undefined => true
  | .null, .null => true
  | .text a, .text b => a == b
  | .halved a, .halved b => a == b
  | .bytes a, .bytes b => a == b
  | .date a, .date b => a == b
  | .moment a, .moment b => a.sameInstant b
  | .float x, .float y => x.sameNumber y
  | .float x, other => other.integer?.any x.sameInteger
  | other, .float x => other.integer?.any x.sameInteger
  | a, b =>
    match a.integer?, b.integer? with
    | some m, some n => m == n
    | _, _ => false

mutual

/-- Whether two values are one key of a map. -/
def sameKey : Value → Value → Bool
  | .tuple xs, .tuple ys => sameKeys xs ys
  | first, second => sameScalar first second

/-- Whether two lists of values are one key, item by item. -/
def sameKeys : List Value → List Value → Bool
  | [], [] => true
  | x :: xs, y :: ys => sameKey x y && sameKeys xs ys
  | _, _ => false

end

/-- The entries with the value of a key set, in the key's old place or else at the end. -/
def setEntry (key value : Value) : List (Value × Value) → List (Value × Value)
  | [] => [(key, value)]
  | (name, old) :: rest =>
    if sameKey name key then (name, value) :: rest else (name, old) :: setEntry key value rest

/-- The map that results from setting entries in order. -/
def ofEntries (entries : List (Value × Value)) : Value :=
  .map (entries.foldl (fun map (key, value) => setEntry key value map) [])

mutual

/-- The type that keeps a value from being a key: lists, sets and maps change. -/
def unhashable? : Value → Option String
  | .list _ => some "list"
  | .set _ => some "set"
  | .map _ => some "dict"
  | .tuple items => unhashableIn? items
  | _ => none

/-- The first type that keeps one of several values from being a key. -/
def unhashableIn? : List Value → Option String
  | [] => none
  | item :: rest => (unhashable? item).or (unhashableIn? rest)

end

/-- The text keys of entries with their values; other keys are passed over. -/
def textEntries : List (Value × Value) → Fields Value
  | [] => []
  | (.text key, value) :: rest => (key, value) :: textEntries rest
  | _ :: rest => textEntries rest

/-- The entries of a dictionary are those of its text keys. -/
theorem textEntries_fieldEntries (fields : Fields Value) :
    textEntries (fieldEntries fields) = fields := by
  induction fields with
  | nil => rfl
  | cons entry rest ih =>
    obtain ⟨key, value⟩ := entry
    exact congrArg ((key, value) :: ·) ih

/-- A text key of a dictionary has its value among the entries. -/
theorem lookupText_fieldEntries (key : String) (fields : Fields Value) :
    lookupText key (fieldEntries fields) = Fields.get? fields key := by
  induction fields with
  | nil => rfl
  | cons entry rest ih =>
    obtain ⟨name, value⟩ := entry
    rw [Fields.get?_cons]
    change (if name = key then some value else lookupText key (fieldEntries rest)) = _
    rw [ih]
    by_cases same : name = key
    · rw [if_pos same, if_pos same.symm]
    · rw [if_neg same, if_neg (Ne.symm same)]

end Value
end Stencil
