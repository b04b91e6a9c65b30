import Stencil.Value.Basic

/-!
# Kinds of values

The kinds under which a catalog lists variables, and the kind of a given value.
-/

namespace Stencil

/-- The kind of a variable. -/
inductive Kind
  | string
  | number
  | boolean
  | object
  | array
  | date
  | null
  | undefined
  | any
  deriving DecidableEq, Repr

namespace Kind

/-- The kinds in the order in which they are listed. -/
def all : List Kind :=
  [.string, .number, .boolean, .object, .array, .date, .null, .undefined, .any]

/-- The name of a kind. -/
def name : Kind → String
  | .string => "string"
  | .number => "number"
  | .boolean => "boolean"
  | .object => "object"
  | .array => "array"
  | .date => "date"
  | .null => "null"
  | .undefined => "undefined"
  | .any => "any"

/-- The kind of values that a form field of a given type collects; a type that is not listed
collects text. -/
def ofFieldType (fieldType : String) : Kind :=
  if fieldType = "number" then .number
  else if fieldType = "toggle" then .boolean
  else if fieldType = "date" ∨ fieldType = "time" then .date
  else if fieldType = "checklist" then .array
  else .string

end Kind

/-- The kind of a value. -/
def Value.kind : Value → Kind
  | .undefined => .undefined
  | .null => .null
  | .bool _ => .boolean
  | .int _ | .float _ => .number
  | .text _ | .halved _ => .string
  | .date _ | .moment _ => .date
  | .map _ => .object
  | .list _ | .tuple _ | .bytes _ => .array
  | .set _ => .any

end Stencil
