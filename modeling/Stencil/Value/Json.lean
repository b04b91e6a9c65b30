import Stencil.Json.Basic
import Stencil.Value.Display

/-!
# Values as JSON

Numbers that JSON cannot spell become null, and so does undefined; dates become their text, tuples
and sets arrays, and scalar keys texts. Byte strings and other keys have no JSON form. The main
definitions are `Value.toJson` and `Value.substitution`, the text put in place of a reference.
-/

namespace Stencil.Value

/-- The document of an integer; one that is too long to be written has none. -/
def integerJson (n : Int) : Outcome Json := do
  let _ ← integerText n
  return .int n

/-- The name of a member of an object. -/
def memberName : Value → Outcome String
  | .text s => .ok s
  | .halved s => .ok s.shown
  | .null => .ok "null"
  | .bool b => .ok (truthText b)
  | .int n => integerText n
  | .float x => if x.isFinite then .ok x.plainText else .error .nonFiniteKey
  | key => .error (.unusableKey key.qualifiedTypeName)

mutual

/-- The document that a value becomes. -/
def toJson : Value → Outcome Json
  | .undefined | .null => .ok .null
  | .bool b => .ok (.bool b)
  | .int n => integerJson n
  | .float x => .ok (if x.isFinite then .literal x.plainText else .null)
  | .text s => .ok (.text s)
  | .halved s => .ok (.text s.shown)
  | .bytes data => .error (.unserializable (Value.bytes data).typeName)
  | .date d => .ok (.text (String.ofList d.isoText))
  | .moment m => .ok (.text (String.ofList m.isoText))
  | .list items | .tuple items | .set items => do return .array (← itemsJson items)
  | .map entries => do return .object (← entriesJson entries)

/-- The documents that values become, in their order. -/
def itemsJson : List Value → Outcome (List Json)
  | [] => .ok []
  | item :: rest => do
    let document ← toJson item
    return document :: (← itemsJson rest)

/-- The members that the entries of a map become. -/
def entriesJson : List (Value × Value) → Outcome (List (String × Json))
  | [] => .ok []
  | (key, value) :: rest => do
    let name ← memberName key
    let document ← toJson value
    return (name, document) :: (← entriesJson rest)

end

/-- The text of the document that a value becomes. -/
def jsonText (value : Value) : Outcome String := do
  return (← value.toJson).render

/-- The JSON text of a collection, or a fixed word when it has none. -/
def collectionText (value : Value) : String :=
  match value.jsonText with
  | .ok json => json
  | .error _ => "[Object]"

/-- The text put in place of a reference to a value: the display text of a scalar and the JSON
text of a collection. -/
def substitution : Value → Outcome String
  | .list items => .ok (collectionText (.list items))
  | .tuple items => .ok (collectionText (.tuple items))
  | .set items => .ok (collectionText (.set items))
  | .map entries => .ok (collectionText (.map entries))
  | .bytes data => .ok (collectionText (.bytes data))
  | scalar => scalar.display

/-- The text put in place of a reference to a value that there is; undefined has none. -/
def shown? (value : Value) : Outcome (Option String) :=
  if value.isUndefined then .ok none else do return some (← value.substitution)

end Stencil.Value
