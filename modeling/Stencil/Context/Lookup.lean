import Stencil.Context.Basic
import Stencil.Template.Path

/-!
# Looking up paths

A name is looked up among the text keys of a map; a name of digits also counts into a sequence.
Indexes count into lists and tuples only. A step that fails leads nowhere, and so does any step
from an absent value; the value of a path that leads nowhere is undefined.
-/

namespace Stencil

namespace Value

/-- The position that a name of digits denotes. Digits without a place in decimal notation denote
none. -/
def positionOf (name : String) : Outcome Nat :=
  let digits := name.toList
  let leading := digits.takeWhile Text.isDecimal
  if digitLimit < leading.length then .error (.longNumeral leading.length)
  else if digits.all Text.isDecimal then .ok (Text.decimalNumber digits)
  else .error (.notInteger 10 name)

/-- Whether a name is a position: a text of digits. -/
def isPosition (name : String) : Bool :=
  !name.isEmpty && name.toList.all Text.isDigit

/-- The item at the position that a name of digits denotes. -/
def itemNamed (items : List Value) (name : String) : Outcome Value :=
  if isPosition name then do return items.getD (← positionOf name) .undefined
  else .ok .undefined

/-- What stands in a value under a name: an entry of a map, or an item of a sequence by its
position. -/
def child (value : Value) (name : String) : Outcome Value :=
  match value with
  | .map entries => .ok ((lookupText name entries).getD .undefined)
  | .list items | .tuple items => itemNamed items name
  | .bytes data => itemNamed (data.map fun byte => .int byte.toNat) name
  | _ => .ok .undefined

/-- What stands in a sequence at an index. -/
def item (value : Value) (index : Nat) : Value :=
  match value with
  | .list items | .tuple items => items.getD index .undefined
  | _ => .undefined

/-- What a segment leads to from a value: a name, and then the indexes in brackets. -/
def step (value : Value) (segment : Segment) : Outcome Value :=
  if value.isAbsent then .ok .undefined
  else do return segment.indices.foldl item (← value.child segment.name)

/-- The value that a path leads to from a given value. -/
def follow (value : Value) : Path → Outcome Value
  | [] => .ok value
  | segment :: rest => do (← value.step segment).follow rest

/-- A segment is followed from a dictionary through the value under its name. -/
theorem step_ofFields (fields : Fields Value) (segment : Segment) :
    (ofFields fields).step segment =
      .ok (segment.indices.foldl item ((Fields.get? fields segment.name).getD .undefined)) := by
  have leads : (ofFields fields).child segment.name =
      .ok ((Fields.get? fields segment.name).getD .undefined) := by
    rw [ofFields, child, lookupText_fieldEntries]
  rw [step, leads]
  rfl

end Value

/-- The value of a path among the values of a context; the path without segments has none. -/
def lookup (path : Path) (values : Fields Value) : Outcome Value :=
  if path.isEmpty then .ok .undefined else (Value.ofFields values).follow path

/-- The first segment of a path names a variable, and the others lead on from its value. -/
theorem lookup_cons (segment : Segment) (rest : Path) (values : Fields Value) :
    lookup (segment :: rest) values =
      (segment.indices.foldl Value.item
        ((Fields.get? values segment.name).getD .undefined)).follow rest := by
  rw [lookup, Value.follow, Value.step_ofFields]
  rfl

/-- The value of a path in a context. -/
def Context.resolve (context : Context) (path : String) : Outcome Value := do
  lookup (← Path.parse path) context.merged

end Stencil
