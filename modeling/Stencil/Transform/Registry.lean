import Stencil.Diagnostic
import Stencil.Template.Step
import Stencil.Template.Path
import Stencil.Value.Basic

/-!
# Registered transformations

A transformation takes a value and arguments to a value, or fails. A registry holds
transformations under identifiers, in the order of registration; nothing is ever removed or
replaced. A step that names no transformation, or one that fails, leaves its value as it is and
is reported. The main statement is `applyAll_append`: a pipeline is applied part by part.
-/

namespace Stencil

/-- A named operation on values. -/
structure Transformation where
  id : String
  name : String
  /-- The image of a value under the operation with arguments. -/
  run : Value → List Value → Outcome Value
  description : String
  category : Option String
  example? : Option String

/-- Transformations under their identifiers, in the order of registration. -/
structure Registry where
  entries : Fields Transformation

namespace Registry

/-- The registry without transformations. -/
def empty : Registry :=
  ⟨[]⟩

/-- Whether a transformation may be registered under a text: an identifier, possibly with a line
break behind it. -/
def acceptsId (id : String) : Bool :=
  let chars := id.toList
  Path.isIdentifier chars
    || (chars.getLast? == some '\n' && Path.isIdentifier chars.dropLast)

/-- Whether a transformation is registered under a text. -/
def has (registry : Registry) (id : String) : Bool :=
  Fields.has registry.entries id

/-- The transformation under an identifier, if there is one. -/
def get? (registry : Registry) (id : String) : Option Transformation :=
  Fields.get? registry.entries id

/-- The registry with one more transformation, unless its identifier is taken or none. -/
def register (registry : Registry) (transformation : Transformation) : Outcome Registry :=
  if !acceptsId transformation.id then
    .error (.unregistrable transformation.id .notIdentifier)
  else if registry.has transformation.id then
    .error (.unregistrable transformation.id .taken)
  else .ok ⟨registry.entries ++ [(transformation.id, transformation)]⟩

/-- The transformations in the order in which they were registered. -/
def all (registry : Registry) : List Transformation :=
  registry.entries.map (·.2)

/-- The identifiers in the order in which they were registered. -/
def ids (registry : Registry) : List String :=
  Fields.keys registry.entries

/-- The transformations of a category, or those of none. -/
def inCategory (registry : Registry) (category : Option String) : List Transformation :=
  registry.all.filter (·.category == category)

/-- The categories in the order of their first transformation. -/
def categories (registry : Registry) : List String :=
  (registry.all.filterMap (·.category)).eraseDups

/-- The value of a step applied to a value and further arguments, and what is reported. -/
def apply (registry : Registry) (step : Step) (value : Value) (further : List Value) :
    Value × List Diagnostic :=
  match registry.get? step.name with
  | none => (value, [.unknownTransformation none step.name])
  | some transformation =>
    match transformation.run value (step.args.map .text ++ further) with
    | .ok image => (image, [])
    | .error fault => (value, [.transformationFailed step.name fault.message])

/-- The value of a pipeline applied to a value, step by step, and all that is reported. -/
def applyAll (registry : Registry) (value : Value) : List Step → Value × List Diagnostic
  | [] => (value, [])
  | step :: rest =>
    let (image, reported) := registry.apply step value []
    let (final, later) := registry.applyAll image rest
    (final, reported ++ later)

/-- A step that names no transformation leaves its value as it is. -/
theorem apply_of_get?_eq_none {registry : Registry} {step : Step} (value : Value)
    (further : List Value) (unknown : registry.get? step.name = none) :
    registry.apply step value further = (value, [.unknownTransformation none step.name]) := by
  rw [apply, unknown]

/-- A pipeline in two parts is the second part applied to what the first makes of the value. -/
theorem applyAll_append (registry : Registry) (value : Value) (first second : List Step) :
    registry.applyAll value (first ++ second) =
      let (image, reported) := registry.applyAll value first
      let (final, later) := registry.applyAll image second
      (final, reported ++ later) := by
  induction first generalizing value with
  | nil => simp [applyAll]
  | cons step rest ih => simp [applyAll, ih, List.append_assoc]

end Registry
end Stencil
