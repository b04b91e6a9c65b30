import Stencil.Catalog.Definition
import Stencil.Context.Check
import Stencil.Text.Blank
import Stencil.Text.Case
import Stencil.Text.Search
import Stencil.Workflow.Schema
import Stencil.Workflow.Snapshot

/-!
# Catalogs

A catalog holds the definitions of variables under their identifiers, in the order in which they
were made known, and the live context. Definitions come from a workflow or from a snapshot of a
run; a later definition under the same identifier takes the place of the earlier one. No definition
is made of a name that is not made of characters alone. An operation that fails leaves the catalog
as it is, except that a snapshot with an entry that cannot be named has set the live context by
then.
-/

namespace Stencil

/-- Definitions of variables and the live context. -/
structure Catalog where
  definitions : Fields Definition
  context : Context

/-- Definitions listed under one heading. -/
structure DefinitionGroup where
  category : Category
  definitions : List Definition

/-- The heading of a group is that of its category. -/
def DefinitionGroup.heading (group : DefinitionGroup) : String :=
  group.category.heading

namespace Workflow

/-- The definition of the trigger, if the workflow has one that is not empty. -/
def triggerDefinitions (workflow : Workflow) : List Definition :=
  match workflow.trigger with
  | none | some [] => []
  | some _ =>
    [⟨"trigger", "Trigger", "trigger", .object, .workflow, some .trigger, some "Trigger data",
      none, some "trigger", .null⟩]

/-- The definition of a form field of a step. -/
def fieldDefinition (step : WorkflowStep) (field : FormField) : Definition :=
  ⟨s!"form-{field.id}", field.title, s!"form.{field.id}",
    Kind.ofFieldType (field.fieldType.getD ""), .workflow, some .form, some field.details, none,
    some step.id, .null⟩

/-- The definition of a declared output of a step. -/
def outputDefinition (step : WorkflowStep) (output : String × Kind) : Definition :=
  ⟨s!"{step.id}-{output.1}", output.1, s!"{step.id}.{output.1}", output.2, .step, some .step,
    some s!"Output of step {step.title}", none, some step.id, .null⟩

/-- The definitions of the variables that a step declares. -/
def stepDefinitions (step : WorkflowStep) : List Definition :=
  step.formFields.map (fieldDefinition step) ++ step.outputs.map (outputDefinition step)

/-- The definitions of the variables that a workflow declares. -/
def definitions (workflow : Workflow) : List Definition :=
  workflow.triggerDefinitions ++ workflow.steps.flatMap stepDefinitions

/-- Whether the names of all outputs that a workflow declares are made of characters. -/
def isNamed (workflow : Workflow) : Bool :=
  workflow.steps.all (·.halvedOutputs.isEmpty)

end Workflow

namespace Snapshot

/-- The name of an entry of a step's output in the identifier and the path of its definition. -/
def entryName (key : Value) : Outcome String :=
  match key with
  | .halved _ => .error Definition.noIdentifier
  | _ => key.label

/-- The definition of an entry of a step's output. -/
def entryDefinition (stepId : String) (key value : Value) : Outcome Definition := do
  let label ← entryName key
  return ⟨s!"{stepId}-{label}", label, s!"{stepId}.{label}", value.kind, .step, some .step, none,
    none, some stepId, value⟩

/-- The definitions of the entries of a step's output; an output that is no map has none. -/
def outputDefinitions (stepId : String) (output : Value) : Outcome (List Definition) :=
  match output with
  | .map entries => entries.mapM fun (key, value) => entryDefinition stepId key value
  | _ => .ok []

/-- The definitions of the entries of all outputs. -/
def definitions (snapshot : Snapshot) : Outcome (List Definition) := do
  return (← snapshot.outputs.mapM fun (stepId, output) => outputDefinitions stepId output).flatten

end Snapshot

namespace Catalog

/-- The catalog without definitions and with an empty context. -/
def empty : Catalog :=
  ⟨[], .empty⟩

/-- The definitions in the order in which they are listed. -/
def all (catalog : Catalog) : List Definition :=
  catalog.definitions.map (·.2)

/-- The identifiers in the order in which they are listed. -/
def ids (catalog : Catalog) : List String :=
  Fields.keys catalog.definitions

/-- The number of definitions. -/
def size (catalog : Catalog) : Nat :=
  catalog.definitions.length

/-- Whether there is a definition under an identifier. -/
def contains (catalog : Catalog) (id : String) : Bool :=
  Fields.has catalog.definitions id

/-- The definition under an identifier, if there is one. -/
def get? (catalog : Catalog) (id : String) : Option Definition :=
  Fields.get? catalog.definitions id

/-- Definitions under their own identifiers; a later one takes the place of an earlier one. -/
def index (definitions : List Definition) : Fields Definition :=
  Fields.ofEntries (definitions.map fun definition => (definition.id, definition))

/-- The catalog with the definitions of a workflow in place of its own. -/
def loadWorkflow (catalog : Catalog) (workflow : Workflow) : Outcome Catalog :=
  if workflow.isNamed then .ok { catalog with definitions := index workflow.definitions }
  else .error Definition.noIdentifier

/-- The catalog with the context and the definitions of a snapshot in place of its own, or a fault
and the catalog as it was left. -/
def loadSnapshot (catalog : Catalog) (snapshot : Snapshot) : Outcome Unit × Catalog :=
  let live := { catalog with context := snapshot.context }
  match snapshot.definitions with
  | .ok definitions => (.ok (), { live with definitions := index definitions })
  | .error fault => (.error fault, live)

/-- The catalog with one more definition, unless its identifier is taken. -/
def add (catalog : Catalog) (definition : Definition) : Outcome Catalog :=
  if catalog.contains definition.id then .error (.variableExists definition.id)
  else .ok { catalog with
    definitions := catalog.definitions ++ [(definition.id, definition)] }

/-- The definition under an identifier, and the catalog without it. -/
def remove (catalog : Catalog) (id : String) : Outcome (Definition × Catalog) :=
  match catalog.get? id with
  | some definition =>
    .ok (definition, { catalog with definitions := Fields.erase catalog.definitions id })
  | none => .error (.variableMissing id)

/-- The entries with the definition under `id` replaced, under the identifier of the new one and
in the same place; an entry set again keeps its first place. -/
def substitute (definitions : Fields Definition) (id : String) (new : Definition) :
    Fields Definition :=
  Fields.ofEntries (definitions.map fun (key, old) =>
    if key = id then (new.id, new) else (key, old))

/-- The definition under an identifier with some of its fields given anew, and the catalog with
it. -/
def update (catalog : Catalog) (id : String) (updates : Fields Value) :
    Outcome (Definition × Catalog) :=
  match catalog.get? id with
  | some definition => do
    let new ← definition.replace updates
    return (new, { catalog with definitions := substitute catalog.definitions id new })
  | none => .error (.variableMissing id)

/-- The catalog without definitions; the context is kept. -/
def clear (catalog : Catalog) : Catalog :=
  { catalog with definitions := [] }

/-- The definitions of a scope given by name. -/
def inScope (catalog : Catalog) (name : String) : Outcome (List Definition) := do
  let scope ← Scope.ofName name
  return catalog.all.filter (·.scope == scope)

/-- The definitions of a category given by name. -/
def inCategory (catalog : Catalog) (name : String) : Outcome (List Definition) := do
  let category ← Category.ofName name
  return catalog.all.filter (·.category == some category)

/-- The definitions whose values a trigger or step produces. -/
def fromSource (catalog : Catalog) (source : String) : List Definition :=
  catalog.all.filter (·.source == some source)

/-- The definitions whose name, path or description holds a text, whatever the case. -/
def search (catalog : Catalog) (query : String) : List Definition :=
  let needle := Text.lower query.toList
  let holds (text : String) : Bool := Text.occursIn needle (Text.lower text.toList)
  catalog.all.filter fun definition =>
    holds definition.name || holds definition.path || holds (definition.description.getD "")

/-- The definitions whose path begins with a text, whatever the case. -/
def suggest (catalog : Catalog) (start : String) : List Definition :=
  let needle := Text.lower (Text.trim start.toList)
  catalog.all.filter fun definition => needle.isPrefixOf (Text.lower definition.path.toList)

/-- The definitions by category, in the order in which the categories first appear. -/
def groups (catalog : Catalog) : List DefinitionGroup :=
  ((catalog.all.map Definition.group).eraseDups).map fun category =>
    ⟨category, catalog.all.filter (·.group == category)⟩

/-- The catalog with a context given in place of its own. -/
def setContext (catalog : Catalog) (value : Value) : Outcome Catalog := do
  return { catalog with context := ← Context.ofValue value }

/-- The catalog with some layers of its live context given anew. -/
def updateContext (catalog : Catalog) (updates : List (Value × Value)) : Outcome Catalog := do
  return { catalog with context := ← catalog.context.replaceLayers updates }

/-- The keys of a path to write to: its parts that are not blank, without the blanks around
them. -/
def writePath (path : String) : List String :=
  (((path.toList.splitOn '.').map Text.trim).filter (!·.isEmpty)).map String.ofList

/-- The entries with a value set under a chain of keys; what is no map on the way is replaced by
one. -/
def writeEntry (value : Value) : (keys : List String) → List (Value × Value) →
    List (Value × Value)
  | [], entries => entries
  | [key], entries => Value.setEntry (.text key) value entries
  | key :: rest, entries =>
    let below := match Value.lookupText key entries with
      | some (.map inner) => inner
      | _ => []
    Value.setEntry (.text key) (.map (writeEntry value rest below)) entries

/-- The dictionary with a value set under a chain of keys. -/
def writeField (value : Value) (keys : List String) (fields : Fields Value) : Fields Value :=
  Value.textEntries (writeEntry value keys (Value.fieldEntries fields))

/-- The catalog with a value set among the variables of its live context. -/
def setValue (catalog : Catalog) (path : String) (value : Value) : Outcome Catalog :=
  let keys := writePath path
  if keys.isEmpty then .error .emptyPath
  else .ok { catalog with
    context := { catalog.context with
      vars := writeField value keys catalog.context.vars } }

end Catalog
end Stencil
