import Stencil.Schema.Check
import Stencil.Value.Entries
import Stencil.Value.Kind

/-!
# Workflows

A workflow declares a trigger and steps, and a step declares form fields and outputs. Parts may be
given under several names; entries that are no parts are kept.
-/

namespace Stencil

/-- A field of a form. -/
structure FormField where
  id : String
  label : Option String
  fieldType : Option String
  description : Option String
  extras : Fields Value

/-- A step of a workflow. -/
structure WorkflowStep where
  id : String
  name : Option String
  formFields : List FormField
  outputs : Fields Kind
  /-- The names of outputs that are not made of characters alone. -/
  halvedOutputs : List Text.Halved
  extras : Fields Value

/-- A workflow: what its variables are derived from. -/
structure Workflow where
  name : Option String
  description : Option String
  trigger : Option (Fields Value)
  steps : List WorkflowStep
  extras : Fields Value

/-- A text that may be missing, under a name. -/
def Schema.optionalText (name : String) (entries : List (Value × Value)) :
    Checked (Option String) :=
  optional [name] none (orNull text) entries

namespace FormField

/-- The form field that the entries of a dictionary describe, or what is wrong with them. -/
def check (entries : List (Value × Value)) : Checked FormField :=
  Schema.keeping entries <| (Checked.build FormField.mk)
    |>.and (Schema.required ["id"] Schema.nonemptyText entries)
    |>.and (Schema.optionalText "label" entries)
    |>.and (Schema.optionalText "type" entries)
    |>.and (Schema.optionalText "description" entries)
    |>.and (Schema.extras [["id"], ["label"], ["type"], ["description"]] entries)

/-- A form field as a map, its further entries last. -/
def toValue (field : FormField) : Value :=
  .ofFields ([("id", .text field.id),
    ("label", field.label.elim .null .text),
    ("type", field.fieldType.elim .null .text),
    ("description", field.description.elim .null .text)] ++ field.extras)

/-- The label of a form field, or its identifier when it has none. -/
def title (field : FormField) : String :=
  match field.label with
  | none | some "" => field.id
  | some label => label

/-- The description of a form field, or one made from its title. -/
def details (field : FormField) : String :=
  match field.description with
  | none | some "" => s!"Form field: {field.title}"
  | some description => description

end FormField

namespace WorkflowStep

/-- The names under which the form fields of a step are given. -/
def formFieldsNames : List String :=
  ["form_fields", "formElements", "fields"]

/-- The step that the entries of a dictionary describe, or what is wrong with them. -/
def check (entries : List (Value × Value)) : Checked WorkflowStep :=
  Schema.keeping entries <| (Checked.build WorkflowStep.mk)
    |>.and (Schema.required ["id"] Schema.nonemptyText entries)
    |>.and (Schema.optionalText "name" entries)
    |>.and (Schema.optional formFieldsNames []
      (Schema.items (Schema.record "FormField" FormField.check)) entries)
    |>.and (Schema.optional ["outputs"] []
      (Schema.fields (Schema.choice Kind.all Kind.name)) entries)
    |>.and (Schema.optional ["outputs"] [] Schema.halvedKeys entries)
    |>.and (Schema.extras [["id"], ["name"], formFieldsNames, ["outputs"]] entries)

/-- A step as a map, its further entries last. -/
def toValue (step : WorkflowStep) : Value :=
  .ofFields ([("id", .text step.id),
    ("name", step.name.elim .null .text),
    ("form_fields", .list (step.formFields.map FormField.toValue)),
    ("outputs", .ofFields (step.outputs.map fun (key, kind) => (key, .text kind.name)))]
    ++ step.extras)

/-- The name of a step, or its identifier when it has none. -/
def title (step : WorkflowStep) : String :=
  match step.name with
  | none | some "" => step.id
  | some name => name

end WorkflowStep

namespace Workflow

/-- The names under which the steps of a workflow are given. -/
def stepsNames : List String :=
  ["steps", "containers"]

/-- The workflow that the entries of a dictionary describe, or what is wrong with them. -/
def check (entries : List (Value × Value)) : Checked Workflow :=
  Schema.keeping entries <| (Checked.build Workflow.mk).and (Schema.optionalText "name" entries)
    |>.and (Schema.optionalText "description" entries)
    |>.and (Schema.optional ["trigger"] none (Schema.orNull (Schema.fields Schema.any)) entries)
    |>.and (Schema.optional stepsNames []
      (Schema.items (Schema.record "WorkflowStep" WorkflowStep.check)) entries)
    |>.and (Schema.extras [["name"], ["description"], ["trigger"], stepsNames] entries)

/-- The workflow that a value describes. -/
def ofValue (value : Value) : Outcome Workflow :=
  (Schema.record "WorkflowSchema" check value).outcome

/-- The workflow that a map, or a sequence of pairs, makes. -/
def ofItems (value : Value) : Outcome Workflow := do
  (check (← value.entries)).outcome

/-- A workflow as a map, its further entries last. -/
def toValue (workflow : Workflow) : Value :=
  .ofFields ([("name", workflow.name.elim .null .text),
    ("description", workflow.description.elim .null .text),
    ("trigger", workflow.trigger.elim .null .ofFields),
    ("steps", .list (workflow.steps.map WorkflowStep.toValue))] ++ workflow.extras)

end Workflow
end Stencil
