import Stencil.Schema.Check
import Stencil.Value.Kind

/-!
# Definitions of variables

What a catalog knows of a variable: names, path, kind, scope, category, texts for the reader and a
current value.
-/

namespace Stencil

/-- Where a variable is visible. -/
inductive Scope
  | global
  | workflow
  | step
  | local
  deriving DecidableEq, Repr

namespace Scope

/-- The scopes in the order in which they are listed. -/
def all : List Scope :=
  [.global, .workflow, .step, .local]

/-- The name of a scope in documents and requests. -/
def name : Scope → String
  | .global => "global"
  | .workflow => "workflow"
  | .step => "step"
  | .local => "local"

/-- The scope of a name that should be one. -/
def ofName (text : String) : Outcome Scope :=
  match all.find? (·.name == text) with
  | some scope => .ok scope
  | none => .error (.notChoice text "VariableScope")

end Scope

/-- Under which heading a variable is listed. -/
inductive Category
  | trigger
  | step
  | form
  | user
  | system
  | custom
  deriving DecidableEq, Repr

namespace Category

/-- The categories in the order in which they are listed. -/
def all : List Category :=
  [.trigger, .step, .form, .user, .system, .custom]

/-- The name of a category in documents and requests. -/
def name : Category → String
  | .trigger => "trigger"
  | .step => "step"
  | .form => "form"
  | .user => "user"
  | .system => "system"
  | .custom => "custom"

/-- The heading of a category on a page. -/
def heading : Category → String
  | .trigger => "Trigger"
  | .step => "Steps"
  | .form => "Form Data"
  | .user => "User"
  | .system => "System"
  | .custom => "Custom"

/-- The category of a name that should be one. -/
def ofName (text : String) : Outcome Category :=
  match all.find? (·.name == text) with
  | some category => .ok category
  | none => .error (.notChoice text "VariableCategory")

end Category

/-- A variable that templates may refer to. -/
structure Definition where
  id : String
  name : String
  path : String
  kind : Kind
  scope : Scope
  category : Option Category
  description : Option String
  sample : Option String
  /-- The trigger or step that produces the value. -/
  source : Option String
  value : Value

namespace Definition

/-- The definition that the entries of a dictionary describe, or what is wrong with them. -/
def check (entries : List (Value × Value)) : Checked Definition :=
  let optionalText (name : String) : Checked (Option String) :=
    Schema.optional [name] none (Schema.orNull Schema.text) entries
  (Checked.build Definition.mk).and (Schema.required ["id"] Schema.nonemptyText entries)
    |>.and (Schema.required ["name"] Schema.text entries)
    |>.and (Schema.required ["path"] Schema.text entries)
    |>.and (Schema.optional ["type"] .any (Schema.choice Kind.all Kind.name) entries)
    |>.and (Schema.optional ["scope"] .workflow (Schema.choice Scope.all Scope.name) entries)
    |>.and (Schema.optional ["category"] none
      (Schema.orNull (Schema.choice Category.all Category.name)) entries)
    |>.and (optionalText "description")
    |>.and (optionalText "example")
    |>.and (optionalText "source")
    |>.and (Schema.optional ["value"] .null Schema.any entries)

/-- The definition that a value describes. -/
def ofValue (value : Value) : Outcome Definition :=
  (Schema.record "VariableDefinition" check value).outcome

/-- The fault of a definition whose identifier is not made of characters alone. -/
def noIdentifier : Fault :=
  .invalid [⟨["id"], .notUnicode⟩]

/-- A text that may be missing, as a value. -/
def optionalValue (text : Option String) : Value :=
  text.elim .null .text

/-- The fields of a definition besides its value. -/
def summary (definition : Definition) : Fields Value :=
  [("id", .text definition.id),
    ("name", .text definition.name),
    ("path", .text definition.path),
    ("type", .text definition.kind.name),
    ("scope", .text definition.scope.name),
    ("category", optionalValue (definition.category.map Category.name)),
    ("description", optionalValue definition.description),
    ("example", optionalValue definition.sample),
    ("source", optionalValue definition.source)]

/-- All fields of a definition, its current value last. -/
def fields (definition : Definition) : Fields Value :=
  definition.summary ++ [("value", definition.value)]

/-- The definition with some of its fields given anew. -/
def replace (definition : Definition) (updates : Fields Value) : Outcome Definition :=
  ofValue (.ofFields (Fields.overlay definition.fields updates))

/-- The category under which a definition is listed. -/
def group (definition : Definition) : Category :=
  definition.category.getD .custom

end Definition
end Stencil
