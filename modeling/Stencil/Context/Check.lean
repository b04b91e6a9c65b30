import Stencil.Context.Basic
import Stencil.Schema.Check
import Stencil.Value.Entries

/-!
# Contexts from values

A context is given as a map with the layers under either of two spellings. A missing layer is
empty, and other entries are passed over. `Context.replaceLayers` checks a context some of whose
layers are given anew.
-/

namespace Stencil.Context

/-- The names under which global variables are given. -/
def globalsNames : List String :=
  ["global_variables", "globalVariables"]

/-- The names under which variables are given. -/
def variablesNames : List String :=
  ["variables"]

/-- The names of the layer of step outputs. -/
def stepOutputsNames : List String :=
  ["step_outputs", "stepOutputs"]

/-- The context that the entries of a dictionary describe, or what is wrong with them. -/
def check (entries : List (Value × Value)) : Checked Context :=
  (Checked.build Context.mk).and
      (Schema.optional globalsNames [] (Schema.fields Schema.any) entries)
    |>.and (Schema.optional variablesNames [] (Schema.fields Schema.any) entries)
    |>.and (Schema.optional stepOutputsNames [] (Schema.fields Schema.any) entries)

/-- The context that a value gives; null gives the empty one. -/
def ofValue (value : Value) : Outcome Context :=
  match value with
  | .null => .ok .empty
  | other => do (check (← other.entries)).outcome

/-- A context as entries under the first names of its layers. -/
def entries (context : Context) : List (Value × Value) :=
  [(.text "global_variables", .ofFields context.globals),
    (.text "variables", .ofFields context.vars),
    (.text "step_outputs", .ofFields context.stepOutputs)]

/-- A context as a value, with a map for each of its layers. -/
def toValue (context : Context) : Value :=
  .map context.entries

/-- The context with some of its layers given anew. -/
def replaceLayers (context : Context) (updates : List (Value × Value)) : Outcome Context :=
  (check (updates.foldl (fun map (key, value) => Value.setEntry key value map)
    context.entries)).outcome

end Stencil.Context
