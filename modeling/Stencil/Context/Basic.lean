import Stencil.Value.Basic

/-!
# Contexts

A context holds values in three layers. A name is looked up in the layers laid over each other:
outputs of steps hide variables, and variables hide globals. Only names are laid over each other;
the values under them are never merged.
-/

namespace Stencil

/-- The values that references are resolved against, in layers. -/
structure Context where
  globals : Fields Value
  vars : Fields Value
  stepOutputs : Fields Value
  deriving Inhabited

namespace Context

/-- The context without values. -/
def empty : Context :=
  ⟨[], [], []⟩

/-- The layers laid over each other. A name keeps the place of its first appearance and takes the
value of the highest layer that has it. -/
def merged (context : Context) : Fields Value :=
  Fields.overlay (Fields.overlay context.globals context.vars) context.stepOutputs

end Context
end Stencil
