import Stencil.Context.Basic
import Stencil.Schema.Check
import Stencil.Value.Entries

/-!
# Snapshots of an execution

A snapshot records the variables and globals of a run and the outputs of its steps, one record for
each time that a step was run.
-/

namespace Stencil

/-- The output recorded for a step. -/
structure StepOutput where
  stepId : String
  output : Value

/-- The state of a run. -/
structure Snapshot where
  vars : Fields Value
  steps : List StepOutput
  globals : Fields Value

namespace StepOutput

/-- The record of a step that the entries of a dictionary describe, or what is wrong with them. -/
def check (entries : List (Value × Value)) : Checked StepOutput :=
  (Checked.build StepOutput.mk).and
      (Schema.required ["step_id", "stepId"] Schema.nonemptyText entries)
    |>.and (Schema.optional ["output"] .null Schema.any entries)

/-- The record of a step as a map. -/
def toValue (record : StepOutput) : Value :=
  .ofFields [("step_id", .text record.stepId), ("output", record.output)]

end StepOutput

namespace Snapshot

/-- The snapshot that the entries of a dictionary describe, or what is wrong with them. -/
def check (entries : List (Value × Value)) : Checked Snapshot :=
  (Checked.build Snapshot.mk).and
      (Schema.optional ["variables"] [] (Schema.fields Schema.any) entries)
    |>.and (Schema.optional ["steps"] []
      (Schema.items (Schema.record "StepOutput" StepOutput.check)) entries)
    |>.and (Schema.optional ["global_variables", "globalVariables"] []
      (Schema.fields Schema.any) entries)

/-- The snapshot that a value describes. -/
def ofValue (value : Value) : Outcome Snapshot :=
  (Schema.record "ExecutionSnapshot" check value).outcome

/-- The snapshot that a map, or a sequence of pairs, makes. -/
def ofItems (value : Value) : Outcome Snapshot := do
  (check (← value.entries)).outcome

/-- A snapshot as a map. -/
def toValue (snapshot : Snapshot) : Value :=
  .ofFields [("variables", .ofFields snapshot.vars),
    ("steps", .list (snapshot.steps.map StepOutput.toValue)),
    ("global_variables", .ofFields snapshot.globals)]

/-- The last output of each step that is not null, in the order in which the steps first gave
one. -/
def outputs (snapshot : Snapshot) : Fields Value :=
  Fields.ofEntries ((snapshot.steps.filter (!·.output.isNull)).map fun record =>
    (record.stepId, record.output))

/-- The values of a run as a context. -/
def context (snapshot : Snapshot) : Context :=
  ⟨snapshot.globals, snapshot.vars, snapshot.outputs⟩

end Snapshot
end Stencil
