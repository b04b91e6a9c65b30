import Stencil.Resolve.Resolver
import Stencil.Schema.Check
import Stencil.Text.Case

/-!
# Settings

The policy and the template of dates that a resolver is built with, from named values or from an
environment. An environment that names no policy, or an unknown one, leaves the usual policy in
force.
-/

namespace Stencil

/-- What a resolver is configured with. -/
structure Settings where
  policy : Policy
  dateTemplate : String
  deriving DecidableEq, Repr

namespace Settings

/-- The settings that hold when nothing is configured. -/
def default : Settings :=
  ⟨.literal, Builtin.defaultDateTemplate⟩

/-- The settings that the entries of a dictionary describe, or what is wrong with them. -/
def check (entries : List (Value × Value)) : Checked Settings :=
  (Checked.build Settings.mk).and
      (Schema.optional ["on_unresolved"] .literal (Schema.choice Policy.all Policy.name) entries)
    |>.and (Schema.optional ["date_format"] Builtin.defaultDateTemplate Schema.nonemptyText entries)

/-- The settings of an environment; what it does not set, or not to a known policy, is as usual. -/
def ofEnvironment (environment : Fields String) : Settings :=
  let name := (Fields.get? environment "WORKFLOW_VARIABLES_ON_UNRESOLVED").getD "literal"
  let policy := Policy.ofName? (Text.lowered (Text.trimmed name))
  let template :=
    Text.trimmed ((Fields.get? environment "WORKFLOW_VARIABLES_DATE_FORMAT").getD "")
  ⟨policy.getD .literal, if template.isEmpty then Builtin.defaultDateTemplate else template⟩

/-- The resolver with the built-in transformations under these settings. -/
def resolver (settings : Settings) : Resolver :=
  .builtin settings.policy settings.dateTemplate

end Settings
end Stencil
