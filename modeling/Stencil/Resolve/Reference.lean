import Stencil.Context.Lookup
import Stencil.Template.Reference
import Stencil.Transform.Registry

/-!
# Resolving a reference

The value of a reference is the value of its path, sent through its pipeline. A reference is
resolved when its path leads somewhere, whatever its pipeline makes of the value.
-/

namespace Stencil

/-- What resolving a reference or a template yields. -/
structure Resolution where
  value : Value
  /-- Whether every path led somewhere. -/
  resolved : Bool
  diagnostics : List Diagnostic
  /-- The paths that led nowhere. -/
  unresolvedPaths : List String

namespace Reference

/-- What is to be said of the path of a reference that leads to a value. -/
def pathDiagnostics (reference : Reference) (value : Value) : List Diagnostic :=
  if reference.isEmpty then [.emptyReference reference.raw]
  else if value.isUndefined then [.unresolvedPath reference.path]
  else []

/-- The value that the path of a reference leads to. -/
def pathValue (values : Fields Value) (reference : Reference) : Outcome Value :=
  if reference.isEmpty then .ok .undefined else lookup reference.segments values

/-- What a reference resolves to: the value of its path, transformed step by step. -/
def resolve (registry : Registry) (values : Fields Value) (reference : Reference) :
    Outcome Resolution := do
  let found ← reference.pathValue values
  let (value, reported) := registry.applyAll found reference.steps
  return {
    value
    resolved := !found.isUndefined
    diagnostics := reference.pathDiagnostics found ++ reported
    unresolvedPaths := if found.isUndefined then [reference.path] else [] }

/-- The first reference in a text, or in the text between braces; none when it holds no reference
either way. -/
def ofText? (text : String) : Outcome (Option Reference) := do
  match ← references text with
  | reference :: _ => return some reference
  | [] => return (← references (braced text)).head?

end Reference
end Stencil
