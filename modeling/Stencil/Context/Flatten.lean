import Stencil.Context.Basic
import Stencil.Value.Display

/-!
# Paths of a context

The paths of all values in a context that are no maps, in the order of a walk through its maps.
-/

namespace Stencil

/-- A path and the label of a key below it. -/
def joinPath (path label : String) : String :=
  if path.isEmpty then label else s!"{path}.{label}"

mutual

/-- The paths below a value that stands at a path. -/
def Value.leafPaths (path : String) : Value → Outcome (List String)
  | .map entries => leafPathsIn path entries
  | _ => .ok [path]

/-- The paths below the entries of a map that stands at a path. -/
def leafPathsIn (path : String) : List (Value × Value) → Outcome (List String)
  | [] => .ok []
  | (key, value) :: rest => do
    let label ← key.label
    let below ← value.leafPaths (joinPath path label)
    return below ++ (← leafPathsIn path rest)

end

/-- The paths to the leaves of all values of a context. -/
def Context.leafPaths (context : Context) : Outcome (List String) :=
  (Value.ofFields context.merged).leafPaths ""

end Stencil
