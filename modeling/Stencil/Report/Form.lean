import Stencil.Catalog.Basic
import Stencil.Resolve.Resolver

/-!
# Reports as values

Diagnostics, previews and transformations as maps of named parts.
-/

namespace Stencil

/-- A diagnostic as a value; a part that it does not have is left out. -/
def Diagnostic.toValue (diagnostic : Diagnostic) : Value :=
  .ofFields ([("code", .text diagnostic.code.name), ("message", .text diagnostic.message)]
    ++ (diagnostic.path.map fun path => ("path", .text path)).toList
    ++ (diagnostic.transformation.map fun name => ("transformation", .text name)).toList)

/-- Diagnostics as a list of maps. -/
def diagnosticsValue (diagnostics : List Diagnostic) : Value :=
  .list (diagnostics.map Diagnostic.toValue)

/-- A previewed reference as a value; one that leads nowhere has the value null. -/
def PreviewedReference.toValue (previewed : PreviewedReference) : Value :=
  .ofFields [("raw", .text previewed.raw),
    ("path", .text previewed.path),
    ("value", if previewed.value.isUndefined then .null else previewed.value),
    ("resolved", .bool previewed.resolved)]

/-- A preview as a map. -/
def Preview.toValue (preview : Preview) : Value :=
  .ofFields [("original", .text preview.template),
    ("resolved", .text preview.resolved),
    ("variables", .list (preview.references.map PreviewedReference.toValue)),
    ("diagnostics", diagnosticsValue preview.diagnostics)]

/-- What is known of a transformation, as a map. -/
def Transformation.toValue (transformation : Transformation) : Value :=
  .ofFields [("id", .text transformation.id),
    ("name", .text transformation.name),
    ("description", .text transformation.description),
    ("category", transformation.category.elim .null .text),
    ("example", transformation.example?.elim .null .text)]

end Stencil
