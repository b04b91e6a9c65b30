/-!
# Diagnostics

What goes wrong with a reference without ending the resolution of its template.
-/

namespace Stencil

/-- The kind of a diagnostic. -/
inductive DiagnosticCode
  | emptyReference
  | invalidPath
  | unresolvedPath
  | unknownTransformation
  | transformationFailed
  deriving DecidableEq, Repr

/-- The name of a code in answers. -/
def DiagnosticCode.name : DiagnosticCode → String
  | .emptyReference => "empty_reference"
  | .invalidPath => "invalid_path"
  | .unresolvedPath => "unresolved_path"
  | .unknownTransformation => "unknown_transformation"
  | .transformationFailed => "transformation_failed"

/-- A problem with a reference, with the path and the transformation it concerns. -/
structure Diagnostic where
  code : DiagnosticCode
  message : String
  path : Option String
  transformation : Option String
  deriving DecidableEq, Repr

namespace Diagnostic

/-- The diagnostic of a reference without a path. -/
def emptyReference (raw : String) : Diagnostic :=
  ⟨.emptyReference, s!"Empty variable reference: {raw}", some "", none⟩

/-- The diagnostic of a path that leads nowhere. -/
def unresolvedPath (path : String) : Diagnostic :=
  ⟨.unresolvedPath, s!"Variable path cannot be resolved: {path}", some path, none⟩

/-- The diagnostic of a path that is not well formed. -/
def invalidPath (path : String) : Diagnostic :=
  ⟨.invalidPath, s!"Invalid variable path format: '{path}'", some path, none⟩

/-- A text, given in quotes, is no reference. -/
def notReference (quoted : String) : Diagnostic :=
  ⟨.invalidPath, s!"Not a variable reference: {quoted}", none, none⟩

/-- A step names no transformation; the path of its reference is given where it is known. -/
def unknownTransformation (path : Option String) (name : String) : Diagnostic :=
  ⟨.unknownTransformation, s!"Unknown transformation: {name}", path, some name⟩

/-- The diagnostic of a transformation that failed, for the given reason. -/
def transformationFailed (name reason : String) : Diagnostic :=
  ⟨.transformationFailed, s!"Error applying transformation {name}: {reason}", none, some name⟩

end Diagnostic
end Stencil
