import Stencil.Template.Path
import Stencil.Template.Step
import Stencil.Template.Token
import Stencil.Text.Search

/-!
# References

A reference is a hole read as a path and a pipeline: its body, without the blanks around it, is
split at the bars, the first piece is the path and the others are steps; empty steps are dropped.
`references` lists those of a text, `Reference.build` writes one, and `Reference.flaw?` tells what
is wrong with the text of a single one.
-/

namespace Stencil

/-- A hole of a text, read as a path and a pipeline. -/
structure Reference where
  /-- The hole with its braces. -/
  raw : String
  path : String
  /-- The parts of the path, without the blanks around them. -/
  parts : List String
  segments : Path
  steps : List Step
  /-- The position of the opening braces in the text. -/
  start : Nat
  /-- The position behind the closing braces. -/
  stop : Nat
  deriving DecidableEq, Repr

namespace Reference

/-- The pieces of a hole's body between the bars, without the blanks around them. -/
def piecesOf (body : List Char) : List (List Char) :=
  ((Text.trim body).splitOn '|').map Text.trim

/-- The reference that a hole at a position of its text spells. -/
def ofHole (position : Nat) (body : List Char) : Outcome Reference := do
  let pieces := piecesOf body
  let path := pieces.head?.getD []
  let steps := pieces.tail.filter (!·.isEmpty)
  return {
    raw := String.ofList (Token.holeSource body)
    path := String.ofList path
    parts := if path.isEmpty then [] else (Path.parts path).map String.ofList
    segments := ← Path.parse (String.ofList path)
    steps := steps.map fun step => Step.parse (String.ofList step)
    start := position
    stop := position + body.length + 4 }

/-- Whether a reference has no path. -/
def isEmpty (reference : Reference) : Bool :=
  reference.path.isEmpty

/-- The references among tokens that begin at a position of their text. -/
def ofTokens : (position : Nat) → List Token → Outcome (List Reference)
  | _, [] => .ok []
  | position, .char _ :: rest => ofTokens (position + 1) rest
  | position, .hole body :: rest => do
    let reference ← ofHole position body
    return reference :: (← ofTokens (position + body.length + 4) rest)

/-- The text of a reference with a path and steps. -/
def build (path : String) (steps : List String) : String :=
  braced ("|".intercalate (path :: steps))

/-- What is wrong with a text that should be a single reference; none for a well formed one. -/
def flaw? (text : String) : Option String :=
  let chars := text.toList
  if !(['{', '{'].isPrefixOf chars && ['}', '}'].isSuffixOf chars) then
    some "Variable reference must be wrapped in \x7b\x7b \x7d\x7d"
  else
    let content := Text.trim ((chars.drop 2).dropLast.dropLast)
    if content.isEmpty then some "Variable reference cannot be empty"
    else
      let path := String.ofList (Text.trim ((content.splitOn '|').head?.getD []))
      if Path.isValid path then none else some s!"Invalid variable path format: '{path}'"

/-- A text with every occurrence of one reference replaced by another. -/
def replace (text old new : String) : String :=
  String.ofList (Text.replaceAll old.toList new.toList text.toList)

end Reference

/-- The references of a text in their order. -/
def references (text : String) : Outcome (List Reference) :=
  Reference.ofTokens 0 (Token.tokens text.toList)

/-- Whether a text has references. -/
def hasReferences (text : String) : Bool :=
  !(Token.bodies (Token.tokens text.toList)).isEmpty

/-- The paths of the references of a text, without repeats. -/
def referencedPaths (text : String) : Outcome (List String) := do
  return ((← references text).map (·.path)).eraseDups

/-- The names of the transformations in a text, without repeats. -/
def transformationNames (text : String) : Outcome (List String) := do
  return ((← references text).flatMap fun reference => reference.steps.map (·.name)).eraseDups

/-- The first reference of a text whose span holds a position, both ends included. -/
def referenceAt? (text : String) (position : Int) : Outcome (Option Reference) := do
  return (← references text).find? fun reference =>
    (reference.start : Int) ≤ position && position ≤ (reference.stop : Int)

end Stencil
