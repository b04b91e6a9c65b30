import Stencil.Text.Blank

/-!
# Steps

A step of a pipeline is the name of a transformation and its arguments, separated by colons. A
quote that opens an argument keeps colons inside it from separating, and the quotes around an
argument are dropped. A step remembers the text it was read from.
-/

namespace Stencil

/-- A call of a transformation in a pipeline. -/
structure Step where
  name : String
  args : List String
  /-- The step as written; empty for a step that was not read from text. -/
  text : String
  deriving DecidableEq, Repr

namespace Step

/-- Whether a character opens and closes quoted arguments. -/
def isQuote (c : Char) : Bool :=
  c == '"' || c == '\''

/-- The pieces of a step between the colons that separate. `piece` holds the piece read so far,
the last character first, and `quote` the quote that is open. -/
def pieces : (piece : List Char) → (quote : Option Char) → List Char → List (List Char)
  | piece, _, [] => [piece.reverse]
  | piece, some quote, c :: rest =>
    pieces (c :: piece) (if c = quote then none else some quote) rest
  | piece, none, c :: rest =>
    if c = ':' then piece.reverse :: pieces [] none rest
    else
      let opens := isQuote c && Text.isBlankText piece
      pieces (c :: piece) (if opens then some c else none) rest

/-- An argument without the quotes around it; without quotes it stays as it is. -/
def unquote (argument : List Char) : List Char :=
  match Text.trim argument with
  | quote :: second :: rest =>
    let body := second :: rest
    if isQuote quote && body.getLast? == some quote then body.dropLast else argument
  | _ => argument

/-- The step that a text between bars spells. -/
def parse (text : String) : Step :=
  let trimmed := Text.trim text.toList
  let all := pieces [] none trimmed
  { name := String.ofList (Text.trim (all.head?.getD []))
    args := all.tail.map fun argument => String.ofList (unquote argument)
    text := String.ofList trimmed }

/-- A step as it is written in a reference. -/
def render (step : Step) : String :=
  if step.text.isEmpty then ":".intercalate (step.name :: step.args) else step.text

end Step
end Stencil
