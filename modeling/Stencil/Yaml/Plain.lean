import Stencil.Yaml.Cursor

/-!
# Plain scalars

A plain scalar is a sequence of runs of characters with blanks between them. A run ends before a
blank, before a colon that ends a key and, inside brackets, before the marks of collections. The
scalar ends where no run follows the blanks, where a comment or a document mark follows them, and
outside brackets where the next line is not indented far enough.
-/

namespace Stencil.Yaml.Plain

/-- Whether a character separates the parts of a collection in brackets. -/
def isFlowMark (c : Char) : Bool :=
  c == ',' || c == '[' || c == ']' || c == '{' || c == '}'

/-- Whether a colon in front of this ends a key. -/
def endsKey (flow : Bool) (next : Option Char) : Bool :=
  isGap next || (flow && next.any isFlowMark)

/-- The run of characters that a text begins with; `flow` tells whether it stands in brackets. -/
def run (flow : Bool) : List Char → List Char
  | [] => []
  | c :: rest =>
    if isGap (some c) || (c == ':' && endsKey flow rest.head?)
        || (flow && (isFlowMark c || c == '?')) then []
    else c :: run flow rest

/-- The line breaks up to the next character that is neither a space nor a break, and the place of
that character; none if one of the lines begins with a document mark. -/
def furtherBreaks : (steps : Nat) → Cursor → Option (List Char) × Cursor
  | 0, cursor => (some [], cursor)
  | steps + 1, cursor =>
    let cursor := cursor.skipSpaces
    match cursor.takeBreak with
    | ([], _) => (some [], cursor)
    | (first, after) =>
      if after.atDocumentMark then (none, after)
      else
        let (following, stop) := furtherBreaks steps after
        (following.map (first ++ ·), stop)

/-- The blanks behind a run: what stands for them if the scalar goes on, which is nothing if it
does not, the place behind them, and whether a line ended among them. -/
structure Gap where
  text : List Char
  stop : Cursor
  endedLine : Bool

/-- The blanks and line breaks ahead, as they are read inside a plain scalar. -/
def gap (cursor : Cursor) : Gap :=
  let after := cursor.skipSpaces
  match after.takeBreak with
  | ([], _) => ⟨cursor.run (· == ' '), after, false⟩
  | (first, line) =>
    if line.atDocumentMark then ⟨[], line, true⟩
    else match furtherBreaks (line.rest.length + 1) line with
      | (none, stop) => ⟨[], stop, true⟩
      | (some following, stop) => ⟨foldedBreaks first following, stop, true⟩

/-- A plain scalar: its text, the place behind it and the blanks that follow, and whether a line
ended among those. -/
structure Scalar where
  text : List Char
  stop : Cursor
  endedLine : Bool

/-- The rest of a plain scalar, given the blanks that were passed. Lines that begin before column
`indent` do not belong to a scalar outside brackets. -/
def scalarFrom (flow : Bool) (indent : Nat) : (steps : Nat) → Gap → Scalar
  | 0, passed => ⟨[], passed.stop, passed.endedLine⟩
  | steps + 1, passed =>
    let cursor := passed.stop
    let here := if cursor.next == some '#' then [] else run flow cursor.rest
    if here.isEmpty then ⟨[], cursor, passed.endedLine⟩
    else
      let behind := gap (cursor.skip here.length)
      if behind.text.isEmpty || behind.stop.next == some '#'
          || (!flow && behind.stop.column < indent) then
        ⟨passed.text ++ here, behind.stop, behind.endedLine⟩
      else
        let tail := scalarFrom flow indent steps behind
        ⟨passed.text ++ here ++ tail.text, tail.stop, tail.endedLine⟩

/-- The plain scalar ahead. -/
def scalar (flow : Bool) (indent : Nat) (cursor : Cursor) : Scalar :=
  scalarFrom flow indent (cursor.rest.length + 1) ⟨[], cursor, false⟩

end Stencil.Yaml.Plain
