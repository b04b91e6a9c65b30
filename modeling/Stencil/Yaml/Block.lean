import Stencil.Yaml.Cursor

/-!
# Block scalars

A block scalar is the lines behind a mark that are indented as its first line, or as its header
says. In a folded one a line feed between two lines of text becomes a space. The header also tells
what becomes of the line breaks at the end.
-/

namespace Stencil.Yaml.Block

/-- What becomes of the line breaks at the end: all but the first are dropped, all are, or none. -/
inductive Chomping
  | clip
  | strip
  | keep
  deriving DecidableEq, Repr

/-- The header of a block scalar. -/
structure Header where
  chomping : Chomping
  /-- How far the lines are indented beyond the surrounding collection. -/
  increment : Option Nat

/-- A sign that tells what becomes of the breaks at the end, if one follows, and the place behind
it. -/
def takeChomping (cursor : Cursor) : Option Chomping × Cursor :=
  match cursor.next with
  | some '+' => (some .keep, cursor.forward)
  | some '-' => (some .strip, cursor.forward)
  | _ => (none, cursor)

/-- A digit that tells the indentation, if one follows, and the place behind it. -/
def takeIncrement (cursor : Cursor) : Option Nat × Cursor :=
  match cursor.next with
  | some c => if c.isDigit then (some (c.toNat - '0'.toNat), cursor.forward) else (none, cursor)
  | none => (none, cursor)

/-- The header at a place and the beginning of the next line. The sign may stand before or behind
the digit, which is not zero. -/
def takeHeader (cursor : Cursor) : Outcome (Header × Cursor) := do
  let (before, cursor) := takeChomping cursor
  let (increment, cursor) := takeIncrement cursor
  let (behind, cursor) := if before.isSome then (none, cursor) else takeChomping cursor
  if increment = some 0 || !endsWord cursor.next then .error .notYaml
  else return (⟨(before.or behind).getD .clip, increment⟩, ← cursor.endLine)

/-- The breaks of the empty lines at a place, the greatest column among their ends and that of the
next character, and its place. -/
def emptyLines : (steps : Nat) → Cursor → List Char × Nat × Cursor
  | 0, cursor => ([], 0, cursor)
  | steps + 1, cursor =>
    let stop := cursor.skipSpaces
    let width := if stop.index = cursor.index then 0 else stop.column
    match stop.takeBreak with
    | ([], _) => ([], width, stop)
    | (first, after) =>
      let (following, deepest, last) := emptyLines steps after
      (first ++ following, max width deepest, last)

/-- The place behind the spaces that follow, up to a column. -/
def skipIndent (indent : Nat) (cursor : Cursor) : Cursor :=
  cursor.skip (min (cursor.run (· == ' ')).length (indent - cursor.column))

/-- The breaks of the lines at a place that hold at most the indentation, and the place behind the
indentation of the next line. -/
def breaks (indent : Nat) : (steps : Nat) → Cursor → List Char × Cursor
  | 0, cursor => ([], cursor)
  | steps + 1, cursor =>
    let cursor := skipIndent indent cursor
    match cursor.takeBreak with
    | ([], _) => ([], cursor)
    | (first, after) =>
      let (following, stop) := breaks indent steps after
      (first ++ following, stop)

/-- Whether a line of the scalar begins at a place. -/
def beginsLine (indent : Nat) (cursor : Cursor) : Bool :=
  cursor.column == indent && !cursor.rest.isEmpty

/-- Whether the line at a place begins with text and not with a further blank. -/
def beginsWithText (cursor : Cursor) : Bool :=
  !cursor.next.any isSpace

/-- What is left of the breaks at the end. -/
def chomped (chomping : Chomping) (first following : List Char) : List Char :=
  match chomping with
  | .strip => []
  | .clip => first
  | .keep => first ++ following

/-- The lines of a scalar from a place on, given the breaks that precede the first, and the place
behind them. -/
def linesFrom (folded : Bool) (chomping : Chomping) (indent : Nat) :
    (steps : Nat) → (before : List Char) → Cursor → List Char × Cursor
  | 0, before, cursor => (before, cursor)
  | steps + 1, before, cursor =>
    let line := cursor.run (!isBreak ·)
    let (first, after) := (cursor.skip line.length).takeBreak
    let (following, next) := breaks indent (after.rest.length + 1) after
    if beginsLine indent next then
      let joint :=
        if folded && first = ['\n'] && beginsWithText cursor && beginsWithText next then
          if following.isEmpty then [' '] else []
        else first
      let (tail, stop) := linesFrom folded chomping indent steps following next
      (before ++ line ++ joint ++ tail, stop)
    else (before ++ line ++ chomped chomping first following, next)

/-- The block scalar whose mark stands at a place, and the place behind it. `least` is the least
column at which its lines may begin. -/
def scalar (folded : Bool) (least : Nat) (cursor : Cursor) : Outcome (List Char × Cursor) := do
  let (header, line) ← takeHeader cursor.forward
  let steps := line.rest.length + 1
  let (indent, before, first) := match header.increment with
    | none =>
      let (before, deepest, first) := emptyLines steps line
      (max least deepest, before, first)
    | some increment =>
      let indent := least + increment - 1
      let (before, first) := breaks indent steps line
      (indent, before, first)
  if beginsLine indent first then
    return linesFrom folded header.chomping indent steps before first
  else return (chomped header.chomping [] before, first)

end Stencil.Yaml.Block
