import Stencil.Fault

/-!
# Places in a document

A cursor is what is left of a text and the place that was reached in it: how many characters lie
before it, its line and its column. The end of the text counts as the end of a line and of a word,
which the tests on the next character say by holding when there is none. The main statement is
`rest_skip`: a cursor that skips characters has the text without them left.
-/

namespace Stencil.Yaml

/-- Whether a character ends a line. -/
def isBreak (c : Char) : Bool :=
  c == '\n' || c == '\r' || c == '\u0085' || c == '\u2028' || c == '\u2029'

/-- Whether a character is a space or a tab. -/
def isSpace (c : Char) : Bool :=
  c == ' ' || c == '\t'

/-- Whether a line ends before the next character. -/
def endsLine (next : Option Char) : Bool :=
  next.all isBreak

/-- Whether a word ends before the next character; a tab does not end one. -/
def endsWord (next : Option Char) : Bool :=
  next.all fun c => c == ' ' || isBreak c

/-- Whether what comes next is blank or nothing. -/
def isGap (next : Option Char) : Bool :=
  next.all fun c => isSpace c || isBreak c

/-- What is left of a text, and the place that was reached. -/
structure Cursor where
  rest : List Char
  index : Nat
  line : Nat
  column : Nat
  deriving Repr

namespace Cursor

/-- The cursor at the beginning of a text. -/
def start (text : List Char) : Cursor :=
  ⟨text, 0, 0, 0⟩

/-- The next character, if there is one. -/
def next (cursor : Cursor) : Option Char :=
  cursor.rest.head?

/-- The place behind the next character. A byte order mark has no width, and a carriage return in
front of a line feed does not end its line. -/
def forward (cursor : Cursor) : Cursor :=
  match cursor.rest with
  | [] => cursor
  | c :: rest =>
    if isBreak c && !(c == '\r' && rest.head? == some '\n') then
      ⟨rest, cursor.index + 1, cursor.line + 1, 0⟩
    else if c = '\uFEFF' then ⟨rest, cursor.index + 1, cursor.line, cursor.column⟩
    else ⟨rest, cursor.index + 1, cursor.line, cursor.column + 1⟩

/-- The cursor behind several characters. -/
def skip (cursor : Cursor) : (count : Nat) → Cursor
  | 0 => cursor
  | count + 1 => cursor.forward.skip count

/-- The characters ahead that pass a test, up to the first that does not. -/
def run (cursor : Cursor) (test : Char → Bool) : List Char :=
  cursor.rest.takeWhile test

/-- The place behind the next characters that pass a test. -/
def skipWhile (cursor : Cursor) (test : Char → Bool) : Cursor :=
  cursor.skip (cursor.run test).length

/-- The cursor behind the spaces ahead. -/
def skipSpaces (cursor : Cursor) : Cursor :=
  cursor.skipWhile (· == ' ')

/-- The place behind the comment that follows, if one does. -/
def skipComment (cursor : Cursor) : Cursor :=
  if cursor.next == some '#' then cursor.skipWhile (!isBreak ·) else cursor

/-- Whether a text stands ahead. -/
def startsWith (cursor : Cursor) (text : String) : Bool :=
  text.toList.isPrefixOf cursor.rest

/-- The line break that follows and the place behind it; nothing when no line ends here. Breaks of
one or two control characters count as a line feed. -/
def takeBreak (cursor : Cursor) : List Char × Cursor :=
  match cursor.rest with
  | [] => ([], cursor)
  | '\r' :: '\n' :: _ => (['\n'], cursor.skip 2)
  | c :: _ =>
    if c = '\u2028' ∨ c = '\u2029' then ([c], cursor.forward)
    else if isBreak c then (['\n'], cursor.forward)
    else ([], cursor)

/-- Whether a text of three characters stands here as a word of its own. -/
def startsMark (cursor : Cursor) (mark : String) : Bool :=
  cursor.startsWith mark && isGap (cursor.rest.drop 3).head?

/-- Whether the mark of a document's beginning or end follows. -/
def atDocumentMark (cursor : Cursor) : Bool :=
  cursor.startsMark "---" || cursor.startsMark "..."

/-- A cursor that goes forward has the text without its first character left. -/
@[simp] theorem rest_forward (cursor : Cursor) : cursor.forward.rest = cursor.rest.tail := by
  unfold forward
  split
  · rename_i empty
    rw [empty]
    rfl
  · rename_i c rest begins
    rw [begins]
    split
    · rfl
    · split <;> rfl

/-- A cursor that skips characters has the text without them left. -/
@[simp] theorem rest_skip (cursor : Cursor) (count : Nat) :
    (cursor.skip count).rest = cursor.rest.drop count := by
  induction count generalizing cursor with
  | zero => rfl
  | succ count ih => rw [skip, ih, rest_forward, List.drop_tail]

/-- A cursor that skips what passes a test has the text from the first character on that does
not. -/
@[simp] theorem rest_skipWhile (cursor : Cursor) (test : Char → Bool) :
    (cursor.skipWhile test).rest = cursor.rest.dropWhile test := by
  rw [skipWhile, rest_skip, run]
  induction cursor.rest with
  | nil => rfl
  | cons c rest ih =>
    by_cases passes : test c
    · simpa [passes] using ih
    · simp [passes]

/-- The beginning of the next line, if nothing but spaces and a comment is left on this one. -/
def endLine (cursor : Cursor) : Outcome Cursor :=
  let stop := cursor.skipSpaces.skipComment
  if endsLine stop.next then .ok stop.takeBreak.2 else .error .notYaml

end Cursor

/-- What stands for a line break and the empty lines behind it inside a scalar: a space for a lone
line feed, and otherwise the breaks without the first line feed. -/
def foldedBreaks (first following : List Char) : List Char :=
  if first = ['\n'] then
    if following.isEmpty then [' '] else following
  else first ++ following

end Stencil.Yaml
