import Stencil.Fault
import Stencil.Text.Blank

/-!
# Paths

A path is a list of segments, each a name with any number of indexes behind it, written with
points between the segments and brackets around the indexes. `Path.parse` reads any text as a
path; `Path.isValid` tells the texts whose names are identifiers; `Path.render` is the way back.
-/

namespace Stencil

/-- A step into a value: a name, then indexes into the sequence found under it. -/
structure Segment where
  name : String
  indices : List Nat
  deriving DecidableEq, Repr

/-- The way to a value in a context. -/
abbrev Path := List Segment

namespace Path

/-- The number of an index; too long a run of digits is not read. -/
def indexOf (digits : List Char) : Outcome Nat :=
  if digitLimit < digits.length then .error (.longNumeral digits.length)
  else .ok (Text.decimalNumber digits)

/-- The digits of each index in a text that consists of indexes only. Within brackets, `inside`
holds the digits read so far, the last one first. -/
def indexGroups? : (inside : Option (List Char)) → List Char → Option (List (List Char))
  | none, [] => some []
  | some _, [] => none
  | none, c :: rest => if c = '[' then indexGroups? (some []) rest else none
  | some digits, c :: rest =>
    if c = ']' then
      if digits.isEmpty then none else (indexGroups? none rest).map (digits.reverse :: ·)
    else if Text.isDecimal c then indexGroups? (some (c :: digits)) rest
    else none

/-- The shortest name, `name` at its front with the last character first, that leaves only
indexes behind it. A name is not empty and holds no line break. -/
def splitIndexes? : (name : List Char) → List Char → Option (List Char × List (List Char))
  | _, [] => none
  | name, c :: rest =>
    match if name.isEmpty then none else indexGroups? none (c :: rest) with
    | some groups => some (name.reverse, groups)
    | none => if c = '\n' then none else splitIndexes? (c :: name) rest

/-- The segment that a part of a path spells; a part without indexes is a name as it stands. -/
def segmentOf (part : List Char) : Outcome Segment :=
  match splitIndexes? [] part with
  | some (name, groups) => do return ⟨String.ofList name, ← groups.mapM indexOf⟩
  | none => .ok ⟨String.ofList part, []⟩

/-- The parts of a path, without the blanks around them. -/
def parts (path : List Char) : List (List Char) :=
  (path.splitOn '.').map Text.trim

/-- The path that a text spells; a blank text spells the path without segments. -/
def parse (path : String) : Outcome Path :=
  if Text.isBlankText path.toList then .ok [] else (parts path.toList).mapM segmentOf

/-- The characters of a segment: its name, and its indexes in brackets. -/
def renderSegment (segment : Segment) : List Char :=
  segment.name.toList
    ++ segment.indices.flatMap fun index => '[' :: Text.decimalText index ++ [']']

/-- The text of a path, with points between its segments. -/
def render (path : Path) : String :=
  String.ofList (['.'].intercalate (path.map renderSegment))

/-- Whether a character may begin an identifier. -/
def beginsIdentifier (c : Char) : Bool :=
  c.isAlpha || c == '_'

/-- Whether a character may stand inside an identifier. -/
def continuesIdentifier (c : Char) : Bool :=
  c.isAlphanum || c == '_'

/-- Whether a text is an identifier. -/
def isIdentifier : List Char → Bool
  | [] => false
  | c :: rest => beginsIdentifier c && rest.all continuesIdentifier

/-- Whether a part of a path is an identifier with indexes behind it. -/
def isValidPart (part : List Char) : Bool :=
  isIdentifier (part.takeWhile continuesIdentifier)
    && (indexGroups? none (part.dropWhile continuesIdentifier)).isSome

/-- Whether a text is a path of identifiers, blanks around the whole aside. -/
def isValid (path : String) : Bool :=
  ((Text.trim path.toList).splitOn '.').all isValidPart

/-- A path without blanks around its parts and without empty parts. -/
def normalized (path : String) : String :=
  let kept := (parts (Text.trim path.toList)).filter (!·.isEmpty)
  String.ofList (['.'].intercalate kept)

/-- The last part of a path as written. -/
def lastPart (path : String) : String :=
  String.ofList ((path.toList.splitOn '.').getLast?.getD [])

/-- The first part of a path as written. -/
def firstPart (path : String) : String :=
  String.ofList ((path.toList.splitOn '.').head?.getD [])

/-- Whether a path has more than one part. -/
def isNested (path : String) : Bool :=
  path.toList.contains '.'

/-- A path cut at its last point; a path of one part has an empty front. -/
def frontAndLast (path : String) : String × String :=
  let pieces := path.toList.splitOn '.'
  (String.ofList (['.'].intercalate pieces.dropLast), lastPart path)

end Path
end Stencil
