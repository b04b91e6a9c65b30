import Stencil.Yaml.Cursor

/-!
# Anchors, tags and directives

What may stand in front of a node or of a document: the name under which a node is used again, the
tag that gives its type, and lines that begin with a percent sign. A tag is a handle and a suffix;
directives say what handles stand for.
-/

namespace Stencil.Yaml

/-- A line that begins with a percent sign. -/
inductive Directive
  | version (major : Nat)
  | handle (name meaning : String)
  | reserved
  deriving DecidableEq, Repr

namespace Property

/-- Whether a character may stand in a name. -/
def isNameChar (c : Char) : Bool :=
  c.isAlphanum || c == '-' || c == '_'

/-- Whether a character may stand in the suffix of a tag. -/
def isSuffixChar (c : Char) : Bool :=
  c.isAlphanum || "-;/?:@&=+$,_.!~*'()[]".toList.contains c

/-- The name of an anchor at a place, and the place behind it. -/
def anchor (cursor : Cursor) : Outcome (String × Cursor) :=
  let name := cursor.run isNameChar
  let stop := cursor.skip name.length
  let bounded := isGap stop.next || stop.next.any "?:,]\x7d%@`".toList.contains
  if name.isEmpty || !bounded then .error .notYaml else .ok (String.ofList name, stop)

/-- The bytes that a text begins with, each a percent sign and two hexadecimal digits. -/
def escapedBytes : List Char → Outcome (List UInt8)
  | '%' :: high :: low :: rest =>
    match Text.hexValue? high, Text.hexValue? low with
    | some high, some low => do return UInt8.ofNat (high * 16 + low) :: (← escapedBytes rest)
    | _, _ => .error .notYaml
  | '%' :: _ => .error .notYaml
  | _ => .ok []

/-- The text of the escaped bytes at a place, and the place behind them. -/
def escaped (cursor : Cursor) : Outcome (List Char × Cursor) := do
  let bytes ← escapedBytes cursor.rest
  match Text.utf8Text bytes with
  | .ok text => return (text, cursor.skip (3 * bytes.length))
  | .error _ => .error .notYaml

/-- The characters of a suffix at a place, and the place behind them. -/
def suffixFrom : (steps : Nat) → Cursor → Outcome (List Char × Cursor)
  | 0, cursor => .ok ([], cursor)
  | steps + 1, cursor =>
    match cursor.next with
    | none => .ok ([], cursor)
    | some c =>
      if isSuffixChar c then do
        let (tail, stop) ← suffixFrom steps cursor.forward
        return (c :: tail, stop)
      else if c = '%' then do
        let (text, after) ← escaped cursor
        let (tail, stop) ← suffixFrom steps after
        return (text ++ tail, stop)
      else .ok ([], cursor)

/-- The suffix of a tag at a place, and the place behind it; it is not empty. -/
def suffix (cursor : Cursor) : Outcome (String × Cursor) := do
  let (text, stop) ← suffixFrom (cursor.rest.length + 1) cursor
  if stop.index = cursor.index then .error .notYaml else return (String.ofList text, stop)

/-- The handle of a tag at a place, and the place behind it: one exclamation mark, or a name
between two. -/
def handle (cursor : Cursor) : Outcome (String × Cursor) :=
  match cursor.rest with
  | '!' :: rest =>
    if rest.head? = some ' ' then .ok ("!", cursor.forward)
    else
      let name := rest.takeWhile isNameChar
      if (rest.drop name.length).head? = some '!' then
        .ok (s!"!{String.ofList name}!", cursor.skip (name.length + 2))
      else .error .notYaml
  | _ => .error .notYaml

/-- The tag at a place, which may have no handle, and the place behind it. -/
def tag (cursor : Cursor) : Outcome (Option String × String × Cursor) := do
  let behind := cursor.forward
  let (handle, suffix, stop) ←
    if behind.next = some '<' then do
      let (name, stop) ← suffix behind.forward
      if stop.next = some '>' then pure (none, name, stop.forward) else .error .notYaml
    else if isGap behind.next then pure (none, "!", behind)
    else do
      let word := behind.run fun c => !(c == ' ' || c == '!' || isBreak c)
      let (handle, after) ←
        if (behind.skip word.length).next = some '!' then handle cursor else pure ("!", behind)
      let (name, stop) ← suffix after
      pure (some handle, name, stop)
  if endsWord stop.next then return (handle, suffix, stop) else .error .notYaml

/-- The number of a version at a place, and the place behind it. -/
def versionNumber (cursor : Cursor) : Outcome (Nat × Cursor) :=
  let digits := cursor.run Char.isDigit
  if digits.isEmpty then .error .notYaml
  else if digitLimit < digits.length then .error (.longNumeral digits.length)
  else .ok (Text.decimalNumber digits, cursor.skip digits.length)

/-- The version that a directive asks for, and the place behind it. -/
def version (cursor : Cursor) : Outcome (Directive × Cursor) := do
  let (major, point) ← versionNumber cursor.skipSpaces
  if point.next ≠ some '.' then .error .notYaml
  else
    let (_, stop) ← versionNumber point.forward
    if endsWord stop.next then return (.version major, stop) else .error .notYaml

/-- The meaning that a directive gives to a handle, and the place behind it. -/
def handleMeaning (cursor : Cursor) : Outcome (Directive × Cursor) := do
  let (name, after) ← handle cursor.skipSpaces
  if after.next ≠ some ' ' then .error .notYaml
  else
    let (meaning, stop) ← suffix after.skipSpaces
    if endsWord stop.next then return (.handle name meaning, stop) else .error .notYaml

/-- The directive at a place, and the beginning of the next line. -/
def directive (cursor : Cursor) : Outcome (Directive × Cursor) := do
  let behind := cursor.forward
  let name := behind.run isNameChar
  let after := behind.skip name.length
  if name.isEmpty || !endsWord after.next then .error .notYaml
  else
    let (found, stop) ←
      if name = "YAML".toList then version after
      else if name = "TAG".toList then handleMeaning after
      else pure (.reserved, after.skipWhile (!isBreak ·))
    return (found, ← stop.endLine)

end Property
end Stencil.Yaml
