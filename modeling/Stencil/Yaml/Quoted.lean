import Stencil.Text.Halved
import Stencil.Yaml.Cursor

/-!
# Quoted scalars

Between single quotes a quote is written twice and nothing else is special. Between double quotes
a backslash begins an escape; in front of a line break it joins the lines. Line breaks are folded
as in plain scalars, and the blanks around them are dropped. An escape may give the code of one half
of a surrogate pair, and two such escapes in a row stay two halves.
-/

namespace Stencil.Yaml.Quoted

open Text (Sign)

/-- The character that a backslash and this one stand for. -/
def escape? (c : Char) : Option Char :=
  [('0', '\x00'), ('a', '\x07'), ('b', '\x08'), ('t', '\t'), ('\t', '\t'), ('n', '\n'),
    ('v', '\x0b'), ('f', '\x0c'), ('r', '\r'), ('e', '\x1b'), (' ', ' '), ('"', '"'),
    ('\\', '\\'), ('/', '/'), ('N', '\u0085'), ('_', '\u00a0'), ('L', '\u2028'),
    ('P', '\u2029')].lookup c

/-- The number of hexadecimal digits that follow this character behind a backslash. -/
def codeWidth? (c : Char) : Option Nat :=
  [('x', 2), ('u', 4), ('U', 8)].lookup c

/-- The sign with a code, which is that of a character or of half of a surrogate pair. -/
def signOf (code : Nat) : Outcome Sign :=
  match Sign.ofCode? code with
  | some sign => .ok sign
  | none => .error (.codePoint code)

/-- The line breaks up to the next character that is no blank, and its place. -/
def breaks : (steps : Nat) → Cursor → Outcome (List Char × Cursor)
  | 0, cursor => .ok ([], cursor)
  | steps + 1, cursor =>
    if cursor.atDocumentMark then .error .notYaml
    else
      let cursor := cursor.skipWhile isSpace
      match cursor.takeBreak with
      | ([], _) => .ok ([], cursor)
      | (first, after) => do
        let (following, stop) ← breaks steps after
        return (first ++ following, stop)

/-- What stands for the line break at a place and the empty lines behind it, and the place of the
next character. -/
def fold (cursor : Cursor) : Outcome (List Char × Cursor) := do
  let (first, after) := cursor.takeBreak
  let (following, stop) ← breaks (after.rest.length + 1) after
  return (foldedBreaks first following, stop)

/-- What stands for an escape, and the place behind it; the place given is behind the
backslash. -/
def escaped (cursor : Cursor) : Outcome (List Sign × Cursor) :=
  match cursor.rest with
  | [] => .error .notYaml
  | c :: rest =>
    match escape? c, codeWidth? c with
    | some meant, _ => .ok ([.char meant], cursor.forward)
    | none, some width =>
      let digits := rest.take width
      if digits.length = width && digits.all (Text.hexValue? · |>.isSome) then do
        let code := digits.foldl (fun code digit => code * 16 + (Text.hexValue? digit).getD 0) 0
        return ([← signOf code], cursor.skip (width + 1))
      else .error .notYaml
    | none, none =>
      if isBreak c then do
        let after := cursor.takeBreak.2
        let (text, stop) ← breaks (after.rest.length + 1) after
        return (text.map .char, stop)
      else .error .notYaml

/-- What stands for the next piece of a quoted scalar, and the place behind it: a run of blanks, an
escape, a doubled quote or a single character. None is the closing quote. -/
def piece (quote : Char) (cursor : Cursor) : Outcome (Option (List Sign) × Cursor) :=
  match cursor.rest with
  | [] => .error .notYaml
  | c :: rest =>
    if c = quote then
      if c = '\'' ∧ rest.head? = some '\'' then .ok (some [.char c], cursor.skip 2)
      else .ok (none, cursor.forward)
    else if quote = '"' ∧ c = '\\' then do
      let (text, stop) ← escaped cursor.forward
      return (some text, stop)
    else if isGap (some c) then
      let after := cursor.skipWhile isSpace
      if after.rest.isEmpty then .error .notYaml
      else if endsLine after.next then do
        let (text, stop) ← fold after
        return (some (text.map .char), stop)
      else .ok (some ((cursor.run isSpace).map .char), after)
    else .ok (some [.char c], cursor.forward)

/-- The rest of a quoted scalar, and the place behind it. -/
def scalarFrom (quote : Char) : (steps : Nat) → Cursor → Outcome (List Sign × Cursor)
  | 0, _ => .error .notYaml
  | steps + 1, cursor => do
    match ← piece quote cursor with
    | (none, stop) => return ([], stop)
    | (some text, next) =>
      let (tail, stop) ← scalarFrom quote steps next
      return (text ++ tail, stop)

/-- The scalar between quotes at a place, and the place behind it. -/
def scalar (quote : Char) (cursor : Cursor) : Outcome (List Sign × Cursor) :=
  scalarFrom quote (cursor.rest.length + 1) cursor.forward

end Stencil.Yaml.Quoted
