import Stencil.Json.Basic

/-!
# Reading JSON

A document is read off the front of a text; blanks may stand around its parts. Every step of
reading uses up a character, so the length of the text bounds the number of steps.
-/

namespace Stencil.Json

/-- Whether a character may stand between the parts of a document. -/
def isSpace (c : Char) : Bool :=
  c == ' ' || c == '\t' || c == '\n' || c == '\r'

/-- A text without the spaces at its front. -/
def skip (text : List Char) : List Char :=
  text.dropWhile isSpace

/-- The number that four hexadecimal digits denote, and the rest. -/
def takeUnit? : List Char → Option (Nat × List Char)
  | a :: b :: c :: d :: rest => do
    let high := (← Text.hexValue? a) * 16 + (← Text.hexValue? b)
    let low := (← Text.hexValue? c) * 16 + (← Text.hexValue? d)
    return (high * 256 + low, rest)
  | _ => none

/-- The character that a backslash and this letter denote. -/
def unescape? (c : Char) : Option Char :=
  match c with
  | '"' => some '"'
  | '\\' => some '\\'
  | '/' => some '/'
  | 'b' => some '\x08'
  | 'f' => some '\x0c'
  | 'n' => some '\n'
  | 'r' => some '\r'
  | 't' => some '\t'
  | _ => none

/-- The characters up to the closing quote, and the rest after it. A pair of escaped surrogates is
one character; a lone one is none. -/
def takeText? : (steps : Nat) → List Char → Option (List Char × List Char)
  | 0, _ => none
  | steps + 1, chars =>
    match chars with
    | [] => none
    | '"' :: rest => some ([], rest)
    | '\\' :: 'u' :: rest => do
      let (unit, rest) ← takeUnit? rest
      if 0xD800 ≤ unit ∧ unit < 0xDC00 then
        match rest with
        | '\\' :: 'u' :: rest =>
          let (low, rest) ← takeUnit? rest
          if 0xDC00 ≤ low ∧ low < 0xE000 then
            let code := 0x10000 + (unit - 0xD800) * 0x400 + (low - 0xDC00)
            let (tail, rest) ← takeText? steps rest
            return (Char.ofNat code :: tail, rest)
          else none
        | _ => none
      else if 0xDC00 ≤ unit ∧ unit < 0xE000 then none
      else
        let (tail, rest) ← takeText? steps rest
        return (Char.ofNat unit :: tail, rest)
    | '\\' :: c :: rest => do
      let char ← unescape? c
      let (tail, rest) ← takeText? steps rest
      return (char :: tail, rest)
    | c :: rest =>
      if c.toNat < 0x20 ∨ c = '\\' then none
      else do
        let (tail, rest) ← takeText? steps rest
        return (c :: tail, rest)

/-- The ASCII digits at the front of a text, and the rest. -/
def takeDigits (text : List Char) : List Char × List Char :=
  (text.takeWhile Char.isDigit, text.dropWhile Char.isDigit)

/-- The point and digits, or the exponent, that `mark` begins: at least one digit is needed. -/
def takeTail? (mark : List Char) (text : List Char) : Option (List Char × List Char) :=
  match takeDigits text with
  | ([], _) => none
  | (digits, rest) => some (mark ++ digits, rest)

/-- The fraction at the front of a text, if a point begins it, and the rest. -/
def takeFraction? : List Char → Option (List Char × List Char)
  | '.' :: rest => takeTail? ['.'] rest
  | rest => some ([], rest)

/-- The exponent at the front of a text, if a letter e begins it, and the rest. -/
def takeExponent? : List Char → Option (List Char × List Char)
  | [] => some ([], [])
  | c :: rest =>
    if c = 'e' ∨ c = 'E' then
      match rest with
      | '+' :: rest => takeTail? [c, '+'] rest
      | '-' :: rest => takeTail? [c, '-'] rest
      | rest => takeTail? [c] rest
    else some ([], c :: rest)

/-- The number at the front of a text, and the rest. -/
def takeNumber? (text : List Char) : Option (Json × List Char) := do
  let negative := text.head? == some '-'
  let (whole, rest) := takeDigits (if negative then text.drop 1 else text)
  if whole.isEmpty ∨ (whole.head? = some '0' ∧ 1 < whole.length) then none
  let (fraction, rest) ← takeFraction? rest
  let (exponent, rest) ← takeExponent? rest
  if fraction.isEmpty ∧ exponent.isEmpty then
    let size : Int := Text.decimalNumber whole
    return (.int (if negative then -size else size), rest)
  else
    let sign := if negative then ['-'] else []
    return (.literal (String.ofList (sign ++ whole ++ fraction ++ exponent)), rest)

/-- A fixed word at the front of a text, as a document, and the rest. -/
def takeWord? (word : String) (document : Json) (text : List Char) : Option (Json × List Char) :=
  if word.toList.isPrefixOf text then some (document, text.drop word.length) else none

mutual

/-- The document at the front of a text, and the rest. -/
def take? : (steps : Nat) → List Char → Option (Json × List Char)
  | 0, _ => none
  | steps + 1, chars =>
    match chars with
    | 'n' :: _ => takeWord? "null" .null chars
    | 't' :: _ => takeWord? "true" (.bool true) chars
    | 'f' :: _ => takeWord? "false" (.bool false) chars
    | '"' :: rest => do
      let (content, rest) ← takeText? (rest.length + 1) rest
      return (.text (String.ofList content), rest)
    | '[' :: rest =>
      match skip rest with
      | ']' :: rest => some (.array [], rest)
      | rest => do
        let (items, rest) ← takeItems? steps rest
        return (.array items, rest)
    | '{' :: rest =>
      match skip rest with
      | '}' :: rest => some (.object [], rest)
      | rest => do
        let (members, rest) ← takeMembers? steps rest
        return (.object members, rest)
    | chars => takeNumber? chars

/-- The items of an array up to its closing bracket, and the rest after it. -/
def takeItems? : (steps : Nat) → List Char → Option (List Json × List Char)
  | 0, _ => none
  | steps + 1, chars => do
    let (item, rest) ← take? steps chars
    match skip rest with
    | ']' :: rest => return ([item], rest)
    | ',' :: rest =>
      let (items, rest) ← takeItems? steps (skip rest)
      return (item :: items, rest)
    | _ => none

/-- The members of an object up to its closing brace, and the rest after it. -/
def takeMembers? : (steps : Nat) → List Char → Option (List (String × Json) × List Char)
  | 0, _ => none
  | steps + 1, chars =>
    match chars with
    | '"' :: rest => do
      let (name, rest) ← takeText? (rest.length + 1) rest
      match skip rest with
      | ':' :: rest =>
        let (value, rest) ← take? steps (skip rest)
        match skip rest with
        | '}' :: rest => return ([(String.ofList name, value)], rest)
        | ',' :: rest =>
          let (members, rest) ← takeMembers? steps (skip rest)
          return ((String.ofList name, value) :: members, rest)
        | _ => none
      | _ => none
    | _ => none

end

/-- The document that a text spells, with blanks around it. -/
def read? (text : List Char) : Option Json :=
  match take? (text.length + 1) (skip text) with
  | some (document, rest) => if (skip rest).isEmpty then some document else none
  | none => none

end Stencil.Json
