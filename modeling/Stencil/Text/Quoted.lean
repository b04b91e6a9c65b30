import Stencil.Text.Printable

/-!
# Quoted text

A text between quotes, as error messages show it. The apostrophe delimits it, unless the text
holds an apostrophe and no double quote. The delimiter and the backslash are escaped, and so is
whatever cannot be printed.
-/

namespace Stencil.Text

/-- The quote for a text: a single one, unless a text has single ones and no double ones. -/
def delimiterFor (text : List Char) : Char :=
  if text.contains '\'' && !text.contains '"' then '"' else '\''

/-- One character of a text quoted with the given delimiter. -/
def escapeWithin (delimiter c : Char) : List Char :=
  if c = delimiter ∨ c = '\\' then ['\\', c]
  else if c = '\n' then ['\\', 'n']
  else if c = '\r' then ['\\', 'r']
  else if c = '\t' then ['\\', 't']
  else if isPrintable c then [c]
  else if c.toNat ≤ 0xFF then '\\' :: 'x' :: hexText 2 c.toNat
  else if c.toNat ≤ 0xFFFF then '\\' :: 'u' :: hexText 4 c.toNat
  else '\\' :: 'U' :: hexText 8 c.toNat

/-- A text between quotes, with the escapes that it needs. -/
def quoted (text : String) : String :=
  let delimiter := delimiterFor text.toList
  String.ofList (delimiter :: text.toList.flatMap (escapeWithin delimiter) ++ [delimiter])

/-- One byte of a quoted byte string: printable ASCII stands for itself. -/
def escapeByte (delimiter : Char) (byte : UInt8) : List Char :=
  let c := Char.ofNat byte.toNat
  if byte < 0x7F then escapeWithin delimiter c else '\\' :: 'x' :: hexText 2 byte.toNat

/-- A byte string between quotes, marked by a leading letter. -/
def quotedBytes (bytes : List UInt8) : String :=
  let delimiter := delimiterFor (bytes.map fun byte => Char.ofNat byte.toNat)
  String.ofList ('b' :: delimiter :: bytes.flatMap (escapeByte delimiter) ++ [delimiter])

/-- A list of texts, each between quotes, in square brackets. -/
def quotedList (texts : List String) : String :=
  "[" ++ ", ".intercalate (texts.map quoted) ++ "]"

end Stencil.Text
