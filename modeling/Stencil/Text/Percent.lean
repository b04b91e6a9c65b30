import Stencil.Text.Utf8

/-!
# Percent encoding

ASCII letters, digits and nine marks stand for themselves; every other character is written as
its UTF-8 bytes, each a percent sign and two hexadecimal digits. `percentBytes?` reads the bytes
back.
-/

namespace Stencil.Text

/-- Whether a character stands for itself. -/
def isUnreserved (c : Char) : Bool :=
  c.isAlphanum || "-_.!~*'()".toList.contains c

/-- The capital hexadecimal digit of a number below sixteen. -/
def hexDigit (n : Nat) : Char :=
  (Nat.digitChar n).toUpper

/-- A byte as a percent sign and two hexadecimal digits. -/
def percentByte (byte : UInt8) : List Char :=
  ['%', hexDigit (byte.toNat / 16), hexDigit (byte.toNat % 16)]

/-- A character as it is, or its bytes in percent signs. -/
def percentChar (c : Char) : List Char :=
  if isUnreserved c then [c] else (String.utf8EncodeChar c).flatMap percentByte

/-- A text in which percent signs stand for all but a few characters. -/
def percentEncode (text : List Char) : List Char :=
  text.flatMap percentChar

/-- The bytes that percent encoded text stands for: a percent sign needs two digits, and all
other characters stand for themselves and must be unreserved. -/
def percentBytes? : List Char → Option (List UInt8)
  | [] => some []
  | '%' :: high :: low :: rest => do
    let byte := (← hexValue? high) * 16 + (← hexValue? low)
    return UInt8.ofNat byte :: (← percentBytes? rest)
  | c :: rest =>
    if isUnreserved c then do return UInt8.ofNat c.toNat :: (← percentBytes? rest) else none

end Stencil.Text
