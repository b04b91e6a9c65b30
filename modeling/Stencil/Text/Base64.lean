/-!
# Base64

Three bytes are written as four digits of base 64; equal signs fill up the last group. Reading
passes over characters outside the alphabet and stops at the padding that completes a group.
-/

namespace Stencil.Text

/-- The digits of base 64, by their values. -/
def base64Digits : List Char :=
  "ABCDEFGHIJKLMNOPQRSTUVWXYZabcdefghijklmnopqrstuvwxyz0123456789+/".toList

/-- The digit of a value. -/
def base64Digit (value : Nat) : Char :=
  base64Digits.getD value 'A'

/-- The value of a digit. -/
def base64Value? (c : Char) : Option Nat :=
  base64Digits.idxOf? c

/-- Bytes in base 64, three of them in four digits, and the last group padded. -/
def base64Encode : List UInt8 → List Char
  | [] => []
  | [a] => [base64Digit (a.toNat / 4), base64Digit (a.toNat % 4 * 16), '=', '=']
  | [a, b] =>
    [base64Digit (a.toNat / 4), base64Digit (a.toNat % 4 * 16 + b.toNat / 16),
      base64Digit (b.toNat % 16 * 4), '=']
  | a :: b :: c :: rest =>
    base64Digit (a.toNat / 4) :: base64Digit (a.toNat % 4 * 16 + b.toNat / 16)
      :: base64Digit (b.toNat % 16 * 4 + c.toNat / 64) :: base64Digit (c.toNat % 64)
      :: base64Encode rest

/-- The byte completed by a digit at `place` (one to three) of its group, given the digit
before it. -/
def base64Byte (place before value : Nat) : UInt8 :=
  UInt8.ofNat <|
    if place = 1 then before * 4 + value / 16
    else if place = 2 then before % 16 * 16 + value / 4
    else before % 4 * 64 + value

/-- Reading continues at `place` of a group, after the digit `before` and `pads` equal signs. -/
def base64DecodeAt? : (place before pads : Nat) → List Char → Option (List UInt8)
  | place, _, _, [] => if place = 0 then some [] else none
  | place, before, pads, c :: rest =>
    if c = '=' then
      if 2 ≤ place then
        if 4 ≤ place + (pads + 1) then some [] else base64DecodeAt? place before (pads + 1) rest
      else base64DecodeAt? place before pads rest
    else match base64Value? c with
      | none => base64DecodeAt? place before pads rest
      | some value =>
        if place = 0 then base64DecodeAt? 1 value 0 rest
        else
          (base64DecodeAt? ((place + 1) % 4) value 0 rest).map (base64Byte place before value :: ·)

/-- The bytes that a text in base 64 stands for; none when its last group is incomplete. -/
def base64Decode? (text : List Char) : Option (List UInt8) :=
  base64DecodeAt? 0 0 0 text

end Stencil.Text
