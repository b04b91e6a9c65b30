import Stencil.Text.DigitTable

/-!
# Digits of all scripts

A decimal digit has a place in decimal notation whatever its script. Superscripts and circled
digits count as digits but have no such place, which is why a run of digits may still fail to
be a number. The main statement is `decimalNumber_decimalText`: the digits of a natural number
denote it.
-/

namespace Stencil.Text

/-- Whether a code point lies in one of the runs that sorted bounds delimit: the number of
bounds at or below it is odd. -/
def withinBounds (bounds : List Nat) (code : Nat) : Bool :=
  (bounds.takeWhile (· ≤ code)).length % 2 == 1

/-- The place value of a decimal digit of any script. -/
def decimalValue? (c : Char) : Option Nat :=
  decimalZeros.findSome? fun first =>
    if first ≤ c.toNat ∧ c.toNat < first + 10 then some (c.toNat - first) else none

/-- Whether a character is a decimal digit of some script. -/
def isDecimal (c : Char) : Bool :=
  (decimalValue? c).isSome

/-- Whether a character counts as a digit, in decimal notation or not. -/
def isDigit (c : Char) : Bool :=
  isDecimal c || withinBounds signDigitBounds c.toNat

/-- The number that a run of decimal digits denotes, the most significant first; characters
that are no decimal digits count as zero. -/
def decimalNumber (digits : List Char) : Nat :=
  digits.foldl (fun number c => number * 10 + (decimalValue? c).getD 0) 0

/-- The decimal digits of a natural number, the most significant first. -/
def decimalText (number : Nat) : List Char :=
  Nat.toDigits 10 number

/-- A natural number in at least `width` decimal digits. -/
def paddedText (width number : Nat) : List Char :=
  let digits := decimalText number
  List.replicate (width - digits.length) '0' ++ digits

/-- A natural number in at least `width` hexadecimal digits, letters small. -/
def hexText (width number : Nat) : List Char :=
  let digits := Nat.toDigits 16 number
  List.replicate (width - digits.length) '0' ++ digits

/-- The value of a hexadecimal digit. -/
def hexValue? (c : Char) : Option Nat :=
  if '0' ≤ c ∧ c ≤ '9' then some (c.toNat - '0'.toNat)
  else if 'a' ≤ c ∧ c ≤ 'f' then some (c.toNat - 'a'.toNat + 10)
  else if 'A' ≤ c ∧ c ≤ 'F' then some (c.toNat - 'A'.toNat + 10)
  else none

/-- An ASCII digit has its place in decimal notation. -/
theorem decimalValue?_of_isDigit {c : Char} (digit : c.isDigit = true) :
    decimalValue? c = some (c.toNat - '0'.toNat) := by
  have bounds : 48 ≤ c.toNat ∧ c.toNat < 48 + 10 := by
    have range : 48 ≤ c.val ∧ c.val ≤ 57 := by simpa [Char.isDigit] using digit
    have low : 48 ≤ c.toNat := range.1
    have high : c.toNat ≤ 57 := range.2
    omega
  rw [decimalValue?, decimalZeros, List.findSome?_cons, if_pos bounds]
  rfl

/-- The digits of a natural number denote it. -/
theorem decimalNumber_decimalText (number : Nat) :
    decimalNumber (decimalText number) = number := by
  have digits : ∀ c ∈ Nat.toDigits 10 number, c.isDigit = true := fun c member =>
    Nat.isDigit_of_mem_toDigits (by decide) (by decide) member
  suffices same : ∀ (all : List Char) (start : Nat), (∀ c ∈ all, c.isDigit = true) →
      all.foldl (fun number c => number * 10 + (decimalValue? c).getD 0) start =
        Nat.ofDigitChars 10 all start by
    rw [decimalNumber, decimalText, same _ 0 digits]
    exact Nat.ofDigitChars_toDigits (by decide) (by decide)
  intro all
  induction all with
  | nil => intros; rfl
  | cons c rest ih =>
    intro start allDigits
    rw [List.forall_mem_cons] at allDigits
    rw [List.foldl_cons, ih _ allDigits.2, decimalValue?_of_isDigit allDigits.1, Nat.mul_comm]
    rfl

end Stencil.Text
