import Mathlib.Tactic.SplitIfs
import Stencil.Binary64.Literal
import Stencil.Json.Reader
import Stencil.Proofs.Text.Digits
import Stencil.Value.Basic
import Stencil.Yaml.Token

/-!
# Written documents of the JSON format

A document with everything that its writer is free to choose: the blanks between its parts, the
escapes of its texts and the form of its numbers. Each document written so has a text and a value.
Those that may be taken for documents of the YAML format are the portable ones
(`Json.Document.isPortable`): they hold no tab between parts, no integer that is too long, no
exponent without a sign or behind a number without a point, no character in two halves, and every
name stands on one line with its colon.
-/

namespace Stencil.Json

/-- Blanks between the parts of a document. -/
structure Blank where
  chars : List Char
  blank : ∀ c ∈ chars, isSpace c = true

/-- Four hexadecimal digits. -/
structure Unit16 where
  digits : List Char
  four : digits.length = 4
  hex : ∀ c ∈ digits, (Text.hexValue? c).isSome = true

/-- The number that four hexadecimal digits denote. -/
def Unit16.number (unit : Unit16) : Nat :=
  unit.digits.foldl (fun number c => number * 16 + (Text.hexValue? c).getD 0) 0

/-- A part of a text between quotes that stands for one character. -/
inductive Piece
  /-- The character itself. -/
  | bare (c : Char) (free : 0x20 ≤ c.toNat ∧ c ≠ '"' ∧ c ≠ '\\')
  /-- A letter behind a backslash. -/
  | escape (letter meaning : Char) (known : unescape? letter = some meaning)
  /-- The code of a character. -/
  | code (unit : Unit16) (whole : unit.number < 0xD800 ∨ 0xE000 ≤ unit.number)
  /-- The two halves that stand for a character beyond the first plane. -/
  | pair (high low : Unit16) (first : 0xD800 ≤ high.number ∧ high.number < 0xDC00)
    (second : 0xDC00 ≤ low.number ∧ low.number < 0xE000)

namespace Piece

/-- How a piece is written. -/
def chars : Piece → List Char
  | bare c _ => [c]
  | escape letter _ _ => ['\\', letter]
  | code unit _ => '\\' :: 'u' :: unit.digits
  | pair high low _ _ => '\\' :: 'u' :: high.digits ++ '\\' :: 'u' :: low.digits

/-- The character that a part of a text stands for. -/
def meaning : Piece → Char
  | bare c _ => c
  | escape _ meaning _ => meaning
  | code unit _ => Char.ofNat unit.number
  | pair high low _ _ =>
    Char.ofNat (0x10000 + (high.number - 0xD800) * 0x400 + (low.number - 0xDC00))

end Piece

/-- The text between quotes that parts stand for. -/
def textOf (pieces : List Piece) : String :=
  String.ofList (pieces.map Piece.meaning)

/-- A text in quotes. -/
def quotedChars (pieces : List Piece) : List Char :=
  '"' :: pieces.flatMap Piece.chars ++ ['"']

/-- The exponent of a number. -/
structure Exponent where
  mark : Char
  sign : List Char
  digits : List Char
  marked : mark = 'e' ∨ mark = 'E'
  signed : sign = [] ∨ sign = ['+'] ∨ sign = ['-']
  given : digits ≠ []
  decimal : ∀ c ∈ digits, c.isDigit = true

namespace Exponent

/-- How an exponent is written. -/
def chars (exponent : Exponent) : List Char :=
  exponent.mark :: exponent.sign ++ exponent.digits

/-- The size of an exponent, with its sign. -/
def number (exponent : Exponent) : Int :=
  let size : Int := Text.decimalNumber exponent.digits
  if exponent.sign = ['-'] then -size else size

end Exponent

/-- A number; without a fraction its fraction is empty. -/
structure Number where
  negative : Bool
  whole : List Char
  fraction : List Char
  exponent : Option Exponent
  given : whole ≠ []
  decimal : ∀ c ∈ whole, c.isDigit = true
  /-- No zero stands in front of other digits. -/
  short : whole.head? = some '0' → whole = ['0']
  fractional : ∀ c ∈ fraction, c.isDigit = true

namespace Number

/-- The point and the digits behind it. -/
def fractionChars (number : Number) : List Char :=
  if number.fraction = [] then [] else '.' :: number.fraction

/-- A number without its sign. -/
def unsignedChars (number : Number) : List Char :=
  number.whole ++ number.fractionChars ++ number.exponent.elim [] Exponent.chars

/-- How a number is written. -/
def chars (number : Number) : List Char :=
  if number.negative then '-' :: number.unsignedChars else number.unsignedChars

/-- Whether a number has neither a fraction nor an exponent. -/
def isInteger (number : Number) : Bool :=
  number.fraction.isEmpty && number.exponent.isNone

/-- The value of a number: an integer if it is written as one, else a double. -/
def value (number : Number) : Value :=
  if number.isInteger then
    let size : Int := Text.decimalNumber number.whole
    .int (if number.negative then -size else size)
  else
    .float (NumberLiteral.decimal number.negative number.whole number.fraction
      (number.exponent.elim 0 Exponent.number)).value

end Number

mutual

/-- A value as it is written. -/
inductive Written
  | null
  | bool (b : Bool)
  | number (number : Number)
  | text (pieces : List Piece)
  | array (gap : Blank) (items : WrittenItems)
  | object (gap : Blank) (members : WrittenMembers)

/-- The items of an array, each with the blanks around it. -/
inductive WrittenItems
  | nil
  | cons (before : Blank) (item : Written) (after : Blank) (rest : WrittenItems)

/-- The members of an object, each with the blanks around its parts. -/
inductive WrittenMembers
  | nil
  | cons (before : Blank) (name : List Piece) (beforeColon afterColon : Blank) (item : Written)
    (after : Blank) (rest : WrittenMembers)

end

/-- The comma in front of all parts but the first. -/
def commaChars (first : Bool) : List Char :=
  if first then [] else [',']

mutual

/-- How a value is written. -/
def Written.chars : Written → List Char
  | .null => "null".toList
  | .bool b => if b then "true".toList else "false".toList
  | .number number => number.chars
  | .text pieces => quotedChars pieces
  | .array gap items => '[' :: gap.chars ++ items.chars true ++ [']']
  | .object gap members => '{' :: gap.chars ++ members.chars true ++ ['}']

/-- How the items of an array are written, with a comma before each but the first. -/
def WrittenItems.chars (first : Bool) : WrittenItems → List Char
  | .nil => []
  | .cons before item after rest =>
    commaChars first ++ before.chars ++ item.chars ++ after.chars ++ rest.chars false

/-- How the members of an object are written, with a comma before each but the first. -/
def WrittenMembers.chars (first : Bool) : WrittenMembers → List Char
  | .nil => []
  | .cons before name beforeColon afterColon item after rest =>
    commaChars first ++ before.chars ++ quotedChars name ++ beforeColon.chars ++ ':' ::
      afterColon.chars ++ item.chars ++ after.chars ++ rest.chars false

end

mutual

/-- The value that is written. A name that is given twice has the value that is given last. -/
def Written.value : Written → Value
  | .null => .null
  | .bool b => .bool b
  | .number number => number.value
  | .text pieces => .text (textOf pieces)
  | .array _ items => .list items.values
  | .object _ members => Value.ofEntries members.entries

/-- The values of the items of an array. -/
def WrittenItems.values : WrittenItems → List Value
  | .nil => []
  | .cons _ item _ rest => item.value :: rest.values

/-- The entries of the members of an object. -/
def WrittenMembers.entries : WrittenMembers → List (Value × Value)
  | .nil => []
  | .cons _ name _ _ item _ rest => (.text (textOf name), item.value) :: rest.entries

end

/-- A value with the blanks around it. -/
structure Document where
  before : Blank
  root : Written
  after : Blank

/-- The text of a document. -/
def Document.text (document : Document) : String :=
  String.ofList (document.before.chars ++ document.root.chars ++ document.after.chars)

/-- A gap is portable if it has no tab. -/
def Blank.isPortable (blank : Blank) : Bool :=
  !blank.chars.contains '\t'

/-- Whether a part of a text is read alike everywhere: a character as it is that is neither a
control character nor ends a line, or an escape that is no half of a pair. -/
def Piece.isPortable : Piece → Bool
  | .bare c _ => Yaml.Token.isAllowed c && !Yaml.isBreak c
  | .escape _ _ _ => true
  | .code _ _ => true
  | .pair _ _ _ _ => false

/-- Whether a number is read alike everywhere: an integer that is not too long, or a number with a
point whose exponent, if it has one, has a sign. -/
def Number.isPortable (number : Number) : Bool :=
  if number.fraction.isEmpty then
    number.exponent.isNone && number.whole.length ≤ digitLimit
  else number.exponent.all (!·.sign.isEmpty)

/-- Whether a name and the blanks in front of its colon stand on one line that is not too long. -/
def isPortableName (name : List Piece) (beforeColon : Blank) : Bool :=
  name.all Piece.isPortable && beforeColon.chars.all (· == ' ')
    && (quotedChars name).length + beforeColon.chars.length ≤ Yaml.Token.keyReach

mutual

/-- Whether the texts and the blanks of a value are read alike everywhere, be its numbers as they
may. -/
def Written.isLegible : Written → Bool
  | .null | .bool _ | .number _ => true
  | .text pieces => pieces.all Piece.isPortable
  | .array gap items => gap.isPortable && items.isLegible
  | .object gap members => gap.isPortable && members.isLegible

/-- The items of an array are legible if each of them and the gaps around them are. -/
def WrittenItems.isLegible : WrittenItems → Bool
  | .nil => true
  | .cons before item after rest =>
    before.isPortable && item.isLegible && after.isPortable && rest.isLegible

/-- The members of an object are legible if their names, values and gaps are. -/
def WrittenMembers.isLegible : WrittenMembers → Bool
  | .nil => true
  | .cons before name beforeColon afterColon item after rest =>
    before.isPortable && isPortableName name beforeColon && afterColon.isPortable
      && item.isLegible && after.isPortable && rest.isLegible

end

mutual

/-- A value is portable if all its numbers, texts and gaps are. -/
def Written.isPortable : Written → Bool
  | .null => true
  | .bool _ => true
  | .number number => number.isPortable
  | .text pieces => pieces.all Piece.isPortable
  | .array gap items => gap.isPortable && items.isPortable
  | .object gap members => gap.isPortable && members.isPortable

/-- The items of an array are portable if each of them and the gaps around them are. -/
def WrittenItems.isPortable : WrittenItems → Bool
  | .nil => true
  | .cons before item after rest =>
    before.isPortable && item.isPortable && after.isPortable && rest.isPortable

/-- The members of an object are portable if their names, values and gaps are. -/
def WrittenMembers.isPortable : WrittenMembers → Bool
  | .nil => true
  | .cons before name beforeColon afterColon item after rest =>
    before.isPortable && isPortableName name beforeColon && afterColon.isPortable
      && item.isPortable && after.isPortable && rest.isPortable

end

/-- A document is portable if its value and the gaps around it are. -/
def Document.isPortable (document : Document) : Bool :=
  document.before.isPortable && document.root.isPortable && document.after.isPortable

/-- Whether a document is read alike everywhere but for its numbers. -/
def Document.isLegible (document : Document) : Bool :=
  document.before.isPortable && document.root.isLegible && document.after.isPortable

mutual

/-- What is portable is legible. -/
theorem Written.isLegible_of_isPortable (written : Written) (portable : written.isPortable = true) :
    written.isLegible = true := by
  cases written with
  | text pieces => exact portable
  | array gap items =>
    rw [Written.isPortable, Bool.and_eq_true] at portable
    rw [Written.isLegible, portable.1, items.isLegible_of_isPortable portable.2]
    rfl
  | object gap members =>
    rw [Written.isPortable, Bool.and_eq_true] at portable
    rw [Written.isLegible, portable.1, members.isLegible_of_isPortable portable.2]
    rfl
  | _ => rfl

/-- Portable items are legible. -/
theorem WrittenItems.isLegible_of_isPortable (items : WrittenItems)
    (portable : items.isPortable = true) : items.isLegible = true := by
  cases items with
  | nil => rfl
  | cons before item after others =>
    simp only [WrittenItems.isPortable, Bool.and_eq_true] at portable
    obtain ⟨⟨⟨beforePortable, itemPortable⟩, afterPortable⟩, othersPortable⟩ := portable
    rw [WrittenItems.isLegible, beforePortable, afterPortable,
      item.isLegible_of_isPortable itemPortable, others.isLegible_of_isPortable othersPortable]
    rfl

/-- Portable members are legible. -/
theorem WrittenMembers.isLegible_of_isPortable (members : WrittenMembers)
    (portable : members.isPortable = true) : members.isLegible = true := by
  cases members with
  | nil => rfl
  | cons before name beforeColon afterColon item after others =>
    simp only [WrittenMembers.isPortable, Bool.and_eq_true] at portable
    obtain ⟨⟨⟨⟨⟨beforePortable, namePortable⟩, colonPortable⟩, itemPortable⟩, afterPortable⟩,
      othersPortable⟩ := portable
    rw [WrittenMembers.isLegible, beforePortable, namePortable, colonPortable, afterPortable,
      item.isLegible_of_isPortable itemPortable, others.isLegible_of_isPortable othersPortable]
    rfl

end

/-- A portable document is legible. -/
theorem Document.isLegible_of_isPortable {document : Document}
    (portable : document.isPortable = true) : document.isLegible = true := by
  simp only [Document.isPortable, Bool.and_eq_true] at portable
  rw [Document.isLegible, portable.1.1, document.root.isLegible_of_isPortable portable.1.2,
    portable.2]
  rfl

/-- A hexadecimal digit is below sixteen. -/
theorem hexValue?_lt {c : Char} {value : Nat} (hex : Text.hexValue? c = some value) :
    value < 16 := by
  simp only [Text.hexValue?, Char.le_def, UInt32.le_iff_toNat_le] at hex
  split_ifs at hex with digit small large
  all_goals
    cases hex
    simp only [Char.toNat]
  · have high : c.val.toNat ≤ 57 := digit.2
    change c.val.toNat - 48 < 16
    omega
  · have high : c.val.toNat ≤ 102 := small.2
    change c.val.toNat - 97 + 10 < 16
    omega
  · have high : c.val.toNat ≤ 70 := large.2
    change c.val.toNat - 65 + 10 < 16
    omega

/-- Four hexadecimal digits denote a number of sixteen bits. -/
theorem Unit16.number_lt (unit : Unit16) : unit.number < 0x10000 := by
  have within : unit.number < Nat.pow 16 unit.digits.length := by
    apply Text.foldl_digits_lt
    intro c member
    obtain ⟨value, known⟩ := Option.isSome_iff_exists.mp (unit.hex c member)
    rw [known]
    exact hexValue?_lt known
  rwa [unit.four] at within

end Stencil.Json
