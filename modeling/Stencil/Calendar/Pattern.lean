import Stencil.Calendar.Moment
import Stencil.Text.Blank

/-!
# Dates in written forms

Six written forms of a date are read: month, day and year or year, month and day between slashes,
and four with the name of the month in English, full or cut to three letters, in any case.
-/

namespace Stencil.Calendar

/-- A piece of a written form. -/
inductive PatternPart
  | month
  | day
  | year
  | monthName
  | shortMonthName
  | blanks
  | mark (c : Char)
  deriving DecidableEq, Repr

namespace Pattern

/-- The names of the months, in small letters and in order. -/
def monthNames : List String :=
  ["january", "february", "march", "april", "may", "june", "july", "august", "september",
    "october", "november", "december"]

/-- The months in order, cut to three letters. -/
def shortMonthNames : List String :=
  monthNames.map fun name => String.ofList (name.toList.take 3)

/-- What has been read so far of a date. -/
structure Fields where
  year : Nat
  month : Nat
  day : Nat

/-- The number up to `limit`, of one or two digits, at the front of a text, and the rest. Two
digits are preferred; the first is an ASCII digit, and so is the second unless `anySecond`
admits any decimal digit after the first. -/
def takeSmall? (limit : Nat) (anySecond : Char → Bool) : List Char → Option (Nat × List Char)
  | [] => none
  | first :: rest =>
    if !first.isDigit then none
    else
      let one := Text.decimalNumber [first]
      let alone := if one = 0 then none else some (one, rest)
      match rest with
      | [] => alone
      | second :: after =>
        let two := Text.decimalNumber [first, second]
        if (second.isDigit || (anySecond first && Text.isDecimal second)) && 1 ≤ two && two ≤ limit
        then some (two, after)
        else alone

/-- The number of the name, counted from one, that a text begins with, and the rest. -/
def takeName? (names : List String) (text : List Char) : Option (Nat × List Char) :=
  let small := text.map Char.toLower
  match names.findIdx? fun name => name.toList.isPrefixOf small with
  | some index => some (index + 1, text.drop (names.getD index "").length)
  | none => none

/-- The front of a text read as one piece, and the rest. -/
def takePart? (part : PatternPart) (fields : Fields) (text : List Char) :
    Option (Fields × List Char) :=
  match part with
  | .month => do
    let (month, rest) ← takeSmall? 12 (fun _ => false) text
    return ({ fields with month }, rest)
  | .day => do
    let unspaced := match text with
      | ' ' :: c :: rest => if '1' ≤ c ∧ c ≤ '9' then some (Text.decimalNumber [c], rest) else none
      | _ => none
    let (day, rest) ← (takeSmall? 31 (fun c => c == '1' || c == '2') text).or unspaced
    return ({ fields with day }, rest)
  | .year =>
    let digits := text.take 4
    if digits.length = 4 && digits.all Text.isDecimal then
      some ({ fields with year := Text.decimalNumber digits }, text.drop 4)
    else none
  | .monthName => do
    let (month, rest) ← takeName? monthNames text
    return ({ fields with month }, rest)
  | .shortMonthName => do
    let (month, rest) ← takeName? shortMonthNames text
    return ({ fields with month }, rest)
  | .blanks =>
    match text with
    | c :: rest => if Text.isBlank c then some (fields, rest.dropWhile Text.isBlank) else none
    | [] => none
  | .mark c =>
    match text with
    | d :: rest => if c = d then some (fields, rest) else none
    | [] => none

/-- The date that a whole text spells in a written form. -/
def read? (parts : List PatternPart) (text : List Char) : Option Date := do
  let (fields, rest) ← parts.foldlM (fun (fields, rest) part => takePart? part fields rest)
    (⟨0, 0, 0⟩, text)
  if rest.isEmpty then Date.of? fields.year fields.month fields.day else none

/-- The written forms, in the order in which they are tried. -/
def forms : List (List PatternPart) :=
  [[.month, .mark '/', .day, .mark '/', .year],
    [.year, .mark '/', .month, .mark '/', .day],
    [.monthName, .blanks, .day, .mark ',', .blanks, .year],
    [.shortMonthName, .blanks, .day, .mark ',', .blanks, .year],
    [.day, .blanks, .monthName, .blanks, .year],
    [.day, .blanks, .shortMonthName, .blanks, .year]]

/-- The date that a text spells in one of the written forms. -/
def anyForm? (text : List Char) : Option Date :=
  forms.findSome? (read? · text)

end Pattern
end Stencil.Calendar
