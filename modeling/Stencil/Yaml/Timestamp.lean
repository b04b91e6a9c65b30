import Stencil.Fault

/-!
# Timestamps

A timestamp is a year of four digits, a month and a day, and possibly a time of day with a
fraction and an offset. Where the type is not given the month and the day of a date alone have two
digits. The numbers are checked only when a timestamp is made a value.
-/

namespace Stencil.Yaml

/-- The offset at the end of a timestamp. -/
structure Zone where
  negative : Bool
  hours : Nat
  minutes : Nat
  deriving DecidableEq, Repr

/-- The time of day of a timestamp. -/
structure TimeOfDay where
  hour : Nat
  minute : Nat
  second : Nat
  micro : Nat
  zone : Option Zone
  deriving DecidableEq, Repr

/-- A timestamp as it is spelled. -/
structure Timestamp where
  year : Nat
  month : Nat
  day : Nat
  /-- Whether month and day are of two digits each. -/
  padded : Bool
  time : Option TimeOfDay
  deriving DecidableEq, Repr

namespace Timestamp

/-- The ASCII digits at the front of a text, at least so many and at most so many, and the rest. -/
def takeDigits? (least most : Nat) (text : List Char) : Option (List Char × List Char) :=
  let digits := (text.take most).takeWhile Char.isDigit
  if least ≤ digits.length then some (digits, text.drop digits.length) else none

/-- A text without its first character, which has to be the given one. -/
def dropMark? (mark : Char) : List Char → Option (List Char)
  | [] => none
  | c :: rest => if c = mark then some rest else none

/-- The fraction at the front of a text in microseconds, and the rest. -/
def takeFraction : List Char → Nat × List Char
  | '.' :: rest =>
    let digits := (rest.takeWhile Char.isDigit).take 6
    (Text.decimalNumber digits * Nat.pow 10 (6 - digits.length), rest.dropWhile Char.isDigit)
  | text => (0, text)

/-- Whether a character is a space or a tab. -/
def isSpace (c : Char) : Bool :=
  c == ' ' || c == '\t'

/-- The offset that a whole text spells; an empty text spells none. -/
def zone? (text : List Char) : Option (Option Zone) :=
  match text.dropWhile isSpace with
  | [] => if text.isEmpty then some none else none
  | ['Z'] => some (some ⟨false, 0, 0⟩)
  | sign :: rest =>
    if sign = '+' ∨ sign = '-' then do
      let (hours, rest) ← takeDigits? 1 2 rest
      let minutes ← if rest.isEmpty then some [] else do
        match ← takeDigits? 2 2 (← dropMark? ':' rest) with
        | (minutes, []) => some minutes
        | _ => none
      return some ⟨sign == '-', Text.decimalNumber hours, Text.decimalNumber minutes⟩
    else none

/-- The time of day that a whole text spells. -/
def time? (text : List Char) : Option TimeOfDay := do
  let (hour, rest) ← takeDigits? 1 2 text
  let (minute, rest) ← takeDigits? 2 2 (← dropMark? ':' rest)
  let (second, rest) ← takeDigits? 2 2 (← dropMark? ':' rest)
  let (micro, rest) := takeFraction rest
  return ⟨Text.decimalNumber hour, Text.decimalNumber minute, Text.decimalNumber second, micro,
    ← zone? rest⟩

/-- The text behind the letter T or the blanks that separate date and time. -/
def dropSeparator? : List Char → Option (List Char)
  | [] => none
  | c :: rest =>
    if c = 'T' ∨ c = 't' then some rest
    else if isSpace c then some (rest.dropWhile isSpace)
    else none

/-- The timestamp that a text spells. -/
def read? (text : List Char) : Option Timestamp := do
  let (year, rest) ← takeDigits? 4 4 text
  let (month, rest) ← takeDigits? 1 2 (← dropMark? '-' rest)
  let (day, rest) ← takeDigits? 1 2 (← dropMark? '-' rest)
  let padded := month.length == 2 && day.length == 2
  let time ← if rest.isEmpty then some none else (time? (← dropSeparator? rest)).map some
  return ⟨Text.decimalNumber year, Text.decimalNumber month, Text.decimalNumber day, padded, time⟩

/-- Whether a timestamp is recognised where the type is not given. -/
def isPlain (timestamp : Timestamp) : Bool :=
  timestamp.padded || timestamp.time.isSome

end Timestamp
end Stencil.Yaml
