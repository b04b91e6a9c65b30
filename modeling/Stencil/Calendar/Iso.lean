import Stencil.Calendar.Moment

/-!
# Reading dates and times

A moment is read from a calendar date or a week date, in the form with or without hyphens, then
any one character, then a time of day with or without colons, a fraction of a second cut to six
digits, and an offset. When an offset follows, the time of day may stop short after any of its
parts, and one ASCII character is passed over before the offset.
-/

namespace Stencil.Calendar.Iso

/-- The number in the first `count` characters of a text, all ASCII digits, and the rest. -/
def takeNumber? (count : Nat) (text : List Char) : Option (Nat × List Char) :=
  let digits := text.take count
  if digits.length = count && digits.all Char.isDigit then
    some (Text.decimalNumber digits, text.drop count)
  else none

/-- The text after a leading hyphen, which is needed exactly when `hyphens` says so. -/
def takeHyphen? (hyphens : Bool) (text : List Char) : Option (List Char) :=
  if hyphens then
    match text with
    | '-' :: rest => some rest
    | _ => none
  else some text

/-- The date that a text denotes. The text is the part in front of the separator; what follows a
complete date in it is not looked at. -/
def date? (text : List Char) : Option Date := do
  let (year, rest) ← takeNumber? 4 text
  let hyphens := rest.head? == some '-'
  let rest ← takeHyphen? hyphens rest
  match rest with
  | 'W' :: rest =>
    let (week, rest) ← takeNumber? 2 rest
    if rest.isEmpty then Date.ofWeek? year week 1
    else
      let (day, _) ← takeNumber? 1 (← takeHyphen? hyphens rest)
      Date.ofWeek? year week day
  | _ =>
    let (month, rest) ← takeNumber? 2 rest
    let (day, _) ← takeNumber? 2 (← takeHyphen? hyphens rest)
    Date.of? year month day

/-- Where the date of a text ends: the length of the longest date form that its fifth, sixth and
ninth characters admit. -/
def dateLength (text : List Char) : Nat :=
  let charAt (index : Nat) : Char := text.getD index ' '
  if text.length = 7 then 7
  else if charAt 4 = '-' then
    if charAt 5 = 'W' then
      if charAt 8 = '-' then (if (charAt 10).isDigit then 8 else 10) else 8
    else 10
  else if charAt 4 = 'W' then
    let digitsEnd := 7 + ((text.drop 7).takeWhile Char.isDigit).length
    if digitsEnd < 9 then digitsEnd else if digitsEnd % 2 = 0 then 7 else 8
  else 8

/-- Hour, minute, second and microsecond as read. -/
structure Reading where
  hour : Nat
  minute : Nat
  second : Nat
  micro : Nat
  deriving DecidableEq, Repr

/-- The microseconds that fraction digits denote, and whether nothing but digits follows them. -/
def fraction? (text : List Char) : Option (Nat × Bool) := do
  let count := min text.length 6
  if count = 0 then none
  let (digits, rest) ← takeNumber? count text
  return (digits * Nat.pow 10 (6 - count), (rest.dropWhile Char.isDigit).isEmpty)

/-- The parts of a time of day in a text: numbers of two digits, then a fraction. The flag tells
whether the text ends with the last part. -/
def clockParts? : (remaining : Nat) → (colons : Bool) → (read : List Nat) → List Char →
    Option (List Nat × Nat × Bool)
  | 0, _, read, text => do
    let (micro, complete) ← fraction? text
    return (read, micro, complete)
  | remaining + 1, colons, read, text => do
    let (number, rest) ← takeNumber? 2 text
    let read := read ++ [number]
    match rest with
    | [] => return (read, 0, true)
    | c :: after =>
      let colons := if read.length = 1 then c == ':' else colons
      if after.isEmpty && c.toNat < 0x80 then return (read, 0, false)
      else if colons && c == ':' then clockParts? remaining colons read after
      else if c = '.' ∨ c = ',' then
        let (micro, complete) ← fraction? after
        return (read, micro, complete)
      else if colons then none
      else clockParts? remaining colons read rest

/-- The time of day that a text begins with, and whether the text ends with it. -/
def reading? (text : List Char) : Option (Reading × Bool) := do
  let (numbers, micro, complete) ← clockParts? 3 false [] text
  return (⟨numbers.getD 0 0, numbers.getD 1 0, numbers.getD 2 0, micro⟩, complete)

/-- Whether a character begins the offset of a time. -/
def beginsOffset (c : Char) : Bool :=
  c == '+' || c == '-' || c == 'Z'

/-- The offset that a text spells, from the character that begins it. An offset of no whole second
is none at all. -/
def offset? (text : List Char) : Option Offset :=
  match text with
  | ['Z'] => some .zero
  | 'Z' :: _ => none
  | [] => none
  | sign :: rest => do
    let (read, complete) ← reading? rest
    if !complete then none
    let seconds := (read.hour * 60 + read.minute) * 60 + read.second
    if seconds = 0 then return .zero
    (Offset.of (sign == '-') (seconds * 1000000 + read.micro)).toOption

/-- The time of day and offset that a text spells. -/
def time? (text : List Char) : Option (Clock × Option Offset) := do
  let front := text.takeWhile (!beginsOffset ·)
  let back := text.dropWhile (!beginsOffset ·)
  let (read, complete) ← reading? front
  let clock := Clock.of read.hour read.minute read.second read.micro
  if back.isEmpty then
    if complete then return (← clock.toOption, none) else none
  else
    let offset ← offset? back
    return (← clock.toOption, some offset)

/-- The moment that a text spells; a date alone is its beginning. -/
def moment? (text : List Char) : Option Moment := do
  if text.length < 7 then none
  let length := dateLength text
  let date ← date? (text.take length)
  match text.drop length with
  | [] => return .startOf date
  | _ :: rest =>
    let (clock, offset) ← time? rest
    return ⟨date, clock, offset⟩

end Stencil.Calendar.Iso
