import Stencil.Calendar.Date

/-!
# Moments

A moment is a date with a time of day to the microsecond, and possibly an offset from universal
time. Two moments with offsets are the same instant when their universal times agree.
-/

namespace Stencil.Calendar

/-- The hour, minute, second and microsecond of a time of day. -/
def IsClock (hour minute second micro : Nat) : Prop :=
  hour < 24 ∧ minute < 60 ∧ second < 60 ∧ micro < 1000000

instance (hour minute second micro : Nat) : Decidable (IsClock hour minute second micro) :=
  inferInstanceAs (Decidable (_ ∧ _ ∧ _ ∧ _))

/-- A time of day. -/
structure Clock where
  hour : Nat
  minute : Nat
  second : Nat
  micro : Nat
  inDay : IsClock hour minute second micro
  deriving DecidableEq, Repr

/-- The number of microseconds in a day. -/
def microsPerDay : Nat :=
  86400000000

/-- An offset from universal time, in microseconds; it is shorter than a day. -/
structure Offset where
  micros : Int
  shorter : micros.natAbs < microsPerDay
  deriving DecidableEq, Repr

/-- A date and a time of day, possibly with an offset from universal time. -/
structure Moment where
  date : Date
  clock : Clock
  offset : Option Offset
  deriving DecidableEq, Repr

namespace Clock

/-- The time of day of four numbers; the first number out of range is the fault. -/
def of (hour minute second micro : Nat) : Except CalendarFault Clock :=
  if inDay : IsClock hour minute second micro then .ok ⟨hour, minute, second, micro, inDay⟩
  else if 24 ≤ hour then .error .hour
  else if 60 ≤ minute then .error .minute
  else .error .second

/-- The time at which a day begins. -/
def midnight : Clock :=
  ⟨0, 0, 0, 0, by decide⟩

/-- A time of day in microseconds since midnight. -/
def micros (clock : Clock) : Nat :=
  ((clock.hour * 60 + clock.minute) * 60 + clock.second) * 1000000 + clock.micro

end Clock

namespace Offset

/-- The offset of the zone from which others are counted. -/
def zero : Offset :=
  ⟨0, by decide⟩

/-- The offset of a signed number of microseconds. -/
def of (negative : Bool) (micros : Nat) : Except CalendarFault Offset :=
  let signed : Int := if negative then -micros else micros
  if shorter : signed.natAbs < microsPerDay then .ok ⟨signed, shorter⟩
  else .error (.offset negative (micros / microsPerDay) (micros % microsPerDay / 1000000))

/-- The text `+HH:MM` of an offset, with seconds and microseconds only when they are there. -/
def isoText (offset : Offset) : List Char :=
  let size := offset.micros.natAbs
  let seconds := size / 1000000
  let micro := size % 1000000
  let sign := if offset.micros < 0 then '-' else '+'
  let tail :=
    if seconds % 60 = 0 ∧ micro = 0 then []
    else ':' :: Text.paddedText 2 (seconds % 60)
      ++ (if micro = 0 then [] else '.' :: Text.paddedText 6 micro)
  sign :: Text.paddedText 2 (seconds / 3600) ++ ':' :: Text.paddedText 2 (seconds / 60 % 60) ++ tail

end Offset

namespace Moment

/-- The moment at the beginning of a date. -/
def startOf (date : Date) : Moment :=
  ⟨date, .midnight, none⟩

/-- The time of day as text, the microseconds only when there are any. -/
def clockText (clock : Clock) : List Char :=
  Text.paddedText 2 clock.hour ++ ':' :: Text.paddedText 2 clock.minute
    ++ ':' :: Text.paddedText 2 clock.second
    ++ (if clock.micro = 0 then [] else '.' :: Text.paddedText 6 clock.micro)

/-- A moment as text, with the given character between date and time. -/
def textWith (separator : Char) (moment : Moment) : List Char :=
  moment.date.isoText ++ separator :: clockText moment.clock
    ++ (moment.offset.elim [] Offset.isoText)

/-- A moment as text, with the letter T between date and time. -/
def isoText (moment : Moment) : List Char :=
  moment.textWith 'T'

/-- A moment in microseconds since the beginning of the calendar, in universal time if the moment
has an offset. -/
def instant (moment : Moment) : Int :=
  (moment.date.dayNumber * microsPerDay + moment.clock.micros : Nat)
    - moment.offset.elim 0 Offset.micros

/-- Whether two moments are the same point in time; one with an offset never equals one
without. -/
def sameInstant (first second : Moment) : Bool :=
  first.offset.isSome == second.offset.isSome && first.instant == second.instant

/-- The number of the first day of the epoch, 1970-01-01. -/
def epochDay : Int :=
  719163

/-- The moment in universal time so many microseconds after the epoch began, if its year is in
range. -/
def ofEpochMicros? (micros : Int) : Option Moment := do
  let day := micros.fdiv microsPerDay + epochDay
  let rest := (micros.fmod microsPerDay).toNat
  let date ← if 0 < day then Date.ofDayNumber? day.toNat else none
  let seconds := rest / 1000000
  let clock ← (Clock.of (seconds / 3600) (seconds / 60 % 60) (seconds % 60)
    (rest % 1000000)).toOption
  return ⟨date, clock, some .zero⟩

end Moment
end Stencil.Calendar
