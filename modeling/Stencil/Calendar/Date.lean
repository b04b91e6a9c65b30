import Stencil.Text.Digit

/-!
# Civil dates

Dates of the Gregorian calendar, extended backwards, in the years 1 to 9999. Days are numbered
from the first of January of year 1, which is day 1; weeks begin on Monday and the first week of
a year is the one that holds its first Thursday.
-/

namespace Stencil.Calendar

/-- Why numbers are no date, time of day or offset. -/
inductive CalendarFault
  | year (value : Nat)
  | month
  | day
  | hour
  | minute
  | second
  | offset (negative : Bool) (days seconds : Nat)
  deriving DecidableEq, Repr

/-- Whether a year has a 29th of February. -/
def isLeap (year : Nat) : Bool :=
  year % 4 == 0 && (year % 100 != 0 || year % 400 == 0)

/-- The number of days of a month; zero outside the twelve months. -/
def daysIn (year month : Nat) : Nat :=
  match month with
  | 1 | 3 | 5 | 7 | 8 | 10 | 12 => 31
  | 4 | 6 | 9 | 11 => 30
  | 2 => if isLeap year then 29 else 28
  | _ => 0

/-- The year, month and day of a date in the calendar. -/
def IsCivil (year month day : Nat) : Prop :=
  1 ≤ year ∧ year ≤ 9999 ∧ 1 ≤ month ∧ month ≤ 12 ∧ 1 ≤ day ∧ day ≤ daysIn year month

instance (year month day : Nat) : Decidable (IsCivil year month day) :=
  inferInstanceAs (Decidable (_ ∧ _ ∧ _ ∧ _ ∧ _ ∧ _))

/-- A date of the calendar. -/
structure Date where
  year : Nat
  month : Nat
  day : Nat
  civil : IsCivil year month day
  deriving DecidableEq, Repr

namespace Date

/-- The date of a year, month and day; the first number out of range is the fault. -/
def of (year month day : Nat) : Except CalendarFault Date :=
  if civil : IsCivil year month day then .ok ⟨year, month, day, civil⟩
  else if year = 0 ∨ 9999 < year then .error (.year year)
  else if month = 0 ∨ 12 < month then .error .month
  else .error .day

/-- The date of a year, month and day, if there is one. -/
def of? (year month day : Nat) : Option Date :=
  (of year month day).toOption

/-- The number of days from the beginning of the calendar to the beginning of a year. -/
def daysBeforeYear (year : Nat) : Nat :=
  let elapsed := year - 1
  elapsed * 365 + elapsed / 4 - elapsed / 100 + elapsed / 400

/-- The number of days of a year before a month. -/
def daysBeforeMonth (year month : Nat) : Nat :=
  (List.range (month - 1)).foldl (fun days earlier => days + daysIn year (earlier + 1)) 0

/-- The number of a day, given by year, month and day. -/
def numberOf (year month day : Nat) : Nat :=
  daysBeforeYear year + daysBeforeMonth year month + day

/-- The number of a date, counted from the beginning of the calendar. -/
def dayNumber (date : Date) : Nat :=
  numberOf date.year date.month date.day

/-- The date at a place (from zero) of a year. -/
def ofYearDay? (year place : Nat) : Option Date :=
  (List.range 12).findSome? fun index =>
    let before := daysBeforeMonth year (index + 1)
    if before ≤ place ∧ place < before + daysIn year (index + 1) then
      of? year (index + 1) (place - before + 1)
    else none

/-- The date with a number, if it is in range. -/
def ofDayNumber? (number : Nat) : Option Date :=
  let place := number - 1
  if number = 0 then none
  else
    let guess := place / 366 + 1
    (List.range 30).findSome? fun step =>
      let year := guess + step
      let before := daysBeforeYear year
      if before ≤ place ∧ place < daysBeforeYear (year + 1) then ofYearDay? year (place - before)
      else none

/-- The day of the week on which a year begins, Monday being zero. -/
def firstWeekday (year : Nat) : Nat :=
  (numberOf year 1 1 + 6) % 7

/-- The number of weeks in a year, by the weekday on which it begins. -/
def weeksIn (year : Nat) : Nat :=
  if firstWeekday year = 3 ∨ (firstWeekday year = 2 ∧ isLeap year) then 53 else 52

/-- The date on a day (from one) of a week (from one) of a year. -/
def ofWeek? (year week day : Nat) : Option Date :=
  if year = 0 ∨ 9999 < year ∨ week = 0 ∨ weeksIn year < week ∨ day = 0 ∨ 7 < day then none
  else
    let weekday := firstWeekday year
    let firstDay := numberOf year 1 1
    let firstMonday := if 3 < weekday then firstDay + (7 - weekday) else firstDay - weekday
    ofDayNumber? (firstMonday + (week - 1) * 7 + (day - 1))

/-- A date with its year, month and day, hyphens between them. -/
def isoText (date : Date) : List Char :=
  Text.paddedText 4 date.year ++ '-' :: Text.paddedText 2 date.month
    ++ '-' :: Text.paddedText 2 date.day

end Date
end Stencil.Calendar
