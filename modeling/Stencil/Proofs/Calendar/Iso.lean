import Mathlib.Tactic.SplitIfs
import Stencil.Calendar.Iso
import Stencil.Proofs.Text.Digits
import Stencil.Proofs.Text.Pieces

/-!
# Moments written and read

A number in a field of its width is read off the front of a text (`takeNumber?_paddedText`). So a
date is read from its text (`Date.moment?_isoText`), and a moment from its own, but that an offset
of no whole second is lost (`Moment.moment?_isoText`).
-/

namespace Stencil.Calendar

open Text

section Fields

variable {width number : Nat}

/-- A number in a field of its width is read off the front of a text. -/
theorem takeNumber?_paddedText (fits : (decimalText number).length ≤ width) (rest : List Char) :
    Iso.takeNumber? width (paddedText width number ++ rest) = some (number, rest) := by
  have length := length_paddedText fits
  have digits : (paddedText width number).all Char.isDigit = true :=
    all_paddedText (fun _ digit => digit) width number
  rw [Iso.takeNumber?, List.take_left' length, List.drop_left' length]
  simp only [length, digits, decimalNumber_paddedText, decide_true, Bool.and_self, if_true]

/-- A padded number at the end of the text is read back, and nothing remains. -/
theorem takeNumber?_paddedText_end (fits : (decimalText number).length ≤ width) :
    Iso.takeNumber? width (paddedText width number) = some (number, []) := by
  have read := takeNumber?_paddedText fits []
  rwa [List.append_nil] at read

/-- A number up to 99 fits into two digits. -/
theorem fits_two (small : number ≤ 99) : (decimalText number).length ≤ 2 :=
  (length_decimalText_le_iff (Nat.succ_pos 1)).mpr (Nat.lt_succ_of_le small)

end Fields

/-- A test that digits and the marks between them pass is passed by the text of a time of day. -/
theorem all_clockText {test : Char → Bool} (digits : ∀ c, c.isDigit = true → test c = true)
    (colon : test ':' = true) (point : test '.' = true) (clock : Clock) :
    (Moment.clockText clock).all test = true := by
  unfold Moment.clockText
  split_ifs <;>
    simp only [List.all_append, List.all_cons, List.all_nil, all_paddedText digits, colon, point,
      Bool.and_self]

namespace Date

/-- No month has more than 31 days. -/
theorem daysIn_le (year month : Nat) : daysIn year month ≤ 31 := by
  unfold daysIn
  grind

variable (date : Date)

theorem year_fits : (decimalText date.year).length ≤ 4 :=
  (length_decimalText_le_iff (Nat.succ_pos 3)).mpr (Nat.lt_succ_of_le date.civil.2.1)

theorem month_fits : (decimalText date.month).length ≤ 2 :=
  fits_two (Nat.le_trans date.civil.2.2.2.1 (by decide))

theorem day_fits : (decimalText date.day).length ≤ 2 :=
  fits_two (Nat.le_trans date.civil.2.2.2.2.2 (Nat.le_trans (daysIn_le _ _) (by decide)))

theorem of?_self : of? date.year date.month date.day = some date := by
  rw [of?, of, dif_pos date.civil]
  rfl

/-- A date is read from its text. -/
theorem date?_isoText : Iso.date? date.isoText = some date := by
  have year := takeNumber?_paddedText date.year_fits
  have month := takeNumber?_paddedText date.month_fits
  have day := takeNumber?_paddedText_end date.day_fits
  simp only [Iso.date?, isoText, List.append_assoc, List.cons_append, year, Option.bind_eq_bind,
    Option.bind_some, List.head?_cons, beq_self_eq_true, Iso.takeHyphen?, if_true]
  split
  · exact absurd ‹_› (paddedText_append_ne_cons rfl _ _)
  · simp only [month, Option.bind_some, day, of?_self]

/-- The text of a date has ten characters. -/
theorem length_isoText : date.isoText.length = 10 := by
  have year := length_paddedText date.year_fits
  have month := length_paddedText date.month_fits
  have day := length_paddedText date.day_fits
  simp only [isoText, List.length_append, List.length_cons, year, month, day]

/-- The text of a date is taken for a date of ten characters, whatever comes behind it. -/
theorem dateLength_isoText (rest : List Char) : Iso.dateLength (date.isoText ++ rest) = 10 := by
  have year := length_paddedText date.year_fits
  have long : (date.isoText ++ rest).length ≠ 7 := by
    rw [List.length_append, length_isoText]
    omega
  have hyphen : (date.isoText ++ rest).getD 4 ' ' = '-' := by
    rw [isoText, List.append_assoc, List.append_assoc, List.getD_eq_getElem?_getD,
      List.getElem?_append_right (Nat.le_of_eq year), year]
    rfl
  have noWeek : (date.isoText ++ rest).getD 5 ' ' ≠ 'W' := by
    rw [isoText, List.append_assoc, List.append_assoc, List.getD_eq_getElem?_getD,
      List.getElem?_append_right (Nat.le_trans (Nat.le_of_eq year) (Nat.le_succ 4)), year,
      List.cons_append, List.getElem?_cons_succ]
    intro week
    cases spelled : paddedText 2 date.month ++ ('-' :: paddedText 2 date.day ++ rest) with
    | nil => exact List.append_ne_nil_of_right_ne_nil _ (List.cons_ne_nil _ _) spelled
    | cons c others =>
      rw [spelled] at week
      have begins : c = 'W' := week
      exact paddedText_append_ne_cons rfl _ others (begins ▸ spelled)
  simp only [Iso.dateLength, if_neg long, hyphen, if_neg noWeek, if_true]

end Date

namespace Clock

variable (clock : Clock)

theorem hour_fits : (decimalText clock.hour).length ≤ 2 :=
  fits_two (Nat.le_trans (Nat.le_of_lt clock.inDay.1) (by decide))

theorem minute_fits : (decimalText clock.minute).length ≤ 2 :=
  fits_two (Nat.le_trans (Nat.le_of_lt clock.inDay.2.1) (by decide))

theorem second_fits : (decimalText clock.second).length ≤ 2 :=
  fits_two (Nat.le_trans (Nat.le_of_lt clock.inDay.2.2.1) (by decide))

theorem micro_fits : (decimalText clock.micro).length ≤ 6 :=
  (length_decimalText_le_iff (Nat.succ_pos 5)).mpr clock.inDay.2.2.2

theorem of_self : of clock.hour clock.minute clock.second clock.micro = .ok clock := by
  rw [of, dif_pos clock.inDay]

end Clock

namespace Iso

variable {remaining number micro : Nat} {colons : Bool} {read : List Nat}

/-- The last part of a clock is read where the text ends. -/
theorem clockParts?_end (fits : (decimalText number).length ≤ 2) :
    clockParts? (remaining + 1) colons read (paddedText 2 number) =
      some (read ++ [number], 0, true) := by
  rw [clockParts?, takeNumber?_paddedText_end fits]
  rfl

/-- A number in front of a colon, and then the further parts. -/
theorem clockParts?_colon {after : List Char} (fits : (decimalText number).length ≤ 2)
    (separated : read ≠ [] → colons = true) (filled : after ≠ []) :
    clockParts? (remaining + 1) colons read (paddedText 2 number ++ ':' :: after) =
      clockParts? remaining true (read ++ [number]) after := by
  rw [clockParts?, takeNumber?_paddedText fits]
  have more : after.isEmpty = false := List.isEmpty_eq_false_iff.mpr filled
  have colon : (if (read ++ [number]).length = 1 then true else colons) = true := by
    split_ifs with first
    · rfl
    · refine separated fun none => first ?_
      rw [none]
      rfl
  simp only [Option.bind_eq_bind, Option.bind_some, more, Bool.false_and, Bool.false_eq_true,
    if_false, beq_self_eq_true, colon, Bool.and_self, if_true]

/-- Six digits of a fraction are read as microseconds. -/
theorem fraction?_paddedText (fits : (decimalText micro).length ≤ 6) :
    fraction? (paddedText 6 micro) = some (micro, true) := by
  have length := length_paddedText fits
  simp only [fraction?, length, Nat.min_self, takeNumber?_paddedText_end fits,
    Option.bind_eq_bind, Option.bind_some, Nat.sub_self]
  exact congrArg (fun number => some (number, true)) (Nat.mul_one micro)

/-- The last number of a time of day, with a fraction. -/
theorem clockParts?_fraction (fits : (decimalText number).length ≤ 2)
    (small : (decimalText micro).length ≤ 6) (later : read ≠ []) :
    clockParts? (remaining + 1) true read (paddedText 2 number ++ '.' :: paddedText 6 micro) =
      some (read ++ [number], micro, true) := by
  rw [clockParts?, takeNumber?_paddedText fits]
  have more : (paddedText 6 micro).isEmpty = false :=
    List.isEmpty_eq_false_iff.mpr (paddedText_ne_nil 6 micro)
  have notFirst : (read ++ [number]).length ≠ 1 := by
    rw [List.length_append, List.length_singleton]
    exact fun one => later (List.length_eq_zero_iff.mp (Nat.succ.inj one))
  simp only [Option.bind_eq_bind, Option.bind_some, more, Bool.false_and, Bool.false_eq_true,
    if_false, if_neg notFirst, fraction?_paddedText small]
  rfl

/-- An hour and a minute are read as a clock without seconds. -/
theorem reading?_minutes {hour minute : Nat} (hourFits : (decimalText hour).length ≤ 2)
    (minuteFits : (decimalText minute).length ≤ 2) :
    reading? (paddedText 2 hour ++ ':' :: paddedText 2 minute) =
      some (⟨hour, minute, 0, 0⟩, true) := by
  rw [reading?, clockParts?_colon hourFits (absurd rfl) (paddedText_ne_nil 2 _),
    clockParts?_end minuteFits]
  rfl

/-- A time of day is read from its text. -/
theorem reading?_clockText (clock : Clock) : reading? (Moment.clockText clock) =
    some (⟨clock.hour, clock.minute, clock.second, clock.micro⟩, true) := by
  have spelled : Moment.clockText clock = paddedText 2 clock.hour ++ ':' ::
      (paddedText 2 clock.minute ++ ':' :: (paddedText 2 clock.second ++
        (if clock.micro = 0 then [] else '.' :: paddedText 6 clock.micro))) := by
    simp only [Moment.clockText, List.append_assoc, List.cons_append]
  have filled (number : Nat) (rest : List Char) : paddedText 2 number ++ rest ≠ [] :=
    List.append_ne_nil_of_left_ne_nil (paddedText_ne_nil 2 number) rest
  rw [spelled, reading?, clockParts?_colon clock.hour_fits (absurd rfl) (filled _ _),
    clockParts?_colon clock.minute_fits (fun _ => rfl) (filled _ _)]
  split_ifs with whole
  · rw [List.append_nil, clockParts?_end clock.second_fits, whole]
    rfl
  · rw [clockParts?_fraction clock.second_fits clock.micro_fits
      (List.append_ne_nil_of_right_ne_nil _ (List.cons_ne_nil _ _))]
    rfl

/-- An offset is a sign and a time of day. -/
theorem offset?_sign {sign : Char} {text : List Char} {reading : Reading} (signed : sign ≠ 'Z')
    (reads : reading? text = some (reading, true)) :
    offset? (sign :: text) =
      if (reading.hour * 60 + reading.minute) * 60 + reading.second = 0 then some .zero
      else (Offset.of (sign == '-') (((reading.hour * 60 + reading.minute) * 60 + reading.second)
        * 1000000 + reading.micro)).toOption := by
  rw [offset?.eq_4 _ _ (fun zulu _ => signed zulu) signed, reads]
  rfl

end Iso

namespace Offset

/-- The size of an offset as a time of day. -/
def size (offset : Offset) : Clock :=
  let seconds := offset.micros.natAbs / 1000000
  ⟨seconds / 3600, seconds / 60 % 60, seconds % 60, offset.micros.natAbs % 1000000, by
    have shorter := offset.shorter
    unfold microsPerDay at shorter
    exact ⟨by omega, by omega, by omega, by omega⟩⟩

/-- What is read of an offset: nothing, if it has no whole second. -/
def reread (offset : Offset) : Offset :=
  if offset.micros.natAbs < 1000000 then .zero else offset

variable (offset : Offset)

/-- The size of an offset has as many microseconds as the offset, without the sign. -/
theorem micros_size : offset.size.micros = offset.micros.natAbs := by
  simp only [size, Clock.micros]
  omega

/-- The text of the size of an offset, without seconds where it has none. -/
def sizeText : List Char :=
  if offset.size.second = 0 ∧ offset.size.micro = 0 then
    paddedText 2 offset.size.hour ++ ':' :: paddedText 2 offset.size.minute
  else Moment.clockText offset.size

/-- The text of an offset is a sign and its size, which may stop short after the minutes. -/
theorem isoText_eq :
    offset.isoText = (if offset.micros < 0 then '-' else '+') :: offset.sizeText := by
  unfold isoText
  by_cases short : offset.micros.natAbs / 1000000 % 60 = 0 ∧ offset.micros.natAbs % 1000000 = 0
  · have size : offset.sizeText = paddedText 2 offset.size.hour ++ ':' ::
      paddedText 2 offset.size.minute := if_pos short
    simp only [size, if_pos short, List.append_nil, List.cons_append]
    rfl
  · have size : offset.sizeText = Moment.clockText offset.size := if_neg short
    simp only [size, if_neg short, Moment.clockText, List.cons_append, List.append_assoc]
    rfl

/-- The size of an offset is read back from its text. -/
theorem reading?_sizeText : Iso.reading? offset.sizeText = some (⟨offset.size.hour,
    offset.size.minute, offset.size.second, offset.size.micro⟩, true) := by
  unfold sizeText
  split_ifs with short
  · rw [Iso.reading?_minutes offset.size.hour_fits offset.size.minute_fits, short.1, short.2]
  · exact Iso.reading?_clockText offset.size

/-- An offset is made again from its sign and its microseconds. -/
theorem of_micros : of (decide (offset.micros < 0)) offset.micros.natAbs = .ok offset := by
  have signed : (if decide (offset.micros < 0) then -(offset.micros.natAbs : Int)
      else offset.micros.natAbs) = offset.micros := by
    split_ifs with negative <;> simp only [decide_eq_true_eq] at negative <;> omega
  simp only [of, signed, dif_pos offset.shorter]

/-- An offset is read from its text, unless it has no whole second. -/
theorem offset?_isoText : Iso.offset? offset.isoText = some offset.reread := by
  have whole := offset.micros_size
  unfold Clock.micros at whole
  have none : (offset.size.hour * 60 + offset.size.minute) * 60 + offset.size.second = 0 ↔
      offset.micros.natAbs < 1000000 := by
    have := offset.size.inDay.2.2.2
    omega
  rw [isoText_eq, Iso.offset?_sign (by split_ifs <;> decide) offset.reading?_sizeText, whole,
    reread]
  simp only [none]
  split_ifs with small negative
  · rfl
  · have decided := offset.of_micros
    rw [decide_eq_true negative] at decided
    exact congrArg Except.toOption decided
  · have decided := offset.of_micros
    rw [decide_eq_false negative] at decided
    exact congrArg Except.toOption decided

end Offset

namespace Moment

/-- No character of a time of day begins an offset. -/
theorem beginsOffset_of_mem_clockText {clock : Clock} {c : Char} (member : c ∈ clockText clock) :
    Iso.beginsOffset c = false := by
  have digits (c : Char) (digit : c.isDigit = true) : (!Iso.beginsOffset c) = true := by
    rw [Bool.not_eq_true']
    refine Bool.eq_false_iff.mpr fun begins => ?_
    unfold Iso.beginsOffset at begins
    simp only [Bool.or_eq_true, beq_iff_eq] at begins
    rcases begins with (rfl | rfl) | rfl <;> exact absurd digit (by decide)
  have all := List.all_eq_true.mp (all_clockText digits rfl rfl clock) c member
  rwa [Bool.not_eq_true'] at all

/-- What is read of a moment: its offset is lost if it has no whole second. -/
def reread (moment : Moment) : Moment :=
  { moment with offset := moment.offset.map Offset.reread }

/-- A time of day and an offset are read from their text. -/
theorem time?_append (clock : Clock) (offset : Option Offset) :
    Iso.time? (clockText clock ++ offset.elim [] Offset.isoText) =
      some (clock, offset.map Offset.reread) := by
  have front : ∀ c ∈ clockText clock, (!Iso.beginsOffset c) = true := fun c member => by
    rw [beginsOffset_of_mem_clockText member]
    rfl
  have back : ∀ c ∈ (offset.elim [] Offset.isoText).head?, (!Iso.beginsOffset c) = false := by
    cases offset with
    | none => exact fun c none => absurd none (Option.not_mem_none c)
    | some offset =>
      rw [Option.elim_some, offset.isoText_eq, List.head?_cons]
      intro c sign
      rw [← Option.some.inj sign]
      split_ifs <;> rfl
  obtain ⟨before, behind⟩ := span_append front back
  unfold Iso.time?
  simp only [before, behind, Iso.reading?_clockText, Option.bind_eq_bind, Option.bind_some,
    Clock.of_self]
  cases offset with
  | none => rfl
  | some offset =>
    have filled : offset.isoText.isEmpty = false := by
      rw [offset.isoText_eq]
      rfl
    simp only [Option.elim_some, filled, Offset.offset?_isoText]
    rfl

end Moment

/-- A text that begins with the text of a date is read as that date, and what comes behind any one
character as a time of day. -/
theorem Date.moment?_append (date : Date) (rest : List Char) :
    Iso.moment? (date.isoText ++ rest) =
      match rest with
      | [] => some (.startOf date)
      | _ :: text => (Iso.time? text).map fun read => ⟨date, read.1, read.2⟩ := by
  have length := date.length_isoText
  have long : ¬ (date.isoText ++ rest).length < 7 := by
    rw [List.length_append, length]
    omega
  unfold Iso.moment?
  simp only [if_neg long, date.dateLength_isoText, List.take_left' length, List.drop_left' length,
    date.date?_isoText, Option.bind_eq_bind, Option.bind_some]
  cases rest with
  | nil => rfl
  | cons separator text => exact Option.map_eq_bind.symm

/-- The text of a date is read as its beginning. -/
theorem Date.moment?_isoText (date : Date) :
    Iso.moment? date.isoText = some (.startOf date) := by
  have read := date.moment?_append []
  rwa [List.append_nil] at read

/-- Every character of a date's text passes a test that digits and the hyphen pass. -/
theorem Date.all_isoText {test : Char → Bool} (digits : ∀ c, c.isDigit = true → test c = true)
    (hyphen : test '-' = true) (date : Date) : date.isoText.all test = true := by
  simp only [isoText, List.all_append, List.all_cons, all_paddedText digits, hyphen, Bool.and_self]

/-- A test that digits and the five marks of times pass is passed by the text of a moment. -/
theorem Moment.all_isoText {test : Char → Bool} (digits : ∀ c, c.isDigit = true → test c = true)
    (marks : ['-', 'T', ':', '.', '+'].all test = true) (moment : Moment) :
    moment.isoText.all test = true := by
  simp only [List.all_cons, List.all_nil, Bool.and_true, Bool.and_eq_true] at marks
  obtain ⟨hyphen, separator, colon, point, plus⟩ := marks
  have offset : (moment.offset.elim [] Offset.isoText).all test = true := by
    cases moment.offset with
    | none => rfl
    | some offset =>
      rw [Option.elim_some, offset.isoText_eq, List.all_cons, Offset.sizeText]
      split_ifs <;>
        simp only [List.all_append, List.all_cons, all_paddedText digits,
          all_clockText digits colon point, hyphen, colon, plus, Bool.and_self]
  simp only [isoText, textWith, List.all_append, List.all_cons,
    moment.date.all_isoText digits hyphen, all_clockText digits colon point, separator, offset,
    Bool.and_self]

/-- A moment is read from its text, but that an offset of no whole second is lost. -/
theorem Moment.moment?_isoText (moment : Moment) :
    Iso.moment? moment.isoText = some moment.reread := by
  unfold isoText textWith
  rw [List.append_assoc, List.cons_append, Date.moment?_append]
  simp only [time?_append, Option.map_some]
  rfl

end Stencil.Calendar
