import Stencil.Proofs.Text.Marks
import Stencil.Proofs.Transform.Dates

/-!
# Date templates

A date format fills in the first month, day and year mark of its template, each of them apart from
the others (`Builtin.dateFormat_filled`): digits stand in for the marks, so none of them makes or
breaks another mark, and the order in which they are filled in does not matter.
-/

namespace Stencil.Builtin

open Text

variable {dateTemplate chosen : String} {value : Value} {date : Calendar.Date} {step : Step}
  {further : List Value}

/-- The template that the arguments of a date format choose. -/
inductive Chooses (dateTemplate : String) : List Value → String → Prop
  | configured : Chooses dateTemplate [] dateTemplate
  | null : Chooses dateTemplate [.null] dateTemplate
  | given {template : Value} {chosen : String} (present : template.isNull = false)
    (shown : template.display = .ok chosen) : Chooses dateTemplate [template] chosen

/-- A date format fills in the date that a value denotes. -/
theorem apply_of_chooses (denotes : value.moment?.map (·.date) = some date)
    (named : step.name = "dateFormat")
    (choice : Chooses dateTemplate (step.args.map .text ++ further) chosen) :
    (registry dateTemplate).apply step value further =
      (.text (String.ofList (fillDate chosen.toList date)), []) := by
  obtain ⟨transformation, found, runs⟩ : ∃ transformation,
      (registry dateTemplate).get? "dateFormat" = some transformation ∧
        transformation.run = withDefault "_make_date_format.<locals>.date_format" .null
          (dateFormat dateTemplate) := ⟨_, rfl, rfl⟩
  have formats (template : Value) : dateFormat dateTemplate value template =
      dateText dateTemplate template date := dateFormat_of_date denotes template
  rw [Registry.apply, named, found]
  dsimp only
  rw [runs]
  generalize step.args.map .text ++ further = args at choice
  cases choice with
  | configured | null =>
    rw [withDefault, formats]
    rfl
  | given present shown =>
    rw [withDefault, formats, dateText, present, shown]
    rfl

/-- The marks of a date template, and the parts of the date that stand in for them. -/
def dateMarks (date : Calendar.Date) : List Mark :=
  [⟨['M', 'M'], paddedText 2 date.month, List.cons_ne_nil _ _, paddedText_ne_nil 2 _⟩,
    ⟨['D', 'D'], paddedText 2 date.day, List.cons_ne_nil _ _, paddedText_ne_nil 2 _⟩,
    ⟨['Y', 'Y', 'Y', 'Y'], decimalText date.year, List.cons_ne_nil _ _, decimalText_ne_nil _⟩]

/-- Marks without digits that only digits stand in for are apart if they share no letter. -/
theorem apart_of_digits {first second : Mark} (letters : first.old.Disjoint second.old)
    (bare : ∀ c ∈ first.old ++ second.old, c.isDigit = false)
    (digits : ∀ c ∈ first.new ++ second.new, c.isDigit = true) : first.Apart second := by
  have differ {c : Char} (old : c ∈ first.old ++ second.old) (new : c ∈ first.new ++ second.new) :
      False := Bool.false_ne_true ((bare c old).symm.trans (digits c new))
  exact {
    old := letters
    new := fun _ old new => differ (List.mem_append_left _ old) (List.mem_append_right _ new)
    others := fun _ old new => differ (List.mem_append_right _ old) (List.mem_append_left _ new) }

/-- No two marks of a date begin alike. -/
theorem pairwise_dateMarks (date : Calendar.Date) : (dateMarks date).Pairwise Mark.Apart := by
  have letters : (dateMarks date).Pairwise fun first second => first.old.Disjoint second.old := by
    simp [dateMarks]
  have bare : ∀ mark ∈ dateMarks date, ∀ c ∈ mark.old, c.isDigit = false := by
    simp [dateMarks]
  have digits : ∀ mark ∈ dateMarks date, ∀ c ∈ mark.new, c.isDigit = true := by
    simp only [dateMarks, List.forall_mem_cons]
    exact ⟨fun _ => isDigit_of_mem_paddedText, fun _ => isDigit_of_mem_paddedText,
      fun _ => isDigit_of_mem_decimalText, nofun⟩
  refine letters.imp_of_mem fun first second apart => apart_of_digits apart ?_ ?_
  · exact List.forall_mem_append.mpr ⟨bare _ first, bare _ second⟩
  · exact List.forall_mem_append.mpr ⟨digits _ first, digits _ second⟩

/-- Two digits that denote a number. -/
structure TwoDigits (text : List Char) (number : Nat) : Prop where
  length : text.length = 2
  digits : ∀ c ∈ text, c.isDigit = true
  denotes : decimalNumber text = number

/-- A number that fits into two digits is written in two. -/
theorem twoDigits_paddedText {number : Nat} (fits : (decimalText number).length ≤ 2) :
    TwoDigits (paddedText 2 number) number :=
  ⟨length_paddedText fits, fun _ => isDigit_of_mem_paddedText, decimalNumber_paddedText 2 number⟩

/-- **The marks of a date template are filled in apart from each other.** Of a value that denotes a
date, a date format makes the template, be it given or the configured one, with the first month, day
and year mark of that template filled in and all else as it is: two digits stand in for a month and
a day. The same comes of filling them in one after the other in any order. -/
theorem dateFormat_filled {moment : Calendar.Moment} (denotes : value.moment? = some moment)
    (named : step.name = "dateFormat")
    (choice : Chooses dateTemplate (step.args.map .text ++ further) chosen) :
    (registry dateTemplate).apply step value further =
        (.text (String.ofList (filled (dateMarks moment.date) chosen.toList)), []) ∧
      (∀ number ∈ [moment.date.month, moment.date.day], TwoDigits (paddedText 2 number) number) ∧
      ∀ order : List Mark, order.Perm (dateMarks moment.date) →
        replaceEach order chosen.toList = filled (dateMarks moment.date) chosen.toList := by
  have apart := pairwise_dateMarks moment.date
  refine ⟨?_, ?_, fun order same => ?_⟩
  · have denoted : value.moment?.map (·.date) = some moment.date := by rw [denotes]; rfl
    rw [apply_of_chooses denoted named choice, ← replaceEach_eq_filled apart]
    rfl
  · simp only [List.forall_mem_cons]
    exact ⟨twoDigits_paddedText moment.date.month_fits, twoDigits_paddedText moment.date.day_fits,
      nofun⟩
  · rw [replaceEach_perm apart same, replaceEach_eq_filled apart]

/-- Marks that run into each other, a month in front of a day, and a year behind half of one. -/
theorem dateFormat_filled_runs :
    let value : Value := .text "2024-03-05"
    let step := Step.parse "dateFormat:'MMM DMMDD YYMMYYYYY'"
    (registry defaultDateTemplate).apply step value [] = (.text "03M DMM05 YYMM2024Y", []) := by
  intro value step
  let date : Calendar.Date := ⟨2024, 3, 5, by decide⟩
  have denotes : value.moment? = some (.startOf date) := by decide +kernel
  have named : step.name = "dateFormat" := by decide +kernel
  have args : step.args = ["MMM DMMDD YYMMYYYYY"] := by decide +kernel
  have choice : Chooses defaultDateTemplate (step.args.map .text ++ []) "MMM DMMDD YYMMYYYYY" := by
    rw [args]
    exact .given rfl rfl
  have made : String.ofList (filled (dateMarks date) "MMM DMMDD YYMMYYYYY".toList) =
      "03M DMM05 YYMM2024Y" := by decide +kernel
  rw [(dateFormat_filled denotes named choice).1]
  exact congrArg (fun text => (Value.text text, [])) made

end Stencil.Builtin
