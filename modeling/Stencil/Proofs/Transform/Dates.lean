import Stencil.Proofs.Calendar.Iso
import Stencil.Proofs.Transform.Fresh
import Stencil.Proofs.Value.Dates

/-!
# Transformations of spelled dates

The text of a date or a moment denotes that date (`momentOfText?_isoText`), so a date format makes
the same text of both (`Builtin.dateFormat_of_date`). The other built-in transformations but
`length` see a value through its display text, its number or its JSON text, or hand it on: they make
the spelled value of a spelled value (`Builtin.applyAll_spellDates`).
-/

namespace Stencil

open Outcome Calendar

/-- A text in the international form without blanks denotes what is read of it. -/
theorem momentOfText?_of_iso {text : List Char} {moment : Moment}
    (solid : text.all (!Text.isBlank ·) = true) (read : Iso.moment? text = some moment) :
    momentOfText? (String.ofList text) = some moment := by
  have trimmed : Text.trim text = text := Text.trim_of_forall_mem fun c member => by
    have none := List.all_eq_true.mp solid c member
    rwa [Bool.not_eq_true'] at none
  rw [momentOfText?, String.toList_ofList, trimmed, read, Option.some_or]

/-- A digit is not blank. -/
theorem isBlank_of_isDigit (c : Char) (digit : c.isDigit = true) : (!Text.isBlank c) = true := by
  rw [Text.isBlank_of_isDecimal (Text.isDecimal_of_isDigit digit)]
  rfl

/-- The text of a date denotes its beginning. -/
theorem momentOfText?_dateText (date : Date) :
    momentOfText? (String.ofList date.isoText) = some (.startOf date) :=
  momentOfText?_of_iso (date.all_isoText isBlank_of_isDigit rfl) date.moment?_isoText

/-- The text of a moment denotes what is read of the moment. -/
theorem momentOfText?_isoText (moment : Moment) :
    momentOfText? (String.ofList moment.isoText) = some moment.reread :=
  momentOfText?_of_iso (moment.all_isoText isBlank_of_isDigit (by decide)) moment.moment?_isoText

/-- A value denotes the same date when its dates are spelled. -/
theorem Value.date_spellDates (value : Value) :
    value.spellDates.moment?.map (·.date) = value.moment?.map (·.date) := by
  cases value with
  | date d =>
    change (momentOfText? (String.ofList d.isoText)).map (·.date) = some d
    rw [momentOfText?_dateText]
    rfl
  | moment m =>
    change (momentOfText? (String.ofList m.isoText)).map (·.date) = some m.date
    rw [momentOfText?_isoText]
    rfl
  | _ => rfl

/-- An operation makes the spelled value of a spelled value. -/
def SpellsAlike (run : Value → Outcome Value) : Prop :=
  ∀ value, run value.spellDates = (run value).map Value.spellDates

namespace Builtin

variable {run : Value → Outcome Value} {label dateTemplate : String} {value : Value}

/-- A fresh value has no dates to spell. -/
theorem Fresh.spellDates {image : Value} (fresh : Fresh image) : image.spellDates = image := by
  cases fresh <;> rfl

/-- An operation that makes its values anew and does not tell spelled values from others. -/
theorem spellsAlike_of_makesFresh (makes : MakesFresh run)
    (same : ∀ value : Value, run value.spellDates = run value) : SpellsAlike run := by
  intro value
  rw [same]
  cases taken : run value with
  | error fault => rfl
  | ok image => exact congrArg Except.ok (makes value image taken).spellDates.symm

/-- A change of the text sees a value through its text. -/
theorem spellsAlike_onText (change : List Char → List Char) : SpellsAlike (onText change) :=
  spellsAlike_of_makesFresh (makesFresh_onText change) fun value => by
    rw [onText, onText, value.display_spellDates]

/-- The base64 encoding sees a value through its text. -/
theorem spellsAlike_base64 : SpellsAlike base64 :=
  spellsAlike_onText fun text => Text.base64Encode (Text.utf8Bytes text)

/-- Truncating sees a value through its text. -/
theorem spellsAlike_truncate (length : Value) : SpellsAlike (truncate · length) :=
  spellsAlike_of_makesFresh (makesFresh_truncate length) fun value => by
    rw [truncate, truncate, value.display_spellDates]

/-- Rounding sees a value through its number. -/
theorem spellsAlike_round (decimals : Value) : SpellsAlike (round · decimals) :=
  spellsAlike_of_makesFresh (makesFresh_round decimals) fun value => by
    rw [round, round, value.toNumber_spellDates]

/-- The size of a number sees a value through its number. -/
theorem spellsAlike_abs : SpellsAlike abs :=
  spellsAlike_of_makesFresh (makesFresh_map fun _ => .float _) fun value => by
    rw [abs, abs, value.toNumber_spellDates]

/-- The number of a value is that of the spelled value. -/
theorem spellsAlike_number :
    SpellsAlike fun value => do return .float (← value.toNumber) :=
  spellsAlike_of_makesFresh (makesFresh_map fun _ => .float _) fun value => by
    rw [value.toNumber_spellDates]

/-- Joining sees the items of a list through their texts. -/
theorem spellsAlike_join (separator : Value) : SpellsAlike (join · separator) :=
  spellsAlike_of_makesFresh (makesFresh_join separator) fun value => by
    cases value with
    | list items | tuple items =>
      rw [Value.spellDates, join, join, Value.displayItems_spellItems]
    | _ => rfl

/-- The first item of a spelled list is the first item, spelled. -/
theorem spellsAlike_first : SpellsAlike fun value => .ok (first value) := by
  intro value
  cases value with
  | list items | tuple items => cases items <;> rfl
  | _ => rfl

/-- The last item of a spelled list is the last item, spelled. -/
theorem spellsAlike_last : SpellsAlike fun value => .ok (last value) := by
  intro value
  have picked (items : List Value) : (Value.spellItems items).getLast?.getD .undefined =
      (items.getLast?.getD .undefined).spellDates := by
    rw [Value.spellItems_eq_map, List.getLast?_map]
    cases items.getLast? <;> rfl
  cases value with
  | list items | tuple items => exact congrArg Except.ok (picked items)
  | _ => rfl

/-- The text that a date format makes of a date. -/
def dateText (dateTemplate : String) (template : Value) (date : Date) : Outcome Value := do
  let chosen ← (if template.isNull then pure dateTemplate else template.display : Outcome String)
  return .text (String.ofList (fillDate chosen.toList date))

/-- Formatting looks at nothing but the date a value denotes. -/
theorem dateFormat_eq (template : Value) :
    dateFormat dateTemplate value template =
      match value.moment?.map (·.date) with
      | none => .ok value
      | some date => dateText dateTemplate template date := by
  rw [dateFormat]
  cases value.moment? with
  | none => rfl
  | some moment =>
    simp only [Option.map_some, dateText]
    split <;> rfl

/-- Of a value that denotes a date, a date format sees the date and nothing else. -/
theorem dateFormat_of_date {date : Date} (denotes : value.moment?.map (·.date) = some date)
    (template : Value) :
    dateFormat dateTemplate value template = dateText dateTemplate template date := by
  rw [dateFormat_eq, denotes]

/-- Formatting sees a value through the date it denotes. -/
theorem spellsAlike_dateFormat (template : Value) :
    SpellsAlike (dateFormat dateTemplate · template) := by
  intro value
  dsimp only
  rw [dateFormat_eq, dateFormat_eq, value.date_spellDates]
  cases value.moment?.map (·.date) with
  | none => rfl
  | some date =>
    dsimp only [dateText]
    cases (if template.isNull then pure dateTemplate else template.display : Outcome String) <;> rfl

/-- A value that is there is written as JSON, or else shown. -/
theorem json_of_isUndefined_eq_false (present : value.isUndefined = false) :
    json value = match value.jsonText with
      | .ok spelled => .ok (.text spelled)
      | .error _ => do return .text (← value.display) := by
  refine json.eq_2 value fun undefined => ?_
  rw [undefined] at present
  cases present

/-- Writing as JSON sees a value through its JSON text. -/
theorem spellsAlike_json : SpellsAlike json := by
  intro value
  cases present : value.isUndefined with
  | true =>
    cases value with
    | undefined => rfl
    | _ => cases present
  | false =>
    rw [json_of_isUndefined_eq_false present,
      json_of_isUndefined_eq_false (value.isUndefined_spellDates.trans present),
      value.jsonText_spellDates, value.display_spellDates]
    cases value.jsonText with
    | ok spelled => rfl
    | error fault => cases value.display <;> rfl

/-- A text that is not empty needs no default. -/
theorem default_text {s : String} (filled : s ≠ "") (fallback : Value) :
    default (.text s) fallback = .text s :=
  default.eq_4 _ _ nofun nofun fun same => filled (Value.text.inj same)

/-- No date and no moment counts as absent, and neither does its text. -/
theorem spellsAlike_default (fallback : String) :
    SpellsAlike fun value => .ok (default value (.text fallback)) := by
  intro value
  cases value with
  | date d =>
    have filled : d.isoText ≠ [] := List.append_ne_nil_of_right_ne_nil _ (List.cons_ne_nil _ _)
    exact congrArg Except.ok (default_text (String.ofList_eq_empty_iff.not.mpr filled) _)
  | moment m =>
    have filled : m.isoText ≠ [] := List.append_ne_nil_of_left_ne_nil
      (List.append_ne_nil_of_right_ne_nil _ (List.cons_ne_nil _ _)) _
    exact congrArg Except.ok (default_text (String.ofList_eq_empty_iff.not.mpr filled) _)
  | text s =>
    by_cases empty : s = ""
    · rw [empty]
      rfl
    · simp only [Value.spellDates, default_text empty]
      rfl
  | _ => rfl

end Builtin

/-! ### Steps and pipelines -/

/-- A transformation makes the spelled value of a spelled value, given the texts that a step hands
it. -/
def Transformation.SpellsAlike (transformation : Transformation) : Prop :=
  ∀ args : List String, Stencil.SpellsAlike (transformation.run · (args.map .text))

namespace Builtin

variable {transformation : Transformation}

/-- A transformation without arguments spells alike if what it runs does. -/
theorem spellsAlike_plain (runs : transformation.run = plain label run)
    (alike : SpellsAlike run) : transformation.SpellsAlike := by
  intro args value
  rw [runs]
  unfold plain
  split
  · exact alike value
  · rfl

/-- A transformation with one argument spells alike if what it runs does for every text, and for the
default. -/
theorem spellsAlike_withDefault {fallback : Value} (run : Value → Value → Outcome Value)
    (runs : transformation.run = withDefault label fallback run)
    (without : SpellsAlike (run · fallback))
    (alike : ∀ arg : String, SpellsAlike (run · (.text arg))) : transformation.SpellsAlike := by
  intro args value
  rw [runs]
  match args with
  | [] => exact without value
  | [arg] => exact alike arg value
  | _ :: _ :: _ => rfl

/-- All built-in transformations but `length` make spelled values of spelled values. -/
theorem spellsAlike_of_mem (known : transformation ∈ all dateTemplate)
    (other : transformation.id ≠ "length") : transformation.SpellsAlike := by
  revert transformation
  simp only [all, List.forall_mem_cons]
  refine ⟨fun _ => spellsAlike_plain rfl (spellsAlike_onText Text.upper),
    fun _ => spellsAlike_plain rfl (spellsAlike_onText Text.lower),
    fun _ => spellsAlike_plain rfl (spellsAlike_onText capitalize),
    fun _ => spellsAlike_plain rfl (spellsAlike_onText Text.trim),
    fun _ => spellsAlike_withDefault truncate rfl (spellsAlike_truncate _) fun _ =>
      spellsAlike_truncate _,
    fun _ => spellsAlike_withDefault round rfl (spellsAlike_round _) fun _ => spellsAlike_round _,
    fun _ => spellsAlike_plain rfl spellsAlike_abs,
    fun _ => spellsAlike_withDefault join rfl (spellsAlike_join _) fun _ => spellsAlike_join _,
    fun _ => spellsAlike_plain rfl spellsAlike_first,
    fun _ => spellsAlike_plain rfl spellsAlike_last,
    fun length => absurd rfl length,
    fun _ => spellsAlike_withDefault (dateFormat dateTemplate) rfl (spellsAlike_dateFormat _)
      fun _ => spellsAlike_dateFormat _,
    fun _ => spellsAlike_plain rfl spellsAlike_json,
    fun _ => spellsAlike_plain rfl spellsAlike_number,
    fun _ => spellsAlike_plain rfl (spellsAlike_onText id),
    fun _ => spellsAlike_withDefault (fun value fallback => .ok (default value fallback)) rfl
      (spellsAlike_default "") spellsAlike_default,
    fun _ => spellsAlike_plain rfl (spellsAlike_onText Text.percentEncode),
    fun _ => spellsAlike_plain rfl spellsAlike_base64, ?_⟩
  exact fun listed member => (List.not_mem_nil member).elim

/-- Every transformation of the registry but the length spells alike. -/
theorem spellsAlike_of_get? {name : String} (other : name ≠ "length")
    (found : (registry dateTemplate).get? name = some transformation) :
    transformation.SpellsAlike := by
  obtain ⟨known, named⟩ := mem_of_get? found
  exact spellsAlike_of_mem known fun same => other (named.symm.trans same)

/-- Every step but the length makes of a spelled value the spelled image. -/
theorem apply_spellDates {step : Step} (other : step.name ≠ "length") (value : Value) :
    (registry dateTemplate).apply step value.spellDates [] =
      ((registry dateTemplate).apply step value []).map Value.spellDates id := by
  unfold Registry.apply
  cases found : (registry dateTemplate).get? step.name with
  | none => rfl
  | some transformation =>
    dsimp only
    rw [List.append_nil]
    have alike := spellsAlike_of_get? other found step.args value
    dsimp only at alike
    rw [alike]
    cases transformation.run value (step.args.map .text) <;> rfl

/-- A pipeline that takes no length makes the spelled value of a spelled value and reports what it
reported. -/
theorem applyAll_spellDates {steps : List Step} (others : ∀ step ∈ steps, step.name ≠ "length")
    (value : Value) :
    (registry dateTemplate).applyAll value.spellDates steps =
      ((registry dateTemplate).applyAll value steps).map Value.spellDates id := by
  induction steps generalizing value with
  | nil => rfl
  | cons step rest ih =>
    rw [List.forall_mem_cons] at others
    rw [Registry.applyAll, Registry.applyAll, apply_spellDates others.1]
    simp only [Prod.map_fst, Prod.map_snd, ih others.2]
    rfl

end Builtin
end Stencil
