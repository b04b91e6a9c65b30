import Stencil.Proofs.Resolve.Growth
import Stencil.Proofs.Transform.DateTemplate
import Stencil.Proofs.Transform.Lossless
import Stencil.Workflow.Snapshot

/-!
# Templates and spelled dates

Whether the dates of a snapshot are dates or texts makes no difference to a template that takes no
length: under the built-in transformations its references are resolved to the same texts
(`resolveText_spellDates`). The main statement is `Builtin.dates_format_alike`.
-/

namespace Stencil

open Calendar

/-! ### Contexts -/

/-- A context with texts in place of dates and moments. -/
def Context.spellDates (context : Context) : Context where
  globals := context.globals.mapValues Value.spellDates
  vars := context.vars.mapValues Value.spellDates
  stepOutputs := context.stepOutputs.mapValues Value.spellDates

/-- Spelling the dates of a context spells those of its merged layers. -/
theorem Context.merged_spellDates (context : Context) :
    context.spellDates.merged = context.merged.mapValues Value.spellDates := by
  rw [merged, spellDates, Fields.overlay_mapValues, Fields.overlay_mapValues, merged]

/-- A snapshot with texts in place of dates and moments. -/
def Snapshot.spellDates (snapshot : Snapshot) : Snapshot where
  vars := snapshot.vars.mapValues Value.spellDates
  steps := snapshot.steps.map fun record => { record with output := record.output.spellDates }
  globals := snapshot.globals.mapValues Value.spellDates

/-- Spelling the dates of a snapshot spells those of its outputs. -/
theorem Snapshot.outputs_spellDates (snapshot : Snapshot) :
    snapshot.spellDates.outputs = snapshot.outputs.mapValues Value.spellDates := by
  have kept : snapshot.spellDates.steps.filter (!·.output.isNull) =
      (snapshot.steps.filter (!·.output.isNull)).map fun record =>
        { record with output := record.output.spellDates } := by
    rw [spellDates, List.filter_map]
    congr 2
    funext record
    rw [Function.comp_apply, Value.isNull_spellDates]
  rw [outputs, kept, outputs, ← Fields.ofEntries_mapValues, Fields.mapValues, List.map_map,
    List.map_map]
  rfl

/-- The context of a snapshot with spelled dates is that of the snapshot, spelled. -/
theorem Snapshot.context_spellDates (snapshot : Snapshot) :
    snapshot.spellDates.context = snapshot.context.spellDates := by
  rw [context, outputs_spellDates]
  rfl

/-! ### References and texts -/

/-- A path leads among spelled values to the spelled value. -/
theorem lookup_spellDates (path : Path) (values : Fields Value) :
    lookup path (values.mapValues Value.spellDates) =
      (lookup path values).map Value.spellDates := by
  have spelled : Value.ofFields (values.mapValues Value.spellDates) =
      (Value.ofFields values).spellDates := by
    rw [Value.ofFields, Value.ofFields, Value.spellDates, Value.spellEntries_eq_map,
      Value.fieldEntries, Value.fieldEntries, Fields.mapValues, List.map_map, List.map_map]
    rfl
  unfold lookup
  split
  · rfl
  · rw [spelled, Value.follow_spellDates]

/-- A resolution with texts in place of dates and moments. -/
def Resolution.spellDates (resolution : Resolution) : Resolution :=
  { resolution with value := resolution.value.spellDates }

section Text

variable {dateTemplate : String} {values : Fields Value}

/-- A reference without a length step is resolved among spelled values to the spelled value. -/
theorem Reference.resolve_spellDates {reference : Reference}
    (others : ∀ step ∈ reference.steps, step.name ≠ "length") :
    reference.resolve (Builtin.registry dateTemplate) (values.mapValues Value.spellDates) =
      (reference.resolve (Builtin.registry dateTemplate) values).map Resolution.spellDates := by
  have leads : reference.pathValue (values.mapValues Value.spellDates) =
      (reference.pathValue values).map Value.spellDates := by
    unfold pathValue
    split
    · rfl
    · exact lookup_spellDates reference.segments values
  unfold resolve
  rw [leads]
  cases reference.pathValue values with
  | error fault => rfl
  | ok found =>
    have reported : reference.pathDiagnostics found.spellDates =
        reference.pathDiagnostics found := by
      rw [pathDiagnostics, pathDiagnostics, found.isUndefined_spellDates]
    simp only [Except.map, Outcome.ok_bind, Builtin.applyAll_spellDates others,
      found.isUndefined_spellDates, reported]
    rfl

/-- The filling of a hole is shown and reported as before. -/
theorem Filling.ofHole_spellDates {position : Nat} {body : List Char}
    (others : ∀ step ∈ Reference.stepsIn body, step.name ≠ "length") :
    ofHole (Builtin.registry dateTemplate) (values.mapValues Value.spellDates) position body =
      (ofHole (Builtin.registry dateTemplate) values position body).map fun filling =>
        { filling with resolution := filling.resolution.spellDates } := by
  rw [ofHole, ofHole]
  cases read : Reference.ofHole position body with
  | error fault => rfl
  | ok reference =>
    rw [Reference.stepsIn_eq read] at others
    rw [Outcome.ok_bind, Outcome.ok_bind, ofReference, ofReference,
      Reference.resolve_spellDates others]
    cases reference.resolve (Builtin.registry dateTemplate) values with
    | error fault => rfl
    | ok resolution =>
      have shown : resolution.spellDates.value.shown? = resolution.value.shown? :=
        resolution.value.shown?_spellDates
      simp only [Except.map, Outcome.ok_bind, shown]
      cases resolution.value.shown? <;> rfl

/-- A hole without a length step is filled with the same text among spelled values. -/
theorem Memo.substitute_spellDates {policy : Policy} {memo : Memo} {position : Nat}
    {body : List Char} (others : ∀ step ∈ Reference.stepsIn body, step.name ≠ "length") :
    memo.substitute (Builtin.registry dateTemplate) policy (values.mapValues Value.spellDates)
        position body =
      memo.substitute (Builtin.registry dateTemplate) policy values position body := by
  unfold substitute
  split
  · rfl
  · rw [Filling.ofHole_spellDates others]
    cases Filling.ofHole (Builtin.registry dateTemplate) values position body with
    | error fault => rfl
    | ok filling =>
      simp only [Except.map, Outcome.ok_bind, record, Resolution.spellDates,
        Value.isUndefined_spellDates]
      rfl

/-- A text that takes no length is resolved alike whether dates are dates or texts. -/
theorem resolveText_spellDates {text : String} (others : "length" ∉ stepNames text)
    (policy : Policy) :
    resolveText (Builtin.registry dateTemplate) policy (values.mapValues Value.spellDates) text =
      resolveText (Builtin.registry dateTemplate) policy values text := by
  refine resolveText_congr_of_substitute fun body hole memo position => ?_
  refine Memo.substitute_spellDates fun step member named => ?_
  exact others (named ▸ name_mem_stepNames hole member)

end Text

namespace Builtin

/-- A value that is a date or a moment, with its date and its text. -/
inductive Dated : Value → Date → String → Prop
  | date (d : Date) : Dated (.date d) d (String.ofList d.isoText)
  | moment (m : Moment) : Dated (.moment m) m.date (String.ofList m.isoText)

/-- A value formats like its text. The text is how the value is displayed and what the string step
makes of it. A date format makes the same text of both, under every template that a step may have,
and takes every other value as a template alike. -/
structure FormatsAs (dateTemplate : String) (value : Value) (date : Date) (text : String) :
    Prop where
  display : value.display = .ok text
  string : ∀ step : Step, step.name = "string" → step.args = [] →
    (registry dateTemplate).apply step value [] = (.text text, [])
  format : ∀ step : Step, step.name = "dateFormat" → step.args.length ≤ 1 →
    let filled := fillDate (step.args.headD dateTemplate).toList date
    (registry dateTemplate).apply step value [] = (.text (String.ofList filled), []) ∧
      (registry dateTemplate).apply step (.text text) [] = (.text (String.ofList filled), [])
  template : ∀ template : Value,
    dateFormat dateTemplate (.text text) template = dateFormat dateTemplate value template

variable {dateTemplate : String} {value : Value} {date : Date} {text : String}

/-- A dated value is spelled as its text. -/
theorem Dated.spellDates (dated : Dated value date text) : value.spellDates = .text text := by
  cases dated <;> rfl

/-- A dated value denotes its date. -/
theorem Dated.denotes (dated : Dated value date text) :
    value.moment?.map (·.date) = some date := by
  cases dated <;> rfl

/-- A dated value is shown as its text. -/
theorem Dated.display (dated : Dated value date text) : value.display = .ok text := by
  cases dated <;> rfl

/-- A date format step fills in the date that a value denotes. -/
theorem apply_dateFormat {step : Step} (denotes : value.moment?.map (·.date) = some date)
    (named : step.name = "dateFormat") (few : step.args.length ≤ 1) :
    (registry dateTemplate).apply step value [] =
      (.text (String.ofList (fillDate (step.args.headD dateTemplate).toList date)), []) := by
  refine apply_of_chooses denotes named ?_
  rw [List.append_nil]
  match step.args, few with
  | [], _ => exact .configured
  | [_], _ => exact .given rfl rfl

/-- A dated value is formatted as its date is. -/
theorem Dated.formatsAs (dated : Dated value date text) :
    FormatsAs dateTemplate value date text := by
  have denotes : (Value.text text).moment?.map (·.date) = some date := by
    rw [← dated.spellDates, Value.date_spellDates, dated.denotes]
  refine ⟨dated.display, ?_, ?_, ?_⟩
  · intro step named bare
    have taken : (registry dateTemplate).apply step value [] =
        (.text (String.ofList (id text.toList)), []) :=
      apply_of_onText rfl named rfl bare dated.display
    rwa [id_eq, String.ofList_toList] at taken
  · intro step named few
    exact ⟨apply_dateFormat dated.denotes named few, apply_dateFormat denotes named few⟩
  · intro template
    rw [dateFormat_of_date denotes, dateFormat_of_date dated.denotes]

end Builtin

namespace Resolver

variable {dateTemplate : String} {policy : Policy} {template : Value}

/-- A template without length steps is resolved alike where the dates are spelled. -/
theorem resolve_spellDates (others : "length" ∉ template.stepNames) (context : Context)
    (asked : Option String) :
    (builtin policy dateTemplate).resolve template (.live context.spellDates) asked =
      (builtin policy dateTemplate).resolve template (.live context) asked := by
  cases template with
  | text s =>
    have own : "length" ∉ stepNames s := fun taken =>
      others (List.mem_flatMap.mpr ⟨s, List.mem_singleton_self s, taken⟩)
    simp only [resolve, Context.Source.load, Outcome.ok_bind, context.merged_spellDates, builtin,
      resolveText_spellDates own]
  | _ => rfl

/-- A nested template without length steps is resolved alike where the dates are spelled. -/
theorem resolveDeep_spellDates (others : "length" ∉ template.stepNames) (context : Context)
    (asked : Option String) :
    (builtin policy dateTemplate).resolveDeep template (.live context.spellDates) asked =
      (builtin policy dateTemplate).resolveDeep template (.live context) asked := by
  have same (chosen : Policy) :
      (builtin policy dateTemplate).resolveWithin chosen context.spellDates.merged template =
        (builtin policy dateTemplate).resolveWithin chosen context.merged template := by
    refine resolveWithin_congr template fun text inside => ?_
    rw [context.merged_spellDates]
    exact resolveText_spellDates
      (fun taken => others (List.mem_flatMap.mpr ⟨text, inside, taken⟩)) chosen
  simp only [resolveDeep, Context.Source.load, Outcome.ok_bind, same]

end Resolver

/-- **A date formats like its text.** So a snapshot with dates and the one with their texts resolve
every template alike that takes no length, which a text has and a date has not. -/
theorem Builtin.dates_format_alike (dateTemplate : String) :
    (∀ value date text, Dated value date text → FormatsAs dateTemplate value date text) ∧
      ∀ (policy : Policy) (template : Value), "length" ∉ template.stepNames →
        ∀ (snapshot : Snapshot) (asked : Option String),
          let resolver := Resolver.builtin policy dateTemplate
          resolver.resolve template (.live snapshot.spellDates.context) asked =
              resolver.resolve template (.live snapshot.context) asked ∧
            resolver.resolveDeep template (.live snapshot.spellDates.context) asked =
              resolver.resolveDeep template (.live snapshot.context) asked := by
  refine ⟨fun value date text => Dated.formatsAs, ?_⟩
  intro policy template others snapshot asked
  rw [snapshot.context_spellDates]
  exact ⟨Resolver.resolve_spellDates others _ asked, Resolver.resolveDeep_spellDates others _ asked⟩

/-- A moment with microseconds on the last day of a February and with an offset that has seconds,
and a template that formats it and an item of a list. -/
theorem Builtin.dates_format_alike_leapDay :
    let moment : Moment :=
      ⟨⟨2024, 2, 29, by decide⟩, ⟨23, 59, 58, 123, by decide⟩, some ⟨-19815250000, by decide⟩⟩
    let text := "2024-02-29T23:59:58.000123-05:30:15.250000"
    let snapshot : Snapshot := ⟨[("d", .moment moment)], [⟨"s", .list [.date moment.date]⟩], []⟩
    let template : Value := .text "\x7b\x7bd|dateFormat:DD.MM.\x7d\x7d \x7b\x7bs[0]\x7d\x7d"
    let resolver := Resolver.builtin .literal "YYYY"
    Dated (.moment moment) moment.date text ∧
      FormatsAs "YYYY" (.moment moment) moment.date text ∧ "length" ∉ template.stepNames ∧
      resolver.resolve template (.live snapshot.spellDates.context) none =
        resolver.resolve template (.live snapshot.context) none := by
  intro moment text snapshot template resolver
  have spelled : String.ofList moment.isoText = text := by decide +kernel
  have dated : Dated (.moment moment) moment.date text := spelled ▸ .moment moment
  have others : "length" ∉ template.stepNames := by decide
  obtain ⟨formats, resolves⟩ := dates_format_alike "YYYY"
  exact ⟨dated, formats _ _ _ dated, others, (resolves .literal template others snapshot none).1⟩

end Stencil
