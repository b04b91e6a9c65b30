import Stencil.Proofs.Resolve.Template

/-!
# Pipelines step by step

The pipeline of a reference takes the value of its path through its steps from the left
(`Registry.Runs`). A step that names no transformation, or whose transformation fails, is passed
over: it is reported once and the value goes on as it was, so the pipeline without it ends with the
same value. The main statement is `resolveReference_runs`.
-/

namespace Stencil

open Outcome

namespace Registry

/-- What a step makes of a value and reports. A step that names no transformation and one whose
transformation fails leave the value as it is and are reported, each in its own words. -/
inductive Takes (registry : Registry) (step : Step) (value : Value) :
    Value → List Diagnostic → Prop
  | works {transformation : Transformation} {image : Value}
    (known : registry.get? step.name = some transformation)
    (runs : transformation.run value (step.args.map .text) = .ok image) :
    Takes registry step value image []
  | unknown (missing : registry.get? step.name = none) :
    Takes registry step value value [.unknownTransformation none step.name]
  | fails {transformation : Transformation} {fault : Fault}
    (known : registry.get? step.name = some transformation)
    (runs : transformation.run value (step.args.map .text) = .error fault) :
    Takes registry step value value [.transformationFailed step.name fault.message]

/-- What the steps of a pipeline make of a value, each of what the step before it made, and what
they report in this order. -/
inductive Runs (registry : Registry) : Value → List Step → Value → List Diagnostic → Prop
  | nil (value : Value) : Runs registry value [] value []
  | cons {step : Step} {rest : List Step} {value image final : Value}
    {reported later : List Diagnostic} (first : registry.Takes step value image reported)
    (others : Runs registry image rest final later) :
    Runs registry value (step :: rest) final (reported ++ later)

/-- A step is passed over at a value: it names no transformation, or the one that it names fails. -/
def PassesOver (registry : Registry) (step : Step) (value : Value) : Prop :=
  ∀ transformation, registry.get? step.name = some transformation →
    ¬ Succeeds (transformation.run value (step.args.map .text))

variable {registry : Registry} {step : Step} {value image final : Value} {before after : List Step}
  {reported : List Diagnostic}

/-- A step is taken in one way only. -/
theorem takes_iff :
    registry.Takes step value image reported ↔
      registry.apply step value [] = (image, reported) := by
  unfold apply
  rw [List.append_nil]
  constructor
  · intro takes
    cases takes with
    | works known runs => simp only [known, runs]
    | unknown missing => simp only [missing]
    | fails known runs => simp only [known, runs]
  · intro ends
    cases known : registry.get? step.name with
    | none =>
      simp only [known] at ends
      cases ends
      exact .unknown known
    | some transformation =>
      simp only [known] at ends
      cases runs : transformation.run value (step.args.map .text) with
      | ok image =>
        simp only [runs] at ends
        cases ends
        exact .works known runs
      | error fault =>
        simp only [runs] at ends
        cases ends
        exact .fails known runs

/-- A pipeline runs in one way only. -/
theorem runs_iff {steps : List Step} :
    registry.Runs value steps final reported ↔
      registry.applyAll value steps = (final, reported) := by
  constructor
  · intro runs
    induction runs with
    | nil value => rfl
    | cons first others ih =>
      rw [applyAll, takes_iff.mp first]
      dsimp only
      rw [ih]
  · intro ends
    induction steps generalizing value reported with
    | nil =>
      cases ends
      exact .nil _
    | cons step rest ih =>
      cases ends
      exact .cons (takes_iff.mpr rfl) (ih rfl)

/-- A step that is passed over keeps the value and reports once. -/
theorem apply_of_passesOver (passed : registry.PassesOver step value) :
    ∃ report, registry.apply step value [] = (value, [report]) := by
  obtain ⟨image, reported, takes⟩ : ∃ image reported, registry.Takes step value image reported :=
    ⟨_, _, takes_iff.mpr rfl⟩
  cases takes with
  | works known runs => exact absurd ⟨_, runs⟩ (passed _ known)
  | unknown missing => exact ⟨_, takes_iff.mp (.unknown missing)⟩
  | fails known runs => exact ⟨_, takes_iff.mp (.fails known runs)⟩

/-- A pipeline without a step that is passed over at its place ends with the same value, and lacks
one report. -/
theorem applyAll_of_passesOver {early : List Diagnostic}
    (runs : registry.Runs value before image early) (passed : registry.PassesOver step image)
    (after : List Step) :
    ∃ final report late,
      registry.applyAll value (before ++ step :: after) = (final, early ++ report :: late) ∧
        registry.applyAll value (before ++ after) = (final, early ++ late) := by
  obtain ⟨report, goesOn⟩ := apply_of_passesOver passed
  have made := runs_iff.mp runs
  refine ⟨(registry.applyAll image after).1, report, (registry.applyAll image after).2, ?_, ?_⟩
  · simp only [applyAll_append, made, applyAll, goesOn, List.singleton_append]
  · simp only [applyAll_append, made]

end Registry

namespace Resolver

variable {resolver : Resolver} {reference : Reference} {source : Context.Source}
  {context : Context} {found : Value}

/-- A reference whose path is looked up is resolved, whatever its steps are. -/
theorem resolveReference_withSteps (loads : source.load = .ok context)
    (leads : reference.pathValue context.merged = .ok found) (steps : List Step) :
    resolver.resolveReference { reference with steps } source = .ok {
      value := (resolver.registry.applyAll found steps).1
      resolved := !found.isUndefined
      diagnostics := reference.pathDiagnostics found ++
        (resolver.registry.applyAll found steps).2
      unresolvedPaths := if found.isUndefined then [reference.path] else [] } := by
  have samePath : Reference.pathValue context.merged { reference with steps } = .ok found := leads
  rw [resolveReference_eq loads, Reference.resolve, samePath]
  rfl

/-- **A pipeline runs from the left, and the steps that fail vanish.** Where the path of a reference
is looked up, the reference is resolved to what its steps make of the value, one after the other;
what is reported is what concerns the path, and then one thing for each step that is passed over.
Without such a step the reference is resolved to the same value. And after any number of steps, the
others can be applied to the value that these have made. -/
theorem resolveReference_runs (loads : source.load = .ok context)
    (leads : reference.pathValue context.merged = .ok found) :
    ∃ resolution reported, resolver.resolveReference reference source = .ok resolution ∧
      resolution.diagnostics = reference.pathDiagnostics found ++ reported ∧
      (∀ final told, resolver.registry.Runs found reference.steps final told ↔
        final = resolution.value ∧ told = reported) ∧
      (∀ before step after value early, reference.steps = before ++ step :: after →
        resolver.registry.Runs found before value early →
        resolver.registry.PassesOver step value →
        ∃ shorter report late,
          resolver.resolveReference { reference with steps := before ++ after } source =
            .ok shorter ∧
          shorter.value = resolution.value ∧
          shorter.diagnostics = reference.pathDiagnostics found ++ (early ++ late) ∧
          reported = early ++ report :: late) ∧
      ∀ before after, reference.steps = before ++ after →
        ∃ part,
          resolver.resolveReference { reference with steps := before } source = .ok part ∧
          (resolver.registry.applyAll part.value after).1 = resolution.value ∧
          part.diagnostics ++ (resolver.registry.applyAll part.value after).2 =
            resolution.diagnostics := by
  -- What the path leads to does not depend on the steps, so one fact serves all three parts.
  have resolves := @resolveReference_withSteps resolver reference source context found loads leads
  refine ⟨_, (resolver.registry.applyAll found reference.steps).2, resolves reference.steps, rfl,
    ?runs, ?skips, ?splits⟩
  case runs =>
    intro final told
    rw [Registry.runs_iff, Prod.ext_iff, eq_comm, eq_comm (a := told)]
  case skips =>
    intro before step after value early parts runs passed
    obtain ⟨final, report, late, whole, without⟩ :=
      Registry.applyAll_of_passesOver runs passed after
    refine ⟨_, report, late, resolves (before ++ after), ?_, ?_, ?_⟩
    · simp only [parts, whole, without]
    · simp only [without]
    · simp only [parts, whole]
  case splits =>
    intro before after parts
    refine ⟨_, resolves before, ?_, ?_⟩
    · simp only [parts, Registry.applyAll_append]
    · simp only [parts, Registry.applyAll_append, List.append_assoc]

/-- A step without a transformation and one that fails, between two that work. -/
theorem resolveReference_runs_nope :
    ∃ resolution shorter,
      default.resolveReference
          ⟨"{{a|trim|nope|trim:x|uppercase}}", "a", ["a"], [⟨"a", []⟩],
            [⟨"trim", [], "trim"⟩, ⟨"nope", [], "nope"⟩, ⟨"trim", ["x"], "trim:x"⟩,
              ⟨"uppercase", [], "uppercase"⟩], 0, 32⟩
          (.live ⟨[], [("a", .text " x ")], []⟩) = .ok resolution ∧
      resolution.value = .text "X" ∧
      resolution.diagnostics = [.unknownTransformation none "nope",
        .transformationFailed "trim" "_trim() takes 1 positional argument but 2 were given"] ∧
      default.resolveReference
          ⟨"{{a|trim|nope|trim:x|uppercase}}", "a", ["a"], [⟨"a", []⟩],
            [⟨"trim", [], "trim"⟩, ⟨"nope", [], "nope"⟩, ⟨"uppercase", [], "uppercase"⟩], 0, 32⟩
          (.live ⟨[], [("a", .text " x ")], []⟩) = .ok shorter ∧
      shorter.value = .text "X" := by
  obtain ⟨resolution, reported, resolves, diagnostics, runs, skips, -⟩ :=
    @resolveReference_runs default
      ⟨"{{a|trim|nope|trim:x|uppercase}}", "a", ["a"], [⟨"a", []⟩],
        [⟨"trim", [], "trim"⟩, ⟨"nope", [], "nope"⟩, ⟨"trim", ["x"], "trim:x"⟩,
          ⟨"uppercase", [], "uppercase"⟩], 0, 32⟩
      (.live ⟨[], [("a", .text " x ")], []⟩) _ _ rfl rfl
  obtain ⟨value, rfl⟩ := (runs _ _).mp (Registry.runs_iff.mpr rfl)
  obtain ⟨shorter, -, -, alone, same, -, -⟩ :=
    skips [⟨"trim", [], "trim"⟩, ⟨"nope", [], "nope"⟩] _ _ _ _ rfl (Registry.runs_iff.mpr rfl)
      fun transformation known => by
        cases known
        exact Outcome.not_succeeds_error _
  exact ⟨resolution, shorter, resolves, value.symm, diagnostics, alone, same.trans value.symm⟩

end Resolver
end Stencil
