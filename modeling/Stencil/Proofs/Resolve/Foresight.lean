import Stencil.Proofs.Resolve.Success
import Stencil.Proofs.Resolve.Template
import Stencil.Proofs.Template.Build
import Stencil.Proofs.Template.Name

/-!
# Problems foreseen

An editor lists what is wrong with a template before there is a context, by a loop of its own. Empty
references and steps that name no transformation do not depend on a context, and so the editor
lists them as a run reports them, one for one. The main statement is `problems_foresee`; it says
too that a template without problems is resolved, with nothing reported but paths that lead nowhere
and transformations that fail.
-/

namespace Stencil

open Outcome

namespace Diagnostic

/-- Whether a problem shows in the template alone. -/
def isForeseeable (diagnostic : Diagnostic) : Bool :=
  diagnostic.code = .emptyReference || diagnostic.code = .unknownTransformation

/-- The problems of a report that show in the template alone, in order: what kind each is of, its
wording and the transformation it concerns. -/
def foreseen (report : List Diagnostic) : List (DiagnosticCode × String × Option String) :=
  (report.filter (·.isForeseeable)).map fun diagnostic =>
    (diagnostic.code, diagnostic.message, diagnostic.transformation)

theorem foreseen_append (first second : List Diagnostic) :
    foreseen (first ++ second) = foreseen first ++ foreseen second := by
  rw [foreseen, List.filter_append, List.map_append]
  rfl

/-- What is foreseen of many reports is foreseen of each. -/
theorem foreseen_flatMap {α : Type} (items : List α) (report : α → List Diagnostic) :
    foreseen (items.flatMap report) = items.flatMap fun item => foreseen (report item) := by
  induction items with
  | nil => rfl
  | cons item rest ih => rw [List.flatMap_cons, List.flatMap_cons, foreseen_append, ih]

end Diagnostic

open Diagnostic

namespace Registry

variable {registry : Registry} {step : Step} {value : Value}

/-- The report of one step: nothing foreseeable, unless it names no transformation. -/
theorem foreseen_apply (registry : Registry) (step : Step) (value : Value) (path : Option String) :
    foreseen (registry.apply step value []).2 =
      foreseen (if registry.has step.name then [] else [unknownTransformation path step.name]) := by
  have known : registry.has step.name = (registry.get? step.name).isSome :=
    Fields.has_eq_isSome_get? _ _
  rw [apply, known]
  cases registry.get? step.name with
  | none => rfl
  | some transformation =>
    dsimp only
    split <;> rfl

/-- What is foreseeable in the report of a pipeline depends on the names of its steps only. -/
theorem foreseen_applyAll (registry : Registry) (value : Value) (steps : List Step)
    (path : Option String) :
    foreseen (registry.applyAll value steps).2 =
      foreseen ((steps.filter fun step => !registry.has step.name).map fun step =>
        unknownTransformation path step.name) := by
  induction steps generalizing value with
  | nil => rfl
  | cons step rest ih =>
    have later := ih (registry.apply step value []).1
    rw [applyAll]
    dsimp only
    rw [foreseen_append, later, foreseen_apply registry step value path, ← foreseen_append,
      List.filter_cons]
    cases registry.has step.name <;> rfl

/-- A pipeline reports names without transformations and failures. -/
theorem code_of_mem_applyAll {steps : List Step} {diagnostic : Diagnostic}
    (reported : diagnostic ∈ (registry.applyAll value steps).2) :
    diagnostic.code = .unknownTransformation ∨ diagnostic.code = .transformationFailed := by
  induction steps generalizing value with
  | nil => cases reported
  | cons step rest ih =>
    rw [applyAll] at reported
    rcases List.mem_append.mp reported with here | later
    · rw [apply] at here
      split at here
      · rw [List.mem_singleton.mp here]
        exact .inl rfl
      · split at here
        · cases here
        · rw [List.mem_singleton.mp here]
          exact .inr rfl
    · exact ih later

end Registry

namespace Reference

variable {resolver : Resolver} {values : Fields Value} {reference : Reference}
  {resolution : Resolution}

/-- What a resolved reference reports and could be foreseen is among its problems, in the same
order. -/
theorem foreseen_resolve
    (resolves : reference.resolve resolver.registry values = .ok resolution) :
    foreseen resolution.diagnostics = foreseen (resolver.referenceProblems reference) := by
  obtain ⟨found, leads, made⟩ := bind_eq_ok.mp resolves
  rw [← Except.ok.inj made, Resolver.referenceProblems]
  dsimp only
  rw [foreseen_append, foreseen_append,
    Registry.foreseen_applyAll resolver.registry found reference.steps (some reference.path),
    pathDiagnostics]
  congr 1
  split_ifs <;> rfl

/-- A report that cannot be foreseen is of an unresolved path or of a failed transformation. -/
theorem code_of_mem_diagnostics {registry : Registry}
    (resolves : reference.resolve registry values = .ok resolution) {diagnostic : Diagnostic}
    (reported : diagnostic ∈ resolution.diagnostics) :
    diagnostic.isForeseeable = true ∨ diagnostic.code = .unresolvedPath ∨
      diagnostic.code = .transformationFailed := by
  obtain ⟨found, leads, made⟩ := bind_eq_ok.mp resolves
  rw [← Except.ok.inj made] at reported
  rcases List.mem_append.mp reported with ofPath | ofSteps
  · rw [pathDiagnostics] at ofPath
    split_ifs at ofPath
    · rw [List.mem_singleton.mp ofPath]
      exact .inl rfl
    · rw [List.mem_singleton.mp ofPath]
      exact .inr (.inl rfl)
    · cases ofPath
  · rcases Registry.code_of_mem_applyAll ofSteps with unknown | failed
    · exact .inl (by rw [isForeseeable, unknown]; rfl)
    · exact .inr (.inr failed)

end Reference

/-- What is foreseeable in the report on fillings is what an editor lists of their references. -/
theorem Filling.foreseen_diagnostics {resolver : Resolver} {values : Fields Value}
    {fillings : List Filling} (filled : ∀ filling ∈ fillings,
      ofReference resolver.registry values filling.reference = .ok filling) :
    foreseen (diagnostics fillings) = foreseen
      ((distinctReferences (fillings.map (·.reference))).flatMap resolver.referenceProblems) := by
  rw [diagnostics, distinctReferences_map, foreseen_flatMap, foreseen_flatMap, List.flatMap_map]
  refine List.flatMap_congr fun filling first => ?_
  obtain ⟨-, resolves, -⟩ := ofReference_eq_ok_iff.mp (filled filling (mem_of_mem_firstOn first))
  exact Reference.foreseen_resolve resolves

/-- What is reported on fillings is foreseeable, or that a path leads nowhere or that a
transformation fails. -/
theorem Filling.code_of_mem_diagnostics {registry : Registry} {values : Fields Value}
    {fillings : List Filling}
    (filled : ∀ filling ∈ fillings, ofReference registry values filling.reference = .ok filling)
    {diagnostic : Diagnostic} (reported : diagnostic ∈ diagnostics fillings) :
    diagnostic.isForeseeable = true ∨ diagnostic.code = .unresolvedPath ∨
      diagnostic.code = .transformationFailed := by
  obtain ⟨filling, first, own⟩ := List.mem_flatMap.mp reported
  obtain ⟨-, resolves, -⟩ := ofReference_eq_ok_iff.mp (filled filling (mem_of_mem_firstOn first))
  exact Reference.code_of_mem_diagnostics resolves own

/-- A segment whose name begins as an identifier does can be followed from every value. -/
theorem Segment.isSound_of_beginsIdentifier {segment : Segment} {c : Char}
    (first : c ∈ segment.name.toList.head?) (begins : Path.beginsIdentifier c = true) :
    segment.isSound = true := by
  obtain ⟨rest, spelled⟩ := List.head?_eq_some_iff.mp first
  have noDigit := (Path.plain_of_beginsIdentifier begins).2
  have name : Value.isPosition segment.name = false := by
    rw [Value.isPosition, spelled, List.all_cons, noDigit, Bool.false_and, Bool.and_false]
  rw [isSound, Value.isSoundName, name]
  rfl

namespace Resolver

variable {resolver : Resolver} {text : String} {source : Context.Source} {context : Context}

/-- References of a text in which an editor finds no problem have valid paths and known steps. -/
theorem referenceProblems_eq_nil {found : List Reference} (reads : references text = .ok found)
    (none : resolver.problems text = .ok []) {reference : Reference}
    (member : reference ∈ found) : resolver.referenceProblems reference = [] := by
  rw [problems, reads] at none
  have distinct := List.flatMap_eq_nil_iff.mp (Except.ok.inj none)
  -- the reference is written like one of those that the editor looks at
  obtain ⟨first, listed, same⟩ :=
    @exists_mem_firstOn _ _ _ Reference.raw found reference member
  obtain ⟨start, stop, rfl⟩ := exists_eq_of_raw_eq reads (mem_of_mem_firstOn listed) member same
  exact distinct first listed

theorem isSound_of_referenceProblems_eq_nil {found : List Reference}
    (reads : references text = .ok found) {reference : Reference} (member : reference ∈ found)
    (none : resolver.referenceProblems reference = []) : reference.isSound = true := by
  obtain ⟨trimmed, parsed⟩ := Reference.path_of_mem reads member
  have valid : Path.isValid reference.path = true := by
    rw [referenceProblems] at none
    have path := (List.append_eq_nil_iff.mp none).1
    split_ifs at path with empty valid
    exact valid
  refine List.all_eq_true.mpr fun segment behind => ?_
  obtain ⟨c, first, begins⟩ :=
    Path.exists_beginsIdentifier trimmed valid parsed (List.mem_of_mem_tail behind)
  exact Segment.isSound_of_beginsIdentifier first begins

/-- A text that is resolved has fillings, which are what is reported on. -/
theorem exists_ofText_of_resolve {name : Option String} {resolution : Resolution}
    (loads : source.load = .ok context)
    (resolves : resolver.resolve (.text text) source name = .ok resolution) :
    ∃ fillings, Filling.ofText resolver.registry context.merged text = .ok fillings ∧
      resolution.diagnostics = Filling.diagnostics fillings := by
  rw [resolve] at resolves
  split_ifs at resolves with braces
  · obtain ⟨policy, -, passes⟩ := bind_eq_ok.mp resolves
    rw [loads, ok_bind, resolveText_eq] at passes
    obtain ⟨fillings, read, concludes⟩ := bind_eq_ok.mp passes
    rw [Filling.outcome] at concludes
    split_ifs at concludes
    exact ⟨fillings, read, by rw [← Except.ok.inj concludes]; rfl⟩
  · have none := references_of_not_holdsBraces (Bool.not_eq_true _ ▸ braces)
    exact ⟨[], Filling.ofText_eq_ok_iff.mpr ⟨none, by simp⟩, by rw [← Except.ok.inj resolves]; rfl⟩

/-- Resolving a text reports of what can be foreseen what the problems of the text do. -/
theorem exists_problems_of_resolve {name : Option String} {resolution : Resolution}
    (loads : source.load = .ok context)
    (resolves : resolver.resolve (.text text) source name = .ok resolution) :
    ∃ listed, resolver.problems text = .ok listed ∧
      foreseen resolution.diagnostics = foreseen listed := by
  obtain ⟨fillings, read, reported⟩ := exists_ofText_of_resolve loads resolves
  obtain ⟨reads, filled⟩ := Filling.ofText_eq_ok_iff.mp read
  rw [reported, Filling.foreseen_diagnostics filled, problems, reads]
  exact ⟨_, rfl, rfl⟩

/-- A template without problems has fillings: no path of it comes to a name that denotes no
position. -/
theorem exists_ofText_of_problems (keeps : resolver.registry.KeepsWritable)
    (writable : context.isWritable = true) (none : resolver.problems text = .ok []) :
    ∃ fillings, Filling.ofText resolver.registry context.merged text = .ok fillings := by
  obtain ⟨found, reads, -⟩ := bind_eq_ok.mp none
  have each : ∀ reference ∈ found,
      Succeeds (Filling.ofReference resolver.registry context.merged reference) := by
    intro reference member
    have fine := referenceProblems_eq_nil reads none member
    exact Filling.ofReference_succeeds keeps writable
      (isSound_of_referenceProblems_eq_nil reads member fine)
  obtain ⟨fillings, read, -⟩ := Filling.exists_ofText_of_succeeds reads each
  exact ⟨fillings, read⟩

/-- **What an editor foresees.** Empty references and steps without a transformation are listed for
a template as every run reports them, in number, order and wording. With the built-in
transformations, a template without any problems is resolved under every policy that puts something
in the place of references without a value, and what is reported is that paths lead nowhere or that
transformations fail. -/
theorem problems_foresee (loads : source.load = .ok context) :
    (∀ name resolution, resolver.resolve (.text text) source name = .ok resolution →
      ∃ listed, resolver.problems text = .ok listed ∧
        foreseen resolution.diagnostics = foreseen listed) ∧
    (∀ dateTemplate name policy, resolver.registry = Builtin.registry dateTemplate →
      context.isWritable = true → resolver.policy.chosen name = .ok policy → policy ≠ .raise →
      resolver.problems text = .ok [] →
      ∃ resolution, resolver.resolve (.text text) source name = .ok resolution ∧
        ∀ diagnostic ∈ resolution.diagnostics,
          diagnostic.code = .unresolvedPath ∨ diagnostic.code = .transformationFailed) := by
  refine ⟨fun name resolution => exists_problems_of_resolve loads, ?_⟩
  intro dateTemplate name policy builtIn writable chosen lenient none
  have keeps : resolver.registry.KeepsWritable := by
    rw [builtIn]
    exact Builtin.registry_keepsWritable dateTemplate
  obtain ⟨fillings, read⟩ := exists_ofText_of_problems keeps writable none
  have resolves : resolver.resolve (.text text) source name =
      .ok (Filling.resolutionOf policy text fillings) := by
    rw [resolve_eq_outcome loads read chosen, Filling.outcome_of_ne_raise lenient]
  refine ⟨_, resolves, fun diagnostic reported => ?_⟩
  rcases Filling.code_of_mem_diagnostics (Filling.ofText_eq_ok_iff.mp read).2 reported with
    foreseeable | known
  · -- a foreseeable problem would be listed, and none is
    obtain ⟨listed, lists, same⟩ := exists_problems_of_resolve loads resolves
    cases none.symm.trans lists
    rw [foreseen, foreseen, List.filter_nil, List.map_nil, List.map_eq_nil_iff,
      List.filter_eq_nil_iff] at same
    exact absurd foreseeable (same diagnostic reported)
  · exact known

/-- A repeated step without a transformation, and a template without problems whose transformation
fails at a path that leads nowhere. -/
theorem problems_foresee_unknown :
    (∃ listed, default.problems "{{a|nope}}{{ | nope }}{{a|nope}}" = .ok listed ∧
      [(.unknownTransformation, "Unknown transformation: nope", some "nope"),
        (.emptyReference, "Empty variable reference: {{ | nope }}", none),
        (.unknownTransformation, "Unknown transformation: nope", some "nope")] =
          foreseen listed) ∧
    (∃ resolution, default.resolve (.text "{{a.b[0]|round:999}}") (.live .empty) none =
        .ok resolution ∧
      ∀ diagnostic ∈ resolution.diagnostics,
        diagnostic.code = .unresolvedPath ∨ diagnostic.code = .transformationFailed) := by
  constructor
  · have both := @problems_foresee default "{{a|nope}}{{ | nope }}{{a|nope}}" (.live .empty)
      .empty rfl
    obtain ⟨listed, lists, same⟩ := both.1 none _ rfl
    exact ⟨listed, lists, same⟩
  · have both := @problems_foresee default "{{a.b[0]|round:999}}" (.live .empty) .empty rfl
    exact both.2 _ none .literal rfl rfl rfl (by decide) rfl

end Resolver
end Stencil
