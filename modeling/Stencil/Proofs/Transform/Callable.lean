import Stencil.Proofs.Template.Call
import Stencil.Proofs.Transform.Growth
import Stencil.Resolve.Reference

/-!
# Calling registered transformations

A registry accepts identifiers, and identifiers with a line break behind them
(`Registry.acceptsId_iff`). An identifier is read as the name of a step without arguments, so the
transformation under it can be called wherever a step can be written (`Registry.Callable`). The line
break is a blank, which no step keeps: what is registered behind one can never be called. The main
statement is `Registry.callable_iff`.
-/

namespace Stencil

open Text

namespace Step

/-- An identifier is read as the name of a step without arguments. -/
theorem parse_of_isIdentifier {name : String} (identifier : Path.isIdentifier name.toList = true) :
    parse name = ⟨name, [], name⟩ := by
  have trimmed := trim_of_isIdentifier identifier
  have single : pieces [] none name.toList = [name.toList] :=
    pieces_eq_singleton_iff.mpr (.inl (isWhole_of_isIdentifier identifier))
  rw [parse, trimmed, single, List.head?_cons, Option.getD_some, trimmed, String.ofList_toList,
    List.tail_cons, List.map_nil]

/-- A line break behind a step is not a part of it. -/
theorem parse_lineBreak (step : String) : parse (step ++ "\n") = parse step := by
  rw [← parse_trim (step ++ "\n"), String.toList_append, trim_append_right rfl, parse_trim]

end Step

/-- An identifier is one piece of a reference. -/
theorem isPiece_of_isIdentifier {name : List Char} (identifier : Path.isIdentifier name = true) :
    IsPiece name := by
  have foreign {c : Char} (other : Path.continuesIdentifier c = false) : c ∉ name :=
    Path.not_mem_of_isIdentifier identifier other
  exact {
    trimmed := Step.trim_of_isIdentifier identifier
    noBar := foreign rfl
    enclosable := {
      noClosing := foreign rfl
      noOpening := fun opening => foreign rfl (opening.subset List.mem_cons_self) } }

/-- What a transformation makes of a value and reports: when it fails, the value stays as it is. -/
def Transformation.applied (transformation : Transformation) (value : Value) (args : List Value) :
    Value × List Diagnostic :=
  match transformation.run value args with
  | .ok image => (image, [])
  | .error fault => (value, [.transformationFailed transformation.id fault.message])

namespace Reference

/-- The steps that pieces of a hole spell; empty pieces spell none. -/
def stepsOf (pieces : List (List Char)) : List Step :=
  (pieces.filter (!·.isEmpty)).map fun piece => Step.parse (String.ofList piece)

theorem stepsOf_append (front back : List (List Char)) :
    stepsOf (front ++ back) = stepsOf front ++ stepsOf back := by
  rw [stepsOf, List.filter_append, List.map_append, stepsOf, stepsOf]

theorem stepsOf_cons {piece : List Char} (filled : piece ≠ []) (rest : List (List Char)) :
    stepsOf (piece :: rest) = Step.parse (String.ofList piece) :: stepsOf rest := by
  have kept : (!piece.isEmpty) = true := by
    rwa [Bool.not_eq_true', List.isEmpty_eq_false_iff]
  rw [stepsOf, List.filter_cons_of_pos (p := fun piece : List Char => !piece.isEmpty) kept,
    List.map_cons, stepsOf]

/-- The steps of a reference are those of the pieces behind the first. -/
theorem steps_of_ofHole {position : Nat} {body : List Char} {reference : Reference}
    (read : ofHole position body = .ok reference) :
    reference.steps = stepsOf (piecesOf body).tail := by
  obtain ⟨segments, -, made⟩ := Outcome.bind_eq_ok.mp read
  rw [← Except.ok.inj made, stepsOf]

/-- A reference runs a transformation between the steps in front of it and those behind: it is given
what the first make of the value of the path, and the others what it makes of that. -/
def RunsBetween (registry : Registry) (reference : Reference) (before : List Step)
    (transformation : Transformation) (after : List Step) : Prop :=
  ∀ values found, reference.pathValue values = .ok found →
    let (reached, early) := registry.applyAll found before
    let (made, own) := transformation.applied reached []
    let (final, late) := registry.applyAll made after
    ∃ resolution, reference.resolve registry values = .ok resolution ∧ resolution.value = final ∧
      resolution.diagnostics = reference.pathDiagnostics found ++ (early ++ (own ++ late))

end Reference

namespace Registry

variable {registry : Registry} {transformation : Transformation}

/-- A step whose transformation is found under its own name applies it to its arguments. -/
theorem apply_of_get? {step : Step} (found : registry.get? step.name = some transformation)
    (own : step.name = transformation.id) (value : Value) (further : List Value) :
    registry.apply step value further =
      transformation.applied value (step.args.map .text ++ further) := by
  rw [apply, found, own]
  rfl

/-- A transformation can be called by its identifier: as a step of its own, and as a piece of any
hole between other pieces, as of the references that are built from valid paths. -/
structure Callable (registry : Registry) (transformation : Transformation) : Prop where
  identifier : Path.isIdentifier transformation.id.toList = true
  name : (Step.parse transformation.id).name = transformation.id
  args : (Step.parse transformation.id).args = []
  applied : ∀ value further,
    registry.apply (Step.parse transformation.id) value further =
      transformation.applied value further
  piped : ∀ position body reference, Reference.ofHole position body = .ok reference →
    ∀ front back, (Reference.piecesOf body).tail = front ++ transformation.id.toList :: back →
      reference.RunsBetween registry (Reference.stepsOf front) transformation
        (Reference.stepsOf back)
  built : ∀ path, trim path.toList = path.toList → Path.isValid path = true →
    Path.IndexesFit path → ∃ reference,
      references (Reference.build path [transformation.id]) = .ok [reference] ∧
        reference.path = path ∧ reference.RunsBetween registry [] transformation []

/-- What a registry accepts: an identifier, or one with a line break behind it. -/
theorem acceptsId_iff {id : String} :
    acceptsId id = true ↔ ∃ name : String, Path.isIdentifier name.toList = true ∧
      (id = name ∨ id = name ++ "\n") := by
  rw [acceptsId, Bool.or_eq_true, Bool.and_eq_true, beq_iff_eq]
  constructor
  · intro accepted
    rcases accepted with identifier | ⟨last, identifier⟩
    · exact ⟨id, identifier, .inl rfl⟩
    · refine ⟨String.ofList id.toList.dropLast, by rwa [String.toList_ofList], .inr ?_⟩
      rw [← String.toList_inj, String.toList_append, String.toList_ofList]
      exact (List.dropLast_append_getLast? _ last).symm
  · intro accepted
    obtain ⟨name, identifier, rfl | rfl⟩ := accepted
    · exact .inl identifier
    · refine .inr ⟨?_, ?_⟩
      · rw [String.toList_append]
        exact List.getLast?_concat
      · rw [String.toList_append]
        exact (congrArg Path.isIdentifier List.dropLast_concat).trans identifier

/-- A step whose transformation is applied runs between those before and behind it. -/
theorem runsBetween_of_steps {reference : Reference} {before after : List Step} {step : Step}
    (steps : reference.steps = before ++ step :: after)
    (applied : ∀ value, registry.apply step value [] = transformation.applied value []) :
    reference.RunsBetween registry before transformation after := by
  intro values found leads
  have fromHere (value : Value) : registry.applyAll value (step :: after) =
      let (made, own) := transformation.applied value []
      let (final, late) := registry.applyAll made after
      (final, own ++ late) := by
    rw [applyAll, applied]
  rw [Reference.resolve, leads, Outcome.ok_bind, steps, applyAll_append]
  simp only [fromHere]
  exact ⟨_, rfl, rfl, rfl⟩

/-- A transformation that a registry finds under its identifier can be called, if that is an
identifier indeed. -/
theorem callable_of_isIdentifier (found : registry.get? transformation.id = some transformation)
    (identifier : Path.isIdentifier transformation.id.toList = true) :
    registry.Callable transformation := by
  have parsed := Step.parse_of_isIdentifier identifier
  have applied (value : Value) (further : List Value) :
      registry.apply (Step.parse transformation.id) value further =
        transformation.applied value further := by
    rw [parsed, apply_of_get? found rfl]
    rfl
  refine ⟨identifier, by rw [parsed], by rw [parsed], applied, ?piped, ?built⟩
  case piped =>
    intro position body reference read front back pieces
    have steps : reference.steps = Reference.stepsOf front ++
        Step.parse transformation.id :: Reference.stepsOf back := by
      rw [Reference.steps_of_ofHole read, pieces, Reference.stepsOf_append,
        Reference.stepsOf_cons (Path.ne_nil_of_isIdentifier identifier), String.ofList_toList]
    exact runsBetween_of_steps steps fun value => applied value []
  case built =>
    intro path trimmed valid fit
    obtain ⟨segments, parses⟩ := Path.parse_succeeds_iff.mpr fit
    have filled : transformation.id ≠ "" := fun empty =>
      Path.ne_nil_of_isIdentifier identifier (String.toList_eq_nil_iff.mpr empty)
    have read := Reference.references_build_eq (Path.isPiece_of_isValid trimmed valid)
      (List.forall_mem_singleton.mpr ⟨isPiece_of_isIdentifier identifier, filled⟩)
    rw [parses, Outcome.ok_bind] at read
    exact ⟨_, read, rfl, @runsBetween_of_steps _ _ _ [] [] _ rfl fun value => applied value []⟩

/-- **Which registered transformations can be called.** In every registry that operations make, each
transformation stands under an identifier or under one with a line break behind it. In the second
case its name calls for what is registered without the line break, if anything is; so it can be
called exactly if there is none. -/
theorem callable_iff {start : Registry} (initial : start.IsInitial) (operations : List Operation)
    {transformation : Transformation}
    (member : transformation ∈ (start.run operations).all) :
    (∃ name : String, Path.isIdentifier name.toList = true ∧
      (transformation.id = name ∨ transformation.id = name ++ "\n") ∧
      Step.parse transformation.id = ⟨name, [], name⟩) ∧
    ((start.run operations).Callable transformation ↔
      transformation.id.toList.getLast? ≠ some '\n') := by
  have indexed := initial.isIndexed.run operations
  obtain ⟨entry, listed, same⟩ := List.mem_map.mp member
  have own : entry.1 = transformation.id := (indexed.own entry listed).trans (congrArg _ same)
  have allowed := indexed.allowed entry listed
  rw [own] at allowed
  obtain ⟨name, identifier, written⟩ := acceptsId_iff.mp allowed
  have parsed : Step.parse transformation.id = ⟨name, [], name⟩ := by
    rcases written with same | same
    · rw [same, Step.parse_of_isIdentifier identifier]
    · rw [same, Step.parse_lineBreak, Step.parse_of_isIdentifier identifier]
  refine ⟨⟨name, identifier, written, parsed⟩, ?_⟩
  have noBreak {id : List Char} (identifier : Path.isIdentifier id = true) :
      id.getLast? ≠ some '\n' := fun last =>
    Path.not_mem_of_isIdentifier identifier rfl (List.mem_of_getLast? last)
  constructor
  · exact fun callable => noBreak callable.identifier
  · intro last
    rcases written with bare | broken
    · have found : (start.run operations).get? transformation.id = some transformation := by
        refine Fields.get?_eq_some_of_mem indexed.distinct ?_
        rw [← own, ← same]
        exact listed
      rw [← bare] at identifier
      exact callable_of_isIdentifier found identifier
    · rw [broken, String.toList_append] at last
      exact (last List.getLast?_concat).elim

/-- Registering a transformation under an accepted identifier makes a registry of it. -/
theorem all_run_singleton (accepted : acceptsId transformation.id = true) :
    (empty.run [.register transformation]).all = [transformation] := by
  have runs : empty.run ([transformation].map .register) = _ :=
    run_register (List.forall_mem_singleton.mpr accepted) (List.pairwise_singleton _ _)
  exact congrArg all runs

/-- An identifier with an underscore at its front, a capital and a digit. -/
theorem callable_iff_underscore :
    let transformation : Transformation :=
      ⟨"_Tag1", "Tag", fun value _ => .ok value, "", none, none⟩
    Registry.empty.IsInitial ∧
      transformation ∈ (empty.run [.register transformation]).all ∧
      (empty.run [.register transformation]).Callable transformation := by
  intro transformation
  have member : transformation ∈ (empty.run [.register transformation]).all := by
    rw [all_run_singleton (by decide)]
    exact List.mem_singleton_self _
  exact ⟨.empty, member, (callable_iff .empty _ member).2.mpr (by decide)⟩

/-- What is registered with a line break behind its identifier is not found under its own name. -/
theorem not_callable_lineBreak :
    let transformation : Transformation :=
      ⟨"tag\n", "Tag", fun value _ => .ok value, "", none, none⟩
    let grown := empty.run [.register transformation]
    transformation ∈ grown.all ∧ ¬ grown.Callable transformation ∧
      (Step.parse transformation.id).name ≠ transformation.id ∧
      grown.apply (Step.parse transformation.id) (.int 1) [] =
        (.int 1, [.unknownTransformation none "tag"]) := by
  intro transformation grown
  have registered : grown.all = [transformation] := all_run_singleton (by decide)
  have member : transformation ∈ grown.all := by
    rw [registered]
    exact List.mem_singleton_self _
  have parsed : Step.parse transformation.id = ⟨"tag", [], "tag"⟩ := by decide
  have missing : grown.get? "tag" = none := by decide
  refine ⟨member, fun callable => ?_, by decide, ?_⟩
  · have identifier := callable.identifier
    revert identifier
    decide
  · rw [parsed]
    exact apply_of_get?_eq_none _ _ missing

end Registry
end Stencil
