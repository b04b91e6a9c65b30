import Stencil.Proofs.Resolve.Deep
import Stencil.Proofs.Resolve.Memo
import Stencil.Proofs.Transform.Growth

/-!
# Templates under a growing registry

A template asks a registry for the transformations that its steps name and for nothing else
(`Resolver.resolvesAlike_of_agreeOn`). So a registry that grows goes on to resolve the templates
alike whose steps all name transformations that it has. The main statement is
`Registry.run_grows`: what a run of operations makes of a registry, and what no later run changes.
-/

namespace Stencil

/-- The steps of the reference in the body of a hole. A hole that is not read as a reference has
none. -/
def Reference.stepsIn (body : List Char) : List Step :=
  match ofHole 0 body with
  | .ok reference => reference.steps
  | .error _ => []

/-- The steps of a hole are those of the reference it spells. -/
theorem Reference.stepsIn_eq {position : Nat} {body : List Char} {reference : Reference}
    (read : ofHole position body = .ok reference) : stepsIn body = reference.steps := by
  rw [stepsIn, ofHole_elsewhere read 0]

/-- The names of the transformations that the steps of a text ask for. -/
def stepNames (text : String) : List String :=
  ((Token.bodies (Token.tokens text.toList)).flatMap Reference.stepsIn).map (·.name)

/-- The names of the transformations that the steps in the texts of a template ask for. -/
def Value.stepNames (template : Value) : List String :=
  template.texts.flatMap Stencil.stepNames

/-- The steps of a hole in a text are among those the text names. -/
theorem name_mem_stepNames {text : String} {body : List Char} {step : Step}
    (hole : body ∈ Token.bodies (Token.tokens text.toList))
    (member : step ∈ Reference.stepsIn body) : step.name ∈ stepNames text :=
  List.mem_map_of_mem (List.mem_flatMap.mpr ⟨body, hole, member⟩)

namespace Registry

/-- Whether two registries have the same transformations under the given names, or lack the
same. -/
def AgreeOn (names : List String) (first second : Registry) : Prop :=
  ∀ name ∈ names, first.get? name = second.get? name

variable {first second : Registry}

/-- Registries that agree on the name of a step apply it alike. -/
theorem AgreeOn.apply {names : List String} {step : Step} (agree : AgreeOn names first second)
    (named : step.name ∈ names) (value : Value) (further : List Value) :
    first.apply step value further = second.apply step value further := by
  rw [Registry.apply, Registry.apply, agree step.name named]

/-- Registries that agree on the names of steps apply them alike. -/
theorem applyAll_congr {steps : List Step} (agree : AgreeOn (steps.map (·.name)) first second)
    (value : Value) : first.applyAll value steps = second.applyAll value steps := by
  induction steps generalizing value with
  | nil => rfl
  | cons step rest ih =>
    have behind : AgreeOn (rest.map (·.name)) first second :=
      fun name named => agree name (List.mem_cons_of_mem _ named)
    rw [applyAll, applyAll, agree.apply List.mem_cons_self]
    simp only [ih behind]

end Registry

section Text

variable {first second : Registry} {values : Fields Value}

/-- Registries that agree on the steps of a reference resolve it alike. -/
theorem Reference.resolve_agreeOn {reference : Reference}
    (agree : Registry.AgreeOn (reference.steps.map (·.name)) first second) :
    reference.resolve first values = reference.resolve second values := by
  rw [resolve, resolve]
  simp only [Registry.applyAll_congr agree]

variable {text : String} (agree : Registry.AgreeOn (stepNames text) first second)
include agree

/-- Registries that agree on a text resolve the references in its holes alike. -/
theorem Reference.resolve_agreeOn_of_hole {position : Nat} {body : List Char}
    {reference : Reference} (hole : body ∈ Token.bodies (Token.tokens text.toList))
    (read : ofHole position body = .ok reference) :
    reference.resolve first values = reference.resolve second values := by
  refine resolve_agreeOn fun name named => ?_
  obtain ⟨step, member, rfl⟩ := List.mem_map.mp named
  rw [← stepsIn_eq read] at member
  exact agree step.name (name_mem_stepNames hole member)

/-- Registries that agree on a text resolve it alike. -/
theorem resolveText_agreeOn (policy : Policy) :
    resolveText first policy values text = resolveText second policy values text :=
  resolveText_congr_of_resolve fun _ hole _ _ read =>
    Reference.resolve_agreeOn_of_hole agree hole read

/-- A reference that is found in a text is resolved alike where the text is. -/
theorem Reference.resolve_agreeOn_of_mem {found : List Reference}
    (reads : references text = .ok found) {reference : Reference} (member : reference ∈ found) :
    reference.resolve first values = reference.resolve second values := by
  obtain ⟨body, hole, read⟩ := exists_ofHole_of_mem reads member
  exact resolve_agreeOn_of_hole agree hole read

end Text

namespace Resolver

/-- Two resolvers end alike with a template, whatever the context: with the template itself, with
the references in its texts, and with what an editor shows of them. -/
structure ResolvesAlike (first second : Resolver) (template : Value) : Prop where
  resolve : ∀ source policy,
    first.resolve template source policy = second.resolve template source policy
  resolveDeep : ∀ source policy,
    first.resolveDeep template source policy = second.resolveDeep template source policy
  resolveReference : ∀ text ∈ template.texts, ∀ found, references text = .ok found →
    ∀ reference ∈ found, ∀ source,
      first.resolveReference reference source = second.resolveReference reference source
  preview : ∀ text ∈ template.texts, ∀ source,
    first.preview text source = second.preview text source
  evaluate : ∀ text ∈ template.texts, ∀ source,
    first.evaluate text source = second.evaluate text source

variable {first second : Resolver} {template : Value} {text : String}

section Text

variable (agree : Registry.AgreeOn (stepNames text) first.registry second.registry)
  (policy : first.policy = second.policy)
include agree policy

/-- Resolvers whose registries agree on a text resolve it alike. -/
theorem resolve_agreeOn (source : Context.Source) (name : Option String) :
    first.resolve (.text text) source name = second.resolve (.text text) source name := by
  rw [resolve, resolve, policy]
  simp only [resolveText_agreeOn agree]

/-- Resolvers whose registries agree on a text preview it alike. -/
theorem preview_agreeOn (source : Context.Source) :
    first.preview text source = second.preview text source := by
  have asked : first.previewPolicy = second.previewPolicy := by
    rw [previewPolicy, previewPolicy, policy]
  rw [preview, preview, asked]
  refine Outcome.bind_congr fun context _ => Outcome.bind_congr fun found reads => ?_
  have same : (distinctReferences found).mapM (Reference.resolve first.registry context.merged) =
      (distinctReferences found).mapM (Reference.resolve second.registry context.merged) :=
    Outcome.mapM_congr fun reference member =>
      Reference.resolve_agreeOn_of_mem agree reads (mem_of_mem_firstOn member)
  dsimp only
  rw [same, resolveText_agreeOn agree]

end Text

/-- A template asks a registry only for what its steps name. -/
theorem resolvesAlike_of_agreeOn
    (agree : Registry.AgreeOn template.stepNames first.registry second.registry)
    (policy : first.policy = second.policy) : ResolvesAlike first second template := by
  have own {text : String} (inside : text ∈ template.texts) :
      Registry.AgreeOn (stepNames text) first.registry second.registry :=
    fun name named => agree name (List.mem_flatMap.mpr ⟨text, inside, named⟩)
  refine ⟨?_, ?_, ?_, ?_, ?_⟩
  · intro source name
    cases template with
    | text s => exact resolve_agreeOn (own (List.mem_singleton_self s)) policy source name
    | _ => rfl
  · intro source name
    have same (asked : Policy) (values : Fields Value) :
        first.resolveWithin asked values template = second.resolveWithin asked values template :=
      resolveWithin_congr template fun text inside => resolveText_agreeOn (own inside) asked
    simp only [resolveDeep, same, policy]
  · intro text inside found reads reference member source
    simp only [resolveReference, Reference.resolve_agreeOn_of_mem (own inside) reads member]
  · exact fun text inside => preview_agreeOn (own inside) policy
  · intro text inside source
    rw [evaluate, evaluate, resolve_agreeOn (own inside) policy]

end Resolver

namespace Registry

/-- What a run of operations makes of a registry. The identifiers are those of the transformations
that were accepted, in their order and without repeats, and each has the first transformation that
was accepted under it. From then on no operation takes a transformation away, and what is refused or
only asked leaves the registry as it is: steps of known names are applied alike, and templates all
of whose steps have known names are resolved alike, after every later run. -/
structure Grows (start : Registry) (operations : List Operation) : Prop where
  ids : (start.run operations).ids = (start.all ++ start.accepted operations).map (·.id)
  distinct : (start.run operations).ids.Nodup
  first : ∀ id, (start.run operations).get? id =
    (start.all ++ start.accepted operations).find? (·.id == id)
  kept : ∀ later id transformation, (start.run operations).get? id = some transformation →
    (start.run (operations ++ later)).get? id = some transformation
  refused : ∀ operation fault, ((start.run operations).perform operation).1 = .error fault →
    ((start.run operations).perform operation).2 = start.run operations
  unmoved : ∀ operation, (∀ transformation, operation ≠ .register transformation) →
    ((start.run operations).perform operation).2 = start.run operations
  applied : ∀ later step, (start.run operations).has step.name = true → ∀ value further,
    (start.run (operations ++ later)).apply step value further =
      (start.run operations).apply step value further
  resolved : ∀ later template,
    (∀ name ∈ template.stepNames, (start.run operations).has name = true) → ∀ policy,
      Resolver.ResolvesAlike ⟨start.run (operations ++ later), policy⟩
        ⟨start.run operations, policy⟩ template

/-- A refused operation leaves the registry as it is. -/
theorem perform_of_refused {registry : Registry} {operation : Operation} {fault : Fault}
    (refused : (registry.perform operation).1 = .error fault) :
    (registry.perform operation).2 = registry := by
  cases operation with
  | register transformation =>
    rw [perform] at refused ⊢
    cases registered : registry.register transformation with
    | ok grown =>
      rw [registered] at refused
      cases refused
    | error fault => rfl
  | apply step value further => rfl
  | query query => rfl

/-- Registries of which one extends the other agree on the names that are known. -/
theorem Extends.agreeOn {base grown : Registry} (extends_ : Extends base grown)
    {names : List String} (known : ∀ name ∈ names, base.has name = true) :
    AgreeOn names grown base := by
  intro name named
  have found := known name named
  rw [has, Fields.has_eq_isSome_get?] at found
  obtain ⟨transformation, listed⟩ := Option.isSome_iff_exists.mp found
  have here : base.get? name = some transformation := listed
  rw [here, extends_.get? here]

/-- **Registries only grow**, whether they begin empty or with the built-in transformations. -/
theorem run_grows {start : Registry} (initial : start.IsInitial) (operations : List Operation) :
    start.Grows operations := by
  have indexed := initial.isIndexed.run operations
  have grows (later : List Operation) :
      Extends (start.run operations) (start.run (operations ++ later)) := by
    rw [run_append]
    exact extends_run _ later
  exact {
    ids := by rw [indexed.ids_eq, all_run]
    distinct := indexed.distinct
    first := fun id => by rw [indexed.get?_eq, all_run]
    kept := fun later id transformation found => (grows later).get? found
    refused := fun operation fault refused => perform_of_refused refused
    unmoved := fun operation other => by
      cases operation with
      | register transformation => exact (other transformation rfl).elim
      | apply step value further => rfl
      | query query => rfl
    applied := fun later step known value further =>
      ((grows later).agreeOn (List.forall_mem_singleton.mpr known)).apply
        (List.mem_singleton_self _) value further
    resolved := fun later template known policy =>
      Resolver.resolvesAlike_of_agreeOn ((grows later).agreeOn known) rfl }

/-- Of four registrations among the built-in transformations the second one is taken by the first,
the third by a built-in one, and the last is under no identifier. -/
theorem run_grows_refused :
    let named (id : String) : Transformation := ⟨id, id, fun value _ => .ok value, "", none, none⟩
    let operations : List Operation := [.register (named "tag"),
      .register { named "tag" with run := fun _ _ => .ok .null }, .query .ids,
      .register (named "trim"), .apply (Step.parse "tag:1") (.int 1) [],
      .register (named "two words")]
    (Builtin.registry "YYYY").IsInitial ∧
      ((Builtin.registry "YYYY").accepted operations).map (·.id) = ["tag"] ∧
      (Builtin.registry "YYYY").Grows operations := by
  intro named operations
  exact ⟨.builtin "YYYY", by decide, run_grows (.builtin "YYYY") operations⟩

end Registry
end Stencil
