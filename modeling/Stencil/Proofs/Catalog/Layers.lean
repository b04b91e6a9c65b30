import Mathlib.Data.List.Nodup
import Stencil.Catalog.Operation
import Stencil.Proofs.Context.Walk
import Stencil.Proofs.Schema.Accepted
import Stencil.Proofs.Value.Keys

/-!
# Layers given anew

An update of the live context gives some of its layers anew, each under one of the names of the
layer. Every layer that is named should then hold what it was given, and the others what they held
before (`Context.Revised`). The update is laid over the context under the names that the context
lists, and these are looked for first: so a layer keeps what it held if it is given under its other
name (`Catalog.updateContext_revised_iff`).
-/

namespace Stencil

namespace Value

/-- Setting the entries of a dictionary in those of another lays it over the other. -/
theorem foldl_setEntry_fieldEntries (base upper : Fields Value) :
    (fieldEntries upper).foldl (fun map (key, value) => setEntry key value map)
      (fieldEntries base) = fieldEntries (Fields.overlay base upper) := by
  induction upper generalizing base with
  | nil => rfl
  | cons entry rest ih =>
    obtain ⟨key, value⟩ := entry
    rw [Fields.overlay_cons, ← ih, ← setEntry_fieldEntries]
    rfl

end Value

namespace Schema

/-- The first of several names is found if the entries have it. -/
theorem findName_of_first {name : String} {others : List String} {entries : List (Value × Value)}
    {value : Value} (first : Value.lookupText name entries = some value) :
    findName (name :: others) entries = some (name, value) := by
  unfold findName
  rw [List.findSome?_cons, first]
  rfl

end Schema

namespace Context

/-- One of the layers of a context. -/
inductive Layer
  | globals
  | vars
  | stepOutputs
  deriving DecidableEq

/-- What a context holds in a layer. -/
def layer (context : Context) : Layer → Fields Value
  | .globals => context.globals
  | .vars => context.vars
  | .stepOutputs => context.stepOutputs

namespace Layer

/-- The names under which a layer may be given. -/
def names : Layer → List String
  | .globals => globalsNames
  | .vars => variablesNames
  | .stepOutputs => stepOutputsNames

/-- The name under which a context lists a layer. -/
def firstName (layer : Layer) : String :=
  layer.names.headD ""

theorem exists_names_eq_cons (layer : Layer) :
    ∃ others, layer.names = layer.firstName :: others := by
  cases layer with
  | globals => exact ⟨["globalVariables"], rfl⟩
  | vars => exact ⟨[], rfl⟩
  | stepOutputs => exact ⟨["stepOutputs"], rfl⟩

/-- The first name of a layer is one of its names. -/
theorem firstName_mem_names (layer : Layer) : layer.firstName ∈ layer.names := by
  obtain ⟨others, listed⟩ := layer.exists_names_eq_cons
  rw [listed]
  exact List.mem_cons_self

/-- A name is that of one layer at most. -/
theorem eq_of_mem_names {first second : Layer} {name : String} (one : name ∈ first.names)
    (other : name ∈ second.names) : first = second := by
  have apart : first = second ∨ ∀ name ∈ first.names, name ∉ second.names := by
    cases first <;> cases second <;> decide
  exact apart.resolve_right fun free => free name one other

end Layer

/-- A layer that is given anew, under one of its names. -/
structure Revision where
  layer : Layer
  name : String
  named : name ∈ layer.names
  fields : Fields Value
  distinct : (Fields.keys fields).Nodup

/-- The entry of an update that gives a layer anew. -/
def Revision.entry (revision : Revision) : Value × Value :=
  (.text revision.name, .ofFields revision.fields)

/-- What giving layers anew should lead to: what was given in the layers that are named, and the
others as they were. -/
structure Revised (context next : Context) (revisions : List Revision) : Prop where
  named : ∀ revision ∈ revisions, next.layer revision.layer = revision.fields
  unnamed : ∀ layer, (∀ revision ∈ revisions, revision.layer ≠ layer) →
    next.layer layer = context.layer layer

section Revisions

variable {context : Context} {revisions : List Revision} {layer : Layer} {revision : Revision}

/-- What an update leaves in a layer: what is given under the first name, or what was there. -/
def held (context : Context) (revisions : List Revision) (layer : Layer) : Fields Value :=
  ((revisions.find? (·.name == layer.firstName)).map (·.fields)).getD (context.layer layer)

/-- A layer that is revised under its first name holds the revised fields. -/
theorem held_of_firstName (once : (revisions.map (·.layer)).Nodup) (member : revision ∈ revisions)
    (first : revision.name = revision.layer.firstName) :
    context.held revisions revision.layer = revision.fields := by
  unfold held
  cases found : revisions.find? (·.name == revision.layer.firstName) with
  | none =>
    apply absurd (List.find?_eq_none.mp found revision member)
    rw [not_not, beq_iff_eq]
    exact first
  | some other =>
    have named : other.name = revision.layer.firstName := by simpa using List.find?_some found
    have same : other.layer = revision.layer := by
      apply Layer.eq_of_mem_names other.named
      rw [named]
      exact revision.layer.firstName_mem_names
    have only := List.inj_on_of_nodup_map once (List.mem_of_find?_eq_some found) member same
    rw [only]
    rfl

/-- A layer that is not given under its first name keeps what it held. -/
theorem held_of_not_firstName
    (free : ∀ revision ∈ revisions, revision.layer = layer → revision.name ≠ layer.firstName) :
    context.held revisions layer = context.layer layer := by
  have none : revisions.find? (·.name == layer.firstName) = none := by
    apply List.find?_eq_none.mpr
    intro revision member taken
    have named : revision.name = layer.firstName := by simpa using taken
    apply free revision member _ named
    apply Layer.eq_of_mem_names revision.named
    rw [named]
    exact layer.firstName_mem_names
  unfold held
  rw [none]
  rfl

/-- A layer holds no name twice after a revision. -/
theorem nodup_keys_held (distinct : context.HasDistinctNames) :
    (Fields.keys (context.held revisions layer)).Nodup := by
  unfold held
  cases revisions.find? (·.name == layer.firstName) with
  | some revision => exact revision.distinct
  | none =>
    cases layer with
    | globals => exact distinct.globals
    | vars => exact distinct.vars
    | stepOutputs => exact distinct.stepOutputs

/-- The layers of a context under the names under which it lists them. -/
def layerFields (context : Context) : Fields Value :=
  [Layer.globals, .vars, .stepOutputs].map fun layer =>
    (layer.firstName, .ofFields (context.layer layer))

/-- The layers that are given anew, under their names. -/
def revisedFields (revisions : List Revision) : Fields Value :=
  revisions.map fun revision => (revision.name, .ofFields revision.fields)

/-- The fields of a revision have no name twice. -/
theorem nodup_keys_revisedFields (once : (revisions.map (·.layer)).Nodup) :
    (Fields.keys (revisedFields revisions)).Nodup := by
  have names : Fields.keys (revisedFields revisions) = revisions.map (·.name) := by
    unfold revisedFields Fields.keys
    rw [List.map_map]
    rfl
  rw [names]
  apply List.pairwise_map.mpr
  apply (List.pairwise_map.mp once).imp
  intro first second differ same
  exact differ (Layer.eq_of_mem_names first.named (same ▸ second.named))

/-- What a revision says under a name is what its first item of that name says. -/
theorem get?_revisedFields (revisions : List Revision) (name : String) :
    Fields.get? (revisedFields revisions) name =
      (revisions.find? (·.name == name)).map (.ofFields ·.fields) := by
  induction revisions with
  | nil => rfl
  | cons revision rest ih =>
    change Fields.get? ((revision.name, _) :: revisedFields rest) name = _
    rw [Fields.get?_cons, ih, List.find?_cons]
    by_cases same : name = revision.name
    · simp [same]
    · have differ : (revision.name == name) = false := by simpa using Ne.symm same
      rw [if_neg same, differ]

/-- Under the first name of a layer, the context with the update laid over it lists what the layer
is to hold. -/
theorem get?_overlay_revisedFields (once : (revisions.map (·.layer)).Nodup) (layer : Layer) :
    Fields.get? (Fields.overlay context.layerFields (revisedFields revisions)) layer.firstName =
      some (.ofFields (context.held revisions layer)) := by
  have listed : Fields.get? context.layerFields layer.firstName =
      some (.ofFields (context.layer layer)) := by
    cases layer <;> rfl
  rw [Fields.get?_overlay_of_nodup (nodup_keys_revisedFields once), get?_revisedFields, listed,
    held]
  cases revisions.find? (·.name == layer.firstName) <;> rfl

/-- The context with what an update leaves in each of its layers. -/
def revised (context : Context) (revisions : List Revision) : Context :=
  ⟨context.held revisions .globals, context.held revisions .vars,
    context.held revisions .stepOutputs⟩

/-- A revised context has in each layer what the layer holds after the revision. -/
theorem layer_revised (context : Context) (revisions : List Revision) (layer : Layer) :
    (context.revised revisions).layer layer = context.held revisions layer := by
  cases layer <;> rfl

/-- Replacing the layers of a context revises it. -/
theorem replaceLayers_eq (distinct : context.HasDistinctNames)
    (once : (revisions.map (·.layer)).Nodup) :
    context.replaceLayers (revisions.map (·.entry)) = .ok (context.revised revisions) := by
  have part (layer : Layer) : Schema.optional layer.names [] (Schema.fields Schema.any)
      (Value.fieldEntries (Fields.overlay context.layerFields (revisedFields revisions))) =
        .ok (context.held revisions layer) := by
    obtain ⟨others, names⟩ := layer.exists_names_eq_cons
    rw [names]
    apply Schema.optional_of_findName
    · apply Schema.findName_of_first
      rw [Value.lookupText_fieldEntries, get?_overlay_revisedFields once]
    · exact Schema.fields_any_ofFields (nodup_keys_held distinct)
  have given : revisions.map (·.entry) = Value.fieldEntries (revisedFields revisions) := by
    unfold revisedFields Value.fieldEntries
    rw [List.map_map]
    rfl
  have listed : context.entries = Value.fieldEntries context.layerFields := rfl
  unfold replaceLayers
  rw [given, listed, Value.foldl_setEntry_fieldEntries, Checked.outcome_eq_ok, check]
  simp only [Checked.and_eq_ok]
  exact ⟨_, _, ⟨_, _, ⟨_, _, rfl, part .globals, rfl⟩, part .vars, rfl⟩, part .stepOutputs, rfl⟩

end Revisions
end Context

namespace Catalog

open Context

variable {catalog : Catalog} {revisions : List Revision}

/-- **Which updates are kept.** An update that gives layers of the live context anew, none of them
twice, is accepted and leaves the definitions alone. A layer holds afterwards what it was given
under the name under which the context lists it; given under its other name, it holds what it held.
So the update is kept exactly if every layer that is named in the other way was given what it holds
already. -/
theorem updateContext_revised_iff (distinct : catalog.context.HasDistinctNames)
    (once : (revisions.map (·.layer)).Nodup) :
    ∃ next, catalog.perform (.updateContext (revisions.map (·.entry))) = (.ok .done, next) ∧
      next.definitions = catalog.definitions ∧
      (∀ revision ∈ revisions, next.context.layer revision.layer =
        if revision.name = revision.layer.firstName then revision.fields
        else catalog.context.layer revision.layer) ∧
      (catalog.context.Revised next.context revisions ↔
        ∀ revision ∈ revisions, revision.name = revision.layer.firstName ∨
          revision.fields = catalog.context.layer revision.layer) := by
  refine ⟨{ catalog with context := catalog.context.revised revisions }, ?_, rfl, ?_⟩
  · simp only [perform, updateContext, replaceLayers_eq distinct once]
    rfl
  have named : ∀ revision ∈ revisions,
      (catalog.context.revised revisions).layer revision.layer =
        if revision.name = revision.layer.firstName then revision.fields
        else catalog.context.layer revision.layer := by
    intro revision member
    rw [layer_revised]
    split_ifs with first
    · exact held_of_firstName once member first
    · apply held_of_not_firstName
      intro other also same
      rw [List.inj_on_of_nodup_map once also member same]
      exact first
  refine ⟨named, fun kept revision member => ?_, fun known => ⟨?_, ?_⟩⟩
  · have given := kept.named revision member
    rw [named revision member] at given
    split_ifs at given with first
    · exact .inl first
    · exact .inr given.symm
  · intro revision member
    rw [named revision member]
    split_ifs with first
    · rfl
    · exact ((known revision member).resolve_left first).symm
  · intro layer free
    rw [layer_revised]
    apply held_of_not_firstName
    intro revision member same
    exact absurd same (free revision member)

/-- Variables and globals are given anew beside the outputs of steps. -/
theorem updateContext_revised_iff_beside :
    let catalog : Catalog := ⟨[], ⟨[("a", .int 1)], [("b", .int 2)], [("s", .int 3)]⟩⟩
    let revisions : List Revision :=
      [⟨.vars, "variables", by decide, [("c", .int 4)], by decide⟩,
        ⟨.globals, "global_variables", by decide, [], by decide⟩]
    ∃ next, catalog.perform (.updateContext (revisions.map (·.entry))) = (.ok .done, next) ∧
      catalog.context.Revised next.context revisions := by
  intro catalog revisions
  have distinct : catalog.context.HasDistinctNames := ⟨by decide, by decide, by decide⟩
  obtain ⟨next, performed, -, -, kept⟩ :=
    @updateContext_revised_iff catalog revisions distinct (by decide)
  refine ⟨next, performed, kept.mpr ?_⟩
  simp only [revisions, List.forall_mem_cons]
  exact ⟨.inl rfl, .inl rfl, fun _ => nofun⟩

/-- Globals that are given under their other name are not in the context afterwards. -/
theorem updateContext_lost :
    let revision : Revision :=
      ⟨.globals, "globalVariables", by decide, [("a", .int 1)], by decide⟩
    Catalog.empty.perform (.updateContext [revision.entry]) = (.ok .done, .empty) ∧
      ¬ Catalog.empty.context.Revised Catalog.empty.context [revision] := by
  intro revision
  refine ⟨rfl, fun kept => ?_⟩
  have given := kept.named revision (List.mem_singleton_self _)
  cases given

end Catalog
end Stencil
