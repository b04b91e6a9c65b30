import Mathlib.Tactic.SplitIfs
import Stencil.Proofs.Fields
import Stencil.Transform.Builtin
import Stencil.Transform.Operation

/-!
# Registries grow

An operation adds one transformation behind all others or leaves the registry as it is
(`Registry.perform_cases`). So a run of operations extends the registry by the transformations that
it accepts, in their order (`Registry.all_run`), and the transformations of a registry that was
grown from the empty one are listed under their own identifiers, no two under the same
(`Registry.IsIndexed.run`). What is registered once stays where it is (`Registry.Extends.get?`).
-/

namespace Stencil.Registry

variable {registry grown : Registry} {transformation : Transformation} {operation : Operation}

/-- A transformation is registered at the end if its id is accepted and new. -/
theorem register_eq_ok_iff :
    registry.register transformation = .ok grown ↔
      acceptsId transformation.id = true ∧ registry.has transformation.id = false ∧
        grown = ⟨registry.entries ++ [(transformation.id, transformation)]⟩ := by
  rw [register]
  split_ifs with refused taken
  · rw [Bool.not_eq_true'] at refused
    exact iff_of_false (fun accepted => by cases accepted) fun accepted => by
      rw [refused] at accepted
      cases accepted.1
  · exact iff_of_false (fun accepted => by cases accepted) fun accepted => by
      rw [taken] at accepted
      cases accepted.2.1
  · rw [Bool.not_eq_true', Bool.not_eq_false] at refused
    rw [Except.ok.injEq, eq_comm, and_iff_right refused, and_iff_right (Bool.not_eq_true _ ▸ taken)]

/-- The transformation that an operation adds to a registry, if it adds one. -/
def added? (registry : Registry) : Operation → Option Transformation
  | .register transformation =>
    match registry.register transformation with
    | .ok _ => some transformation
    | .error _ => none
  | _ => none

/-- The transformations that operations in a row add, in the order in which they do. -/
def accepted (registry : Registry) : List Operation → List Transformation
  | [] => []
  | operation :: rest =>
    (registry.added? operation).toList ++ accepted (registry.perform operation).2 rest

/-- What an operation makes of a registry: it adds a transformation under an identifier that is
free, or it leaves the registry as it is. -/
theorem perform_cases (registry : Registry) (operation : Operation) :
    (∃ transformation, registry.added? operation = some transformation ∧
      acceptsId transformation.id = true ∧ registry.has transformation.id = false ∧
      (registry.perform operation).2 =
        ⟨registry.entries ++ [(transformation.id, transformation)]⟩) ∨
    registry.added? operation = none ∧ (registry.perform operation).2 = registry := by
  cases operation with
  | register transformation =>
    rw [added?, perform]
    cases registered : registry.register transformation with
    | ok grown =>
      obtain ⟨allowed, free, same⟩ := register_eq_ok_iff.mp registered
      exact .inl ⟨transformation, rfl, allowed, free, same⟩
    | error fault => exact .inr ⟨rfl, rfl⟩
  | apply step value further => exact .inr ⟨rfl, rfl⟩
  | query query => exact .inr ⟨rfl, rfl⟩

theorem run_cons (registry : Registry) (operation : Operation) (rest : List Operation) :
    registry.run (operation :: rest) = (registry.perform operation).2.run rest :=
  rfl

theorem run_append (registry : Registry) (front back : List Operation) :
    registry.run (front ++ back) = (registry.run front).run back :=
  List.foldl_append

/-! ### Nothing is lost -/

/-- The entries of a registry are those of another one and further ones behind them. -/
def Extends (base grown : Registry) : Prop :=
  base.entries <+: grown.entries

theorem Extends.trans {base middle : Registry} (first : Extends base middle)
    (second : Extends middle grown) : Extends base grown :=
  List.IsPrefix.trans first second

/-- What is found in a registry is found in its extensions. -/
theorem Extends.get? {base : Registry} (extends_ : Extends base grown) {id : String}
    (found : base.get? id = some transformation) : grown.get? id = some transformation := by
  obtain ⟨further, same⟩ := extends_
  rw [Registry.get?, Fields.get?, ← same, List.lookup_append]
  rw [Registry.get?, Fields.get?] at found
  rw [found, Option.some_or]

/-- The registry behind an operation extends the one before it. -/
theorem extends_perform (registry : Registry) (operation : Operation) :
    Extends registry (registry.perform operation).2 := by
  rcases registry.perform_cases operation with ⟨transformation, -, -, -, same⟩ | ⟨-, same⟩
  · rw [same]
    exact List.prefix_append _ _
  · rw [same]
    exact List.prefix_refl _

/-- The registry behind a run of operations extends the one before it. -/
theorem extends_run (registry : Registry) (operations : List Operation) :
    Extends registry (registry.run operations) := by
  induction operations generalizing registry with
  | nil => exact List.prefix_refl _
  | cons operation rest ih => exact (extends_perform registry operation).trans (ih _)

/-- An operation adds one transformation at the end, or none. -/
theorem all_perform (registry : Registry) (operation : Operation) :
    (registry.perform operation).2.all = registry.all ++ (registry.added? operation).toList := by
  rcases registry.perform_cases operation with ⟨transformation, added, -, -, same⟩ | ⟨none, same⟩
  · rw [same, added, all, List.map_append]
    rfl
  · rw [same, none, Option.toList_none, List.append_nil]

/-- A run adds what it accepts behind what is there. -/
theorem all_run (registry : Registry) (operations : List Operation) :
    (registry.run operations).all = registry.all ++ registry.accepted operations := by
  induction operations generalizing registry with
  | nil => exact (List.append_nil _).symm
  | cons operation rest ih => rw [run_cons, ih, all_perform, accepted, List.append_assoc]

/-! ### Every transformation under its own identifier -/

/-- The transformations of a registry are listed under their own identifiers, which are allowed and
of which no two are the same. -/
structure IsIndexed (registry : Registry) : Prop where
  own : ∀ entry ∈ registry.entries, entry.1 = entry.2.id
  allowed : ∀ entry ∈ registry.entries, acceptsId entry.1 = true
  distinct : registry.ids.Nodup

namespace IsIndexed

theorem empty : Registry.empty.IsIndexed where
  own := by simp [Registry.empty]
  allowed := by simp [Registry.empty]
  distinct := .nil

/-- The ids of an indexed registry are those of its transformations. -/
theorem ids_eq (indexed : registry.IsIndexed) : registry.ids = registry.all.map (·.id) := by
  rw [ids, Fields.keys, all, List.map_map]
  exact List.map_congr_left indexed.own

/-- The transformation under an identifier is the first one that has it. -/
theorem get?_eq (indexed : registry.IsIndexed) (id : String) :
    registry.get? id = registry.all.find? (·.id == id) := by
  obtain ⟨entries⟩ := registry
  have own := indexed.own
  clear indexed
  induction entries with
  | nil => rfl
  | cons entry rest ih =>
    obtain ⟨key, transformation⟩ := entry
    obtain ⟨here, behind⟩ := List.forall_mem_cons.mp own
    have same : key = transformation.id := here
    rw [Registry.get?, Fields.get?_cons, all, List.map_cons, List.find?_cons, same]
    by_cases asked : id = transformation.id
    · rw [if_pos asked, asked, beq_self_eq_true]
    · rw [if_neg asked, beq_false_of_ne (Ne.symm asked)]
      exact ih behind

/-- An operation leaves a registry indexed. -/
theorem perform (indexed : registry.IsIndexed) (operation : Operation) :
    (registry.perform operation).2.IsIndexed := by
  rcases registry.perform_cases operation with ⟨transformation, -, allowed, free, same⟩ | ⟨-, same⟩
  · rw [same]
    refine ⟨?own, ?allowed, ?distinct⟩
    case own => exact List.forall_mem_append.mpr ⟨indexed.own, List.forall_mem_singleton.mpr rfl⟩
    case allowed =>
      exact List.forall_mem_append.mpr ⟨indexed.allowed, List.forall_mem_singleton.mpr allowed⟩
    case distinct =>
      have fresh : transformation.id ∉ registry.ids := fun listed => by
        rw [has, (Fields.has_iff_mem_keys _ _).mpr listed] at free
        cases free
      rw [ids, Fields.keys, List.map_append]
      refine List.nodup_append.mpr ⟨indexed.distinct, List.pairwise_singleton _ _, ?_⟩
      intro id listed other new same
      rw [same, List.mem_singleton.mp new] at listed
      exact fresh listed
  · rwa [same]

/-- A run of operations leaves a registry indexed. -/
theorem run (indexed : registry.IsIndexed) (operations : List Operation) :
    (registry.run operations).IsIndexed := by
  induction operations generalizing registry with
  | nil => exact indexed
  | cons operation rest ih => exact ih (indexed.perform operation)

end IsIndexed

/-! ### Where a registry begins -/

/-- A registry as it is made: empty, or with the built-in transformations. -/
inductive IsInitial : Registry → Prop
  | empty : IsInitial .empty
  | builtin (dateTemplate : String) : IsInitial (Builtin.registry dateTemplate)

/-- Transformations under allowed identifiers that are free are all accepted. -/
theorem run_register {further : List Transformation}
    (allowed : ∀ transformation ∈ further, acceptsId transformation.id = true)
    (distinct : (registry.ids ++ further.map (·.id)).Nodup) :
    registry.run (further.map .register) =
      ⟨registry.entries ++ further.map fun transformation =>
        (transformation.id, transformation)⟩ := by
  induction further generalizing registry with
  | nil => exact congrArg Registry.mk (List.append_nil _).symm
  | cons transformation rest ih =>
    rw [List.forall_mem_cons] at allowed
    have free : registry.has transformation.id = false := by
      refine Bool.eq_false_iff.mpr fun taken => ?_
      rw [has, Fields.has_iff_mem_keys] at taken
      exact (List.nodup_append.mp distinct).2.2 _ taken _ List.mem_cons_self rfl
    have apart : ((⟨registry.entries ++ [(transformation.id, transformation)]⟩ : Registry).ids ++
        rest.map (·.id)).Nodup := by
      rw [ids, Fields.keys, List.map_append, List.append_assoc]
      exact distinct
    rw [List.map_cons, run_cons, perform, register_eq_ok_iff.mpr ⟨allowed.1, free, rfl⟩]
    dsimp only
    rw [ih allowed.2 apart, List.append_assoc]
    rfl

/-- The registry with the built-in transformations is what registering them one by one makes. -/
theorem run_builtin (dateTemplate : String) :
    empty.run ((Builtin.all dateTemplate).map .register) = Builtin.registry dateTemplate := by
  have named : (Builtin.all dateTemplate).map (·.id) =
      ["uppercase", "lowercase", "capitalize", "trim", "truncate", "round", "abs", "join", "first",
        "last", "length", "dateFormat", "json", "number", "string", "default", "urlEncode",
        "base64"] := rfl
  have allowed : ∀ id ∈ (Builtin.all dateTemplate).map (·.id), acceptsId id = true := by
    rw [named]
    decide
  have distinct : (empty.ids ++ (Builtin.all dateTemplate).map (·.id)).Nodup := by
    rw [named]
    decide
  exact run_register (List.forall_mem_map.mp allowed) distinct

/-- A registry to begin with is indexed. -/
theorem IsInitial.isIndexed (initial : registry.IsInitial) : registry.IsIndexed := by
  cases initial with
  | empty => exact .empty
  | builtin dateTemplate =>
    rw [← run_builtin]
    exact IsIndexed.empty.run _

end Stencil.Registry
