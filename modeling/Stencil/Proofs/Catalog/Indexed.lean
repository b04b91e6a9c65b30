import Stencil.Catalog.Operation
import Stencil.Proofs.Workflow.Snapshot

/-!
# Operations keep a catalog indexed

A catalog lists each definition under its own identifier, once, and no identifier is empty
(`Catalog.IsIndexed`). `Catalog.perform_effect` says once what an operation can do to a catalog;
from it follow that operations keep the catalog indexed and which part of it each kind of operation
leaves alone. An operation that fails leaves all of it, but for one: a snapshot that was read and of
which an entry cannot be named has given the context anew by then (`Catalog.run_sound_iff`).
-/

namespace Stencil

open Outcome

namespace Definition

/-- An accepted definition has an id. -/
theorem id_ne_empty_of_check {entries : List (Value × Value)} {definition : Definition}
    (accepted : check entries = .ok definition) : definition.id ≠ "" := by
  -- The parts are checked from the last one backwards; the identifier is the first.
  obtain ⟨_, _, toSource, -, rfl⟩ := Checked.and_eq_ok.mp accepted
  obtain ⟨_, _, toSample, -, rfl⟩ := Checked.and_eq_ok.mp toSource
  obtain ⟨_, _, toDescription, -, rfl⟩ := Checked.and_eq_ok.mp toSample
  obtain ⟨_, _, toCategory, -, rfl⟩ := Checked.and_eq_ok.mp toDescription
  obtain ⟨_, _, toScope, -, rfl⟩ := Checked.and_eq_ok.mp toCategory
  obtain ⟨_, _, toKind, -, rfl⟩ := Checked.and_eq_ok.mp toScope
  obtain ⟨_, _, toPath, -, rfl⟩ := Checked.and_eq_ok.mp toKind
  obtain ⟨_, _, toName, -, rfl⟩ := Checked.and_eq_ok.mp toPath
  obtain ⟨_, _, toId, -, rfl⟩ := Checked.and_eq_ok.mp toName
  obtain ⟨_, id, built, idRead, rfl⟩ := Checked.and_eq_ok.mp toId
  cases built
  obtain ⟨entry, -, taken⟩ := Schema.exists_of_required idRead
  exact Schema.ne_empty_of_nonemptyText taken

/-- A definition whose fields were replaced has an id. -/
theorem id_ne_empty_of_replace {definition new : Definition} {updates : Fields Value}
    (accepted : definition.replace updates = .ok new) : new.id ≠ "" :=
  id_ne_empty_of_check (Checked.outcome_eq_ok.mp accepted)

end Definition

/-- The definitions of a workflow have identifiers that are not empty. -/
theorem Workflow.id_ne_empty {workflow : Workflow} {definition : Definition}
    (member : definition ∈ workflow.definitions) : definition.id ≠ "" := by
  rcases List.mem_append.mp member with trigger | declared
  · rw [triggerDefinitions] at trigger
    split at trigger
    · cases trigger
    · cases trigger
    · rw [List.mem_singleton.mp trigger]
      simp
  · obtain ⟨step, -, inStep⟩ := List.mem_flatMap.mp declared
    rcases List.mem_append.mp inStep with field | output
    · obtain ⟨field, -, rfl⟩ := List.mem_map.mp field
      simp [fieldDefinition, toString]
    · obtain ⟨output, -, rfl⟩ := List.mem_map.mp output
      simp [outputDefinition, toString]

/-- The definitions of a snapshot have identifiers that are not empty. -/
theorem Snapshot.id_ne_empty {snapshot : Snapshot} {definitions : List Definition}
    {definition : Definition} (made : snapshot.definitions = .ok definitions)
    (member : definition ∈ definitions) : definition.id ≠ "" := by
  obtain ⟨groups, taken, listed⟩ := bind_eq_ok.mp made
  cases listed
  obtain ⟨group, among, inGroup⟩ := List.mem_flatten.mp member
  obtain ⟨⟨stepId, output⟩, -, here⟩ := exists_of_mem_mapM taken among
  cases output with
  | map entries =>
    obtain ⟨⟨key, value⟩, -, named⟩ := exists_of_mem_mapM here inGroup
    obtain ⟨label, -, last⟩ := bind_eq_ok.mp named
    cases last
    simp [toString]
  | _ =>
    cases here
    cases inGroup

namespace Catalog

/-- A workflow is loaded by its definitions if its outputs can be named, and else not at all. -/
theorem loadWorkflow_eq_ok_iff {catalog next : Catalog} {workflow : Workflow} :
    catalog.loadWorkflow workflow = .ok next ↔
      workflow.isNamed = true ∧
        next = { catalog with definitions := index workflow.definitions } := by
  unfold loadWorkflow
  split
  · rename_i named
    exact ⟨fun loaded => ⟨named, (Except.ok.inj loaded).symm⟩,
      fun loaded => congrArg _ loaded.2.symm⟩
  · rename_i unnamed
    exact ⟨nofun, fun loaded => absurd loaded.1 unnamed⟩

/-- A snapshot is loaded by its context, and by its definitions if its keys can be named. -/
theorem loadSnapshot_cases (catalog : Catalog) (snapshot : Snapshot) :
    (∃ definitions, snapshot.definitions = .ok definitions ∧
      catalog.loadSnapshot snapshot = (.ok (), ⟨index definitions, snapshot.context⟩)) ∨
    ∃ fault, snapshot.definitions = .error fault ∧
      catalog.loadSnapshot snapshot =
        (.error fault, { catalog with context := snapshot.context }) := by
  rw [loadSnapshot]
  cases snapshot.definitions with
  | ok definitions => exact .inl ⟨definitions, rfl, rfl⟩
  | error fault => exact .inr ⟨fault, rfl, rfl⟩

/-- Whether definitions are listed under their own identifiers, none of them twice or empty. -/
structure IsIndexed (definitions : Fields Definition) : Prop where
  own : ∀ entry ∈ definitions, entry.1 = entry.2.id
  named : ∀ entry ∈ definitions, entry.1 ≠ ""
  distinct : (Fields.keys definitions).Nodup

theorem isIndexed_nil : IsIndexed [] where
  own := by simp
  named := by simp
  distinct := .nil

/-- A list of entries is indexed if each stands under the id of its definition. -/
theorem isIndexed_ofEntries {entries : List (String × Definition)}
    (own : ∀ entry ∈ entries, entry.1 = entry.2.id) (named : ∀ entry ∈ entries, entry.1 ≠ "") :
    IsIndexed (Fields.ofEntries entries) where
  own entry member := own entry (Fields.mem_of_mem_ofEntries member)
  named entry member := named entry (Fields.mem_of_mem_ofEntries member)
  distinct := Fields.nodup_keys_ofEntries entries

/-- The index of definitions with ids is indexed. -/
theorem isIndexed_index {definitions : List Definition}
    (named : ∀ definition ∈ definitions, definition.id ≠ "") : IsIndexed (index definitions) := by
  apply isIndexed_ofEntries
  · intro entry member
    obtain ⟨definition, -, rfl⟩ := List.mem_map.mp member
    rfl
  · intro entry member
    obtain ⟨definition, listed, rfl⟩ := List.mem_map.mp member
    exact named definition listed

theorem IsIndexed.append {definitions : Fields Definition} {definition : Definition}
    (indexed : IsIndexed definitions) (named : definition.id ≠ "")
    (fresh : definition.id ∉ Fields.keys definitions) :
    IsIndexed (definitions ++ [(definition.id, definition)]) where
  own := by
    intro entry member
    rcases List.mem_append.mp member with old | new
    · exact indexed.own entry old
    · rw [List.mem_singleton.mp new]
  named := by
    intro entry member
    rcases List.mem_append.mp member with old | new
    · exact indexed.named entry old
    · rwa [List.mem_singleton.mp new]
  distinct := by
    rw [← Fields.set_of_not_mem fresh]
    exact Fields.nodup_keys_set _ _ indexed.distinct

/-- What remains when an id is erased is indexed. -/
theorem IsIndexed.erase {definitions : Fields Definition} (indexed : IsIndexed definitions)
    (id : String) : IsIndexed (Fields.erase definitions id) where
  own entry member := indexed.own entry (List.mem_filter.mp member).1
  named entry member := indexed.named entry (List.mem_filter.mp member).1
  distinct := indexed.distinct.sublist (List.filter_sublist.map _)

/-- A definition can take the place of another one. -/
theorem IsIndexed.substitute {definitions : Fields Definition} {new : Definition}
    (indexed : IsIndexed definitions) (named : new.id ≠ "") (id : String) :
    IsIndexed (substitute definitions id new) := by
  apply isIndexed_ofEntries
  · intro entry member
    obtain ⟨⟨key, old⟩, listed, rfl⟩ := List.mem_map.mp member
    by_cases replaced : key = id
    · simp [replaced]
    · simpa [replaced] using indexed.own _ listed
  · intro entry member
    obtain ⟨⟨key, old⟩, listed, rfl⟩ := List.mem_map.mp member
    by_cases replaced : key = id
    · simpa [replaced] using named
    · simpa [replaced] using indexed.named _ listed

/-- An update that returns has checked the new definition and put it in. -/
theorem of_update {catalog next : Catalog} {id : String} {updates : Fields Value}
    {new : Definition} (updated : catalog.update id updates = .ok (new, next)) :
    ∃ old, catalog.get? id = some old ∧ old.replace updates = .ok new ∧
      next = { catalog with definitions := Catalog.substitute catalog.definitions id new } := by
  rw [update] at updated
  split at updated
  · rename_i old found
    obtain ⟨made, replaced, last⟩ := bind_eq_ok.mp updated
    cases last
    exact ⟨old, found, replaced, rfl⟩
  · cases updated

namespace Operation

/-- Whether an operation may change the live context. -/
def changesContext : Operation → Bool
  | .loadSnapshot _ | .setContext _ | .updateContext _ | .setValue .. => true
  | _ => false

/-- Whether an operation may change the definitions. -/
def changesDefinitions : Operation → Bool
  | .loadWorkflow _ | .loadSnapshot _ | .add .. | .remove _ | .update .. | .clear => true
  | _ => false

/-- Whether no integer in what an operation is given is too long to be named; only the outputs of
a snapshot are. -/
def IntegersFit : Operation → Prop
  | .loadSnapshot (.checked snapshot) => snapshot.IntegersFit
  | .loadSnapshot (.raw value) => value.integersFit = true
  | _ => True

/-- Whether an operation is to load a snapshot, and can read it. -/
def Reads (operation : Operation) (snapshot : Snapshot) : Prop :=
  ∃ given, operation = .loadSnapshot given ∧ given.load Snapshot.ofItems = .ok snapshot

variable {operation : Operation} {snapshot other : Snapshot}

/-- An operation reads one snapshot at most. -/
theorem Reads.eq (one : operation.Reads snapshot) (two : operation.Reads other) :
    other = snapshot := by
  obtain ⟨given, rfl, read⟩ := one
  obtain ⟨_, ⟨⟩, readToo⟩ := two
  exact Except.ok.inj (readToo.symm.trans read)

/-- The integers of a snapshot fit if those of the operation that reads it do. -/
theorem IntegersFit.of_reads (fit : operation.IntegersFit) (reads : operation.Reads snapshot) :
    snapshot.IntegersFit := by
  obtain ⟨given, rfl, read⟩ := reads
  cases given with
  | checked data =>
    cases read
    exact fit
  | raw value => exact Snapshot.integersFit_of_ofItems fit read

end Operation

/-- What an operation can do to a catalog. -/
inductive Effect (catalog : Catalog) : Operation → Catalog → Prop
  | none (operation : Operation) : Effect catalog operation catalog
  | loadWorkflow (given : Given Workflow) (workflow : Workflow) :
    Effect catalog (.loadWorkflow given)
      { catalog with definitions := index workflow.definitions }
  | loadSnapshot (given : Given Snapshot) (snapshot : Snapshot) :
    Effect catalog (.loadSnapshot given) (catalog.loadSnapshot snapshot).2
  | add (definition : Definition) (named : definition.id ≠ "")
    (fresh : definition.id ∉ catalog.ids) :
    Effect catalog (.add definition named)
      { catalog with definitions := catalog.definitions ++ [(definition.id, definition)] }
  | remove (id : String) :
    Effect catalog (.remove id)
      { catalog with definitions := Fields.erase catalog.definitions id }
  | update (id : String) (updates : Fields Value) (new : Definition) (named : new.id ≠ "") :
    Effect catalog (.update id updates)
      { catalog with definitions := substitute catalog.definitions id new }
  | clear : Effect catalog .clear catalog.clear
  | context (operation : Operation) (context : Context)
    (live : operation.changesContext = true) (apart : operation.changesDefinitions = false) :
    Effect catalog operation { catalog with context }

/-- A change that has an effect when it succeeds has one whatever comes of it. -/
theorem changed_effect {catalog : Catalog} {operation : Operation}
    {change : Outcome (Reply × Catalog)}
    (effect : ∀ reply next, change = .ok (reply, next) → Effect catalog operation next) :
    Effect catalog operation (catalog.changed change).2 := by
  cases change with
  | error fault => exact .none operation
  | ok done => exact effect done.1 done.2 rfl

/-- A change that gives the context anew has no other effect. -/
theorem changed_context_effect {catalog : Catalog} {operation : Operation}
    {change : Outcome Catalog} (live : operation.changesContext = true)
    (apart : operation.changesDefinitions = false)
    (made : ∀ next, change = .ok next → ∃ context, next = { catalog with context }) :
    Effect catalog operation (catalog.changed do return (.done, ← change)).2 := by
  refine changed_effect fun reply next done => ?_
  obtain ⟨set, taken, last⟩ := bind_eq_ok.mp done
  obtain ⟨context, rfl⟩ := made set taken
  cases last
  exact .context operation context live apart

/-- An operation does to a catalog what an operation of its kind can do. -/
theorem perform_effect (catalog : Catalog) (operation : Operation) :
    Effect catalog operation (catalog.perform operation).2 := by
  cases operation with
  | loadWorkflow given =>
    refine changed_effect fun reply next made => ?_
    obtain ⟨workflow, -, loaded⟩ := bind_eq_ok.mp made
    obtain ⟨after, taken, last⟩ := bind_eq_ok.mp loaded
    cases last
    obtain ⟨-, rfl⟩ := loadWorkflow_eq_ok_iff.mp taken
    exact .loadWorkflow given workflow
  | loadSnapshot given =>
    rw [perform]
    cases given.load Snapshot.ofItems with
    | error fault => exact .none _
    | ok snapshot => exact .loadSnapshot given snapshot
  | add definition named =>
    refine changed_effect fun reply next made => ?_
    obtain ⟨grown, accepted, last⟩ := bind_eq_ok.mp made
    cases last
    rw [Catalog.add] at accepted
    split at accepted
    · cases accepted
    · rename_i absent
      cases accepted
      exact .add definition named fun known => absent ((Fields.has_iff_mem_keys _ _).mpr known)
  | remove id =>
    refine changed_effect fun reply next made => ?_
    obtain ⟨⟨removed, rest⟩, taken, last⟩ := bind_eq_ok.mp made
    cases last
    rw [Catalog.remove] at taken
    split at taken
    · cases taken
      exact .remove id
    · cases taken
  | update id updates =>
    refine changed_effect fun reply next made => ?_
    obtain ⟨⟨updated, rest⟩, taken, last⟩ := bind_eq_ok.mp made
    cases last
    obtain ⟨old, -, replaced, rfl⟩ := of_update taken
    exact .update id updates updated (Definition.id_ne_empty_of_replace replaced)
  | clear => exact .clear
  | setContext given =>
    cases given with
    | checked context => exact .context _ context rfl rfl
    | raw value =>
      refine changed_context_effect rfl rfl fun next made => ?_
      obtain ⟨context, -, same⟩ := bind_eq_ok.mp made
      exact ⟨context, (Except.ok.inj same).symm⟩
  | updateContext updates =>
    refine changed_context_effect rfl rfl fun next made => ?_
    obtain ⟨context, -, same⟩ := bind_eq_ok.mp made
    exact ⟨context, (Except.ok.inj same).symm⟩
  | setValue path value =>
    refine changed_context_effect rfl rfl fun next made => ?_
    rw [Catalog.setValue] at made
    split at made
    · cases made
    · exact ⟨_, (Except.ok.inj made).symm⟩
  | query query => exact .none _

namespace Effect

variable {catalog next : Catalog} {operation : Operation}

/-- An effect leaves the definitions indexed. -/
theorem isIndexed (effect : Effect catalog operation next)
    (indexed : IsIndexed catalog.definitions) : IsIndexed next.definitions := by
  cases effect with
  | none => exact indexed
  | loadWorkflow given workflow => exact isIndexed_index fun _ => Workflow.id_ne_empty
  | loadSnapshot given snapshot =>
    rw [Catalog.loadSnapshot]
    split
    · rename_i made
      exact isIndexed_index fun _ => Snapshot.id_ne_empty made
    · exact indexed
  | add definition named fresh => exact indexed.append named fresh
  | remove id => exact indexed.erase id
  | update id updates new named => exact indexed.substitute named id
  | clear => exact isIndexed_nil
  | context => exact indexed

/-- An operation that is not about the context leaves the context as it is. -/
theorem context_eq (effect : Effect catalog operation next)
    (apart : operation.changesContext = false) : next.context = catalog.context := by
  cases effect with
  | loadSnapshot => cases apart
  | context _ _ live => rw [apart] at live; cases live
  | _ => rfl

/-- An operation that is not about the definitions leaves the definitions as they are. -/
theorem definitions_eq (effect : Effect catalog operation next)
    (apart : operation.changesDefinitions = false) : next.definitions = catalog.definitions := by
  cases effect with
  | none => rfl
  | context => rfl
  | _ => cases apart

end Effect

/-- A change that fails leaves the catalog as it is. -/
theorem changed_of_error {catalog : Catalog} {change : Outcome (Reply × Catalog)} {fault : Fault}
    (failed : (catalog.changed change).1 = .error fault) :
    (catalog.changed change).2 = catalog := by
  cases change with
  | error fault => rfl
  | ok done => cases failed

/-- An operation to load a snapshot that it can read succeeds exactly if the keys can be named. -/
theorem perform_succeeds_iff {catalog : Catalog} {operation : Operation} {snapshot : Snapshot}
    (reads : operation.Reads snapshot) :
    Succeeds (catalog.perform operation).1 ↔ snapshot.Labelled := by
  obtain ⟨given, rfl, read⟩ := reads
  rw [← Snapshot.definitions_succeed_iff, perform, read]
  dsimp only
  obtain ⟨definitions, made, loaded⟩ | ⟨fault, failed, loaded⟩ :=
    catalog.loadSnapshot_cases snapshot
  · rw [loaded, made]
    exact iff_of_true (succeeds_ok _) (succeeds_ok _)
  · rw [loaded, failed]
    exact iff_of_false (not_succeeds_error _) (not_succeeds_error _)

/-- An operation that fails leaves the catalog as it is, or has given the context of a snapshot that
it could read. -/
theorem perform_of_error (catalog : Catalog) {operation : Operation} {fault : Fault}
    (failed : (catalog.perform operation).1 = .error fault) :
    ((∀ snapshot, ¬ operation.Reads snapshot) ∧ (catalog.perform operation).2 = catalog) ∨
      ∃ snapshot, operation.Reads snapshot ∧
        (catalog.perform operation).2 = { catalog with context := snapshot.context } := by
  have other (apart : ∀ given, operation ≠ .loadSnapshot given) (snapshot : Snapshot) :
      ¬ operation.Reads snapshot := fun ⟨given, same, _⟩ => apart given same
  cases operation with
  | loadSnapshot given =>
    cases read : given.load Snapshot.ofItems with
    | error fault =>
      refine .inl ⟨?_, by rw [perform, read]⟩
      rintro snapshot ⟨_, ⟨⟩, taken⟩
      cases read.symm.trans taken
    | ok snapshot =>
      refine .inr ⟨snapshot, ⟨given, rfl, read⟩, ?_⟩
      rw [perform, read] at failed ⊢
      dsimp only at failed ⊢
      obtain ⟨definitions, -, loaded⟩ | ⟨early, -, loaded⟩ := catalog.loadSnapshot_cases snapshot
      · rw [loaded] at failed
        cases failed
      · rw [loaded]
  | clear => cases failed
  | setContext given =>
    cases given with
    | checked context => cases failed
    | raw value => exact .inl ⟨other nofun, changed_of_error failed⟩
  | query query => exact .inl ⟨other nofun, rfl⟩
  | _ => exact .inl ⟨other nofun, changed_of_error failed⟩

/-- What an operation leaves of a catalog as it is. One that fails leaves the definitions, and all
of the catalog unless it has read a snapshot with another context; with such a snapshot it fails
exactly if a key of an output is no text of characters. -/
structure Keeps (catalog : Catalog) (operation : Operation) : Prop where
  failed : ∀ fault, (catalog.perform operation).1 = .error fault →
    (catalog.perform operation).2.definitions = catalog.definitions ∧
      ((catalog.perform operation).2 = catalog ↔
        ∀ snapshot, operation.Reads snapshot → snapshot.context = catalog.context)
  refused : ∀ snapshot, operation.Reads snapshot →
    (Succeeds (catalog.perform operation).1 ↔ ¬ snapshot.HasHalvedKey)
  context : operation.changesContext = false →
    (catalog.perform operation).2.context = catalog.context
  definitions : operation.changesDefinitions = false →
    (catalog.perform operation).2.definitions = catalog.definitions
  asked : ∀ query, operation = .query query → (catalog.perform operation).2 = catalog

/-- A failed operation keeps the definitions, and the context unless it has read a snapshot. -/
theorem keeps_failed (catalog : Catalog) {operation : Operation} {fault : Fault}
    (failed : (catalog.perform operation).1 = .error fault) :
    (catalog.perform operation).2.definitions = catalog.definitions ∧
      ((catalog.perform operation).2 = catalog ↔
        ∀ snapshot, operation.Reads snapshot → snapshot.context = catalog.context) := by
  obtain ⟨none, same⟩ | ⟨snapshot, reads, left⟩ := catalog.perform_of_error failed
  · rw [same]
    exact ⟨rfl, iff_of_true rfl fun snapshot reads => absurd reads (none snapshot)⟩
  · rw [left]
    refine ⟨rfl, fun same other readsToo => ?_, fun each => ?_⟩
    · rw [reads.eq readsToo]
      exact congrArg Catalog.context same
    · rw [each snapshot reads]

/-- A run of operations leaves the definitions indexed. -/
theorem run_isIndexed (catalog : Catalog) (operations : List Operation)
    (indexed : IsIndexed catalog.definitions) : IsIndexed (catalog.run operations).definitions := by
  induction operations generalizing catalog with
  | nil => exact indexed
  | cons operation rest ih => exact ih _ ((perform_effect catalog operation).isIndexed indexed)

/-- **Operations keep a catalog sound, but for one that fails half-way.** After any operations on
the empty catalog the definitions are listed under their own identifiers, which are distinct and not
empty. The next operation leaves the context when it is about the definitions, and the definitions
when it is about the context. When it fails it leaves the catalog as it is, unless it loads a
snapshot with a key that is no text of characters: then the context is that of the snapshot. -/
theorem run_sound_iff (operations : List Operation) :
    IsIndexed (run .empty operations).definitions ∧
      ∀ operation : Operation, operation.IntegersFit → (run .empty operations).Keeps operation := by
  refine ⟨run_isIndexed .empty operations isIndexed_nil, fun operation fit => ?_⟩
  have effect := perform_effect (run .empty operations) operation
  exact {
    failed := fun _ failed => keeps_failed _ failed
    refused := fun snapshot reads =>
      (perform_succeeds_iff reads).trans (Snapshot.labelled_iff (fit.of_reads reads))
    context := effect.context_eq
    definitions := effect.definitions_eq
    asked := by
      rintro query rfl
      rfl }

end Catalog

/-- The half of a surrogate pair that comes first, as a text. -/
def Text.Halved.first : Text.Halved :=
  ⟨[.half 0], rfl⟩

/-- A snapshot in which the output of a step has the half of a surrogate pair as its key. -/
def Snapshot.ofHalvedKey : Snapshot where
  vars := []
  steps := [⟨"s", .map [(.halved .first, .int 1)]⟩]
  globals := []

namespace Catalog

/-- A value is set, and then a snapshot is loaded of which an entry cannot be named. -/
theorem run_sound_iff_halved :
    let operations : List Operation := [.setValue "x" (.int 1)]
    let loading : Operation := .loadSnapshot (.checked .ofHalvedKey)
    loading.IntegersFit ∧ IsIndexed (run .empty operations).definitions ∧
      (run .empty operations).Keeps loading := by
  intro operations loading
  have fit : loading.IntegersFit := by
    refine List.forall_mem_singleton.mpr ?_
    decide +kernel
  exact ⟨fit, (run_sound_iff operations).1, (run_sound_iff operations).2 loading fit⟩

/-- A snapshot of which an entry cannot be named is refused, but its context has taken the place of
the one before. -/
theorem perform_ofHalvedKey :
    let before := run .empty [.setValue "x" (.int 1)]
    let record : Value := .map [(.text "stepId", .text "s"),
      (.text "output", .map [(.halved .first, .int 1)])]
    let (reply, after) :=
      before.perform (.loadSnapshot (.raw (.map [(.text "steps", .list [record])])))
    reply.toOption.isNone ∧ before.context.vars = [("x", .int 1)] ∧ after.context.vars = [] := by
  exact ⟨rfl, rfl, rfl⟩

end Catalog
end Stencil
