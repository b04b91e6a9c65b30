import Mathlib.Data.List.Basic
import Stencil.Proofs.Catalog.Indexed

/-!
# Variables that are declared and listed

A catalog that was loaded should list the variables that its workflow or snapshot declares, by their
paths (`Workflow.Covered`, `Snapshot.Covered`). It lists no others, but variables of different
sources can share an identifier, and then only the last of them is listed. That happens exactly
where the name of one source, with a hyphen behind it, leads the name of another
(`Catalog.covered_iff`).
-/

namespace Stencil

open Outcome

namespace Workflow

/-- A path that a workflow declares. -/
inductive Declares (workflow : Workflow) : String → Prop
  | trigger (given : ∃ entry entries, workflow.trigger = some (entry :: entries)) :
    Declares workflow "trigger"
  | field {step : WorkflowStep} (steps : step ∈ workflow.steps) {field : FormField}
    (fields : field ∈ step.formFields) : Declares workflow s!"form.{field.id}"
  | output {step : WorkflowStep} (steps : step ∈ workflow.steps) {output : String × Kind}
    (outputs : output ∈ step.outputs) : Declares workflow s!"{step.id}.{output.1}"

end Workflow

namespace Snapshot

/-- Whether a path is that of an entry of a step's last output. -/
def Declares (snapshot : Snapshot) (path : String) : Prop :=
  ∃ stepId entries key value label, snapshot.lastOutput? stepId = some (.map entries) ∧
    (key, value) ∈ entries ∧ entryName key = .ok label ∧ path = s!"{stepId}.{label}"

end Snapshot

namespace Catalog

/-- The paths that a catalog lists. -/
def paths (catalog : Catalog) : List String :=
  catalog.all.map (·.path)

/-- A name with a hyphen behind it leads another name. -/
def Leads (name other : String) : Prop :=
  ∃ rest : String, other = s!"{name}-{rest}"

section Index

variable {definitions : List Definition} {path : String}

/-- The definitions that a catalog lists under their identifiers are among those it was made of. -/
theorem mem_of_mem_index {entry : String × Definition} (member : entry ∈ index definitions) :
    entry.1 = entry.2.id ∧ entry.2 ∈ definitions := by
  obtain ⟨definition, listed, rfl⟩ := List.mem_map.mp (Fields.mem_of_mem_ofEntries member)
  exact ⟨rfl, listed⟩

/-- The paths of an index are paths of the indexed definitions. -/
theorem mem_paths_of_index (member : path ∈ (index definitions).map (·.2.path)) :
    ∃ definition ∈ definitions, definition.path = path := by
  obtain ⟨entry, inside, rfl⟩ := List.mem_map.mp member
  exact ⟨entry.2, (mem_of_mem_index inside).2, rfl⟩

/-- Every path is listed if definitions under one identifier have one path. -/
theorem mem_paths_index_iff (agree : ∀ first ∈ definitions, ∀ second ∈ definitions,
    first.id = second.id → first.path = second.path) :
    path ∈ (index definitions).map (·.2.path) ↔
      ∃ definition ∈ definitions, definition.path = path := by
  refine ⟨mem_paths_of_index, ?_⟩
  rintro ⟨definition, listed, rfl⟩
  have known : definition.id ∈ Fields.keys (index definitions) := by
    rw [index, Fields.mem_keys_ofEntries, Fields.keys, List.map_map]
    exact List.mem_map_of_mem listed
  obtain ⟨entry, inside, same⟩ := List.mem_map.mp known
  obtain ⟨own, among⟩ := mem_of_mem_index inside
  refine List.mem_map.mpr ⟨entry, inside, ?_⟩
  exact agree entry.2 among definition listed (own.symm.trans same)

end Index

section Source

/-- A definition has the identifier and the path of a key of some source. -/
structure IsOf (definition : Definition) (source key : String) : Prop where
  id : definition.id = s!"{source}-{key}"
  path : definition.path = s!"{source}.{key}"

variable {source other key label : String}

/-- An identifier determines the source and the key that it is made of, unless one source leads
another. -/
theorem eq_of_id_eq (same : s!"{source}-{key}" = s!"{other}-{label}") :
    source = other ∧ key = label ∨ Leads source other ∨ Leads other source := by
  have chars : source.toList ++ '-' :: key.toList = other.toList ++ '-' :: label.toList := by
    simpa [toString] using congrArg String.toList same
  rcases List.append_eq_append_iff.mp chars with ⟨middle, longer, rest⟩ | ⟨middle, longer, rest⟩
  · cases middle with
    | nil =>
      rw [List.append_nil] at longer
      rw [List.nil_append, List.cons.injEq] at rest
      exact .inl ⟨String.toList_inj.mp longer.symm, String.toList_inj.mp rest.2⟩
    | cons c middle =>
      obtain ⟨rfl, -⟩ := List.cons.inj rest
      refine .inr (.inl ⟨String.ofList middle, String.toList_inj.mp ?_⟩)
      simp [longer, toString]
  · cases middle with
    | nil =>
      rw [List.append_nil] at longer
      rw [List.nil_append, List.cons.injEq] at rest
      exact .inl ⟨String.toList_inj.mp longer, String.toList_inj.mp rest.2.symm⟩
    | cons c middle =>
      obtain ⟨rfl, -⟩ := List.cons.inj rest
      refine .inr (.inr ⟨String.ofList middle, String.toList_inj.mp ?_⟩)
      simp [longer, toString]

/-- Where one source leads another, variables of the two share an identifier but no path. -/
theorem id_eq_of_leads (source rest key : String) :
    let inner := s!"{rest}-{key}"
    let outer := s!"{source}-{rest}"
    s!"{source}-{inner}" = s!"{outer}-{key}" ∧ s!"{source}.{inner}" ≠ s!"{outer}.{key}" := by
  constructor
  · simp [toString, String.append_assoc]
  · intro same
    have chars := congrArg String.toList same
    simp [toString] at chars

/-- Of two sources that do not lead each other, definitions with one id have one path. -/
theorem IsOf.path_eq {first second : Definition} (one : IsOf first source key)
    (two : IsOf second other label) (apart : ¬ Leads source other)
    (apartBack : ¬ Leads other source) (same : first.id = second.id) :
    first.path = second.path := by
  rw [one.id, two.id] at same
  obtain ⟨rfl, rfl⟩ | leads | leads := eq_of_id_eq same
  · rw [one.path, two.path]
  · exact absurd leads apart
  · exact absurd leads apartBack

/-- No source and key make the identifier of the trigger. -/
theorem id_ne_trigger : s!"{source}-{key}" ≠ "trigger" := by
  intro same
  have hyphen : '-' ∈ s!"{source}-{key}".toList := by simp [toString]
  rw [same] at hyphen
  revert hyphen
  decide

end Source

end Catalog

namespace Workflow

open Catalog

variable {workflow : Workflow} {definition : Definition} {path : String}

/-- A trigger has a definition if it is not empty. -/
theorem given_of_mem_triggerDefinitions (member : definition ∈ workflow.triggerDefinitions) :
    (∃ entry entries, workflow.trigger = some (entry :: entries)) ∧
      definition.id = "trigger" ∧ definition.path = "trigger" := by
  rw [triggerDefinitions] at member
  cases given : workflow.trigger with
  | none =>
    rw [given] at member
    cases member
  | some entries =>
    cases entries with
    | nil =>
      rw [given] at member
      cases member
    | cons entry entries =>
      rw [given] at member
      rw [List.mem_singleton.mp member]
      exact ⟨⟨entry, entries, rfl⟩, rfl, rfl⟩

/-- A definition of a workflow is that of its trigger, of a form field or of an output. -/
theorem cases_of_mem_definitions (member : definition ∈ workflow.definitions) :
    definition ∈ workflow.triggerDefinitions ∨
      ∃ step ∈ workflow.steps,
        (∃ field ∈ step.formFields, fieldDefinition step field = definition) ∨
        ∃ output ∈ step.outputs, outputDefinition step output = definition := by
  refine (List.mem_append.mp member).imp_right fun declared => ?_
  obtain ⟨step, listed, inStep⟩ := List.mem_flatMap.mp declared
  exact ⟨step, listed, (List.mem_append.mp inStep).imp List.mem_map.mp List.mem_map.mp⟩

/-- The definitions of a workflow have the paths that it declares. -/
theorem exists_definition_iff :
    (∃ definition ∈ workflow.definitions, definition.path = path) ↔ workflow.Declares path := by
  constructor
  · rintro ⟨definition, member, rfl⟩
    obtain trigger | ⟨step, listed, ⟨field, fields, rfl⟩ | ⟨output, outputs, rfl⟩⟩ :=
      cases_of_mem_definitions member
    · obtain ⟨given, -, same⟩ := given_of_mem_triggerDefinitions trigger
      rw [same]
      exact .trigger given
    · exact .field listed fields
    · exact .output listed outputs
  · intro declares
    cases declares with
    | trigger given =>
      obtain ⟨entry, entries, given⟩ := given
      have trigger : workflow.triggerDefinitions.map (·.path) = ["trigger"] := by
        rw [triggerDefinitions, given]
        rfl
      obtain ⟨definition, member, same⟩ :=
        List.mem_map.mp (trigger ▸ List.mem_singleton_self "trigger")
      exact ⟨definition, List.mem_append_left _ member, same⟩
    | @field step listed field fields =>
      refine ⟨fieldDefinition step field, List.mem_append_right _ ?_, rfl⟩
      exact List.mem_flatMap.mpr ⟨step, listed, List.mem_append_left _ (List.mem_map_of_mem fields)⟩
    | @output step listed output outputs =>
      refine ⟨outputDefinition step output, List.mem_append_right _ ?_, rfl⟩
      exact List.mem_flatMap.mpr
        ⟨step, listed, List.mem_append_right _ (List.mem_map_of_mem outputs)⟩

/-- A definition of a workflow is that of its trigger or of a key of the form or of a step. -/
theorem isOf_of_mem_definitions (member : definition ∈ workflow.definitions) :
    (definition.id = "trigger" ∧ definition.path = "trigger") ∨
      ∃ source key, IsOf definition source key ∧
        (source = "form" ∨ ∃ step ∈ workflow.steps, step.id = source) := by
  obtain trigger | ⟨step, listed, ⟨field, -, rfl⟩ | ⟨output, -, rfl⟩⟩ :=
    cases_of_mem_definitions member
  · exact .inl (given_of_mem_triggerDefinitions trigger).2
  · exact .inr ⟨"form", field.id, ⟨rfl, rfl⟩, .inl rfl⟩
  · exact .inr ⟨step.id, output.1, ⟨rfl, rfl⟩, .inr ⟨step, listed, rfl⟩⟩

/-- Whether a workflow can be loaded, and a catalog then lists exactly the paths that it
declares. -/
def Covered (workflow : Workflow) : Prop :=
  ∀ catalog : Catalog, ∃ next, catalog.loadWorkflow workflow = .ok next ∧
    ∀ path, path ∈ next.paths ↔ workflow.Declares path

/-- The names of a covered workflow are texts of characters. -/
theorem isNamed_of_covered (covered : workflow.Covered) : workflow.isNamed = true := by
  obtain ⟨next, loaded, -⟩ := covered .empty
  exact (loadWorkflow_eq_ok_iff.mp loaded).1

/-- A workflow is covered if none of its sources leads another. -/
theorem covered_of_not_leads (named : workflow.isNamed = true) (apart : ∀ source other,
    (source = "form" ∨ ∃ step ∈ workflow.steps, step.id = source) →
      (other = "form" ∨ ∃ step ∈ workflow.steps, step.id = other) → ¬ Leads source other) :
    workflow.Covered := by
  refine fun catalog => ⟨_, loadWorkflow_eq_ok_iff.mpr ⟨named, rfl⟩, fun path => ?_⟩
  rw [Catalog.paths, all, List.map_map, ← exists_definition_iff]
  refine mem_paths_index_iff fun first firstIn second secondIn same => ?_
  obtain ⟨firstId, firstPath⟩ | ⟨source, key, one, known⟩ := isOf_of_mem_definitions firstIn
  · obtain ⟨-, secondPath⟩ | ⟨other, label, two, -⟩ := isOf_of_mem_definitions secondIn
    · rw [firstPath, secondPath]
    · rw [firstId, two.id] at same
      exact absurd same.symm id_ne_trigger
  · obtain ⟨secondId, -⟩ | ⟨other, label, two, knownToo⟩ := isOf_of_mem_definitions secondIn
    · rw [secondId, one.id] at same
      exact absurd same id_ne_trigger
    · exact one.path_eq two (apart _ _ known knownToo) (apart _ _ knownToo known) same

end Workflow

namespace Snapshot

open Catalog

variable {snapshot : Snapshot} {definitions : List Definition} {definition : Definition}
  {path : String}

/-- The definitions of a snapshot are those of the entries of its outputs. -/
theorem mem_definitions_iff (made : snapshot.definitions = .ok definitions) :
    definition ∈ definitions ↔ ∃ stepId entries key value,
      snapshot.lastOutput? stepId = some (.map entries) ∧ (key, value) ∈ entries ∧
        entryDefinition stepId key value = .ok definition := by
  obtain ⟨groups, taken, last⟩ := bind_eq_ok.mp made
  cases last
  rw [List.mem_flatten]
  constructor
  · rintro ⟨group, among, inGroup⟩
    obtain ⟨⟨stepId, output⟩, recorded, here⟩ := (mem_mapM_iff taken).mp among
    cases output with
    | map entries =>
      obtain ⟨⟨key, value⟩, inside, named⟩ := (mem_mapM_iff here).mp inGroup
      exact ⟨stepId, entries, key, value, mem_outputs_iff.mp recorded, inside, named⟩
    | _ =>
      cases here
      cases inGroup
  · rintro ⟨stepId, entries, key, value, recorded, inside, named⟩
    obtain ⟨group, here, among⟩ := exists_of_mapM_mem taken (mem_outputs_iff.mpr recorded)
    exact ⟨group, among, (mem_mapM_iff here).mpr ⟨(key, value), inside, named⟩⟩

/-- The definition of an entry is that of its step and its label. -/
theorem exists_isOf {stepId : String} {key value : Value}
    (named : entryDefinition stepId key value = .ok definition) :
    ∃ label, entryName key = .ok label ∧ IsOf definition stepId label := by
  obtain ⟨label, labelled, same⟩ := bind_eq_ok.mp named
  cases same
  exact ⟨label, labelled, rfl, rfl⟩

/-- The definitions of a snapshot have the paths that it declares. -/
theorem exists_definition_iff (made : snapshot.definitions = .ok definitions) :
    (∃ definition ∈ definitions, definition.path = path) ↔ snapshot.Declares path := by
  constructor
  · rintro ⟨definition, member, rfl⟩
    obtain ⟨stepId, entries, key, value, last, inside, named⟩ :=
      (mem_definitions_iff made).mp member
    obtain ⟨label, labelled, one⟩ := exists_isOf named
    exact ⟨stepId, entries, key, value, label, last, inside, labelled, one.path⟩
  · rintro ⟨stepId, entries, key, value, label, last, inside, labelled, rfl⟩
    have named : entryDefinition stepId key value = .ok ⟨s!"{stepId}-{label}", label,
        s!"{stepId}.{label}", value.kind, .step, some .step, none, none, some stepId, value⟩ :=
      bind_eq_ok.mpr ⟨label, labelled, rfl⟩
    exact ⟨_, (mem_definitions_iff made).mpr
      ⟨stepId, entries, key, value, last, inside, named⟩, rfl⟩

/-- A definition of a snapshot is that of a key of a step. -/
theorem isOf_of_mem_definitions (made : snapshot.definitions = .ok definitions)
    (member : definition ∈ definitions) : ∃ source key, IsOf definition source key ∧
      ∃ record ∈ snapshot.steps, record.stepId = source := by
  obtain ⟨stepId, _, _, _, last, -, named⟩ := (mem_definitions_iff made).mp member
  obtain ⟨label, -, one⟩ := exists_isOf named
  obtain ⟨record, among, same⟩ := exists_of_mem_outputs (mem_outputs_iff.mpr last)
  exact ⟨stepId, label, one, record, among, congrArg Prod.fst same⟩

/-- Whether a snapshot can be loaded, and a catalog then lists exactly the paths that it
declares. -/
def Covered (snapshot : Snapshot) : Prop :=
  ∀ catalog : Catalog, ∃ next, catalog.loadSnapshot snapshot = (.ok (), next) ∧
    ∀ path, path ∈ next.paths ↔ snapshot.Declares path

/-- The outputs of a covered snapshot are labelled by texts. -/
theorem labelled_of_covered (covered : snapshot.Covered) : snapshot.Labelled := by
  obtain ⟨next, loaded, -⟩ := covered .empty
  refine definitions_succeed_iff.mp ?_
  cases made : snapshot.definitions with
  | ok definitions => exact succeeds_ok definitions
  | error fault =>
    rw [loadSnapshot, made] at loaded
    cases loaded

/-- A snapshot is covered if none of its steps leads another. -/
theorem covered_of_not_leads (labelled : snapshot.Labelled)
    (apart : ∀ source other, (∃ record ∈ snapshot.steps, record.stepId = source) →
      (∃ record ∈ snapshot.steps, record.stepId = other) → ¬ Leads source other) :
    snapshot.Covered := by
  intro catalog
  obtain ⟨definitions, made⟩ := definitions_succeed_iff.mpr labelled
  refine ⟨_, by rw [loadSnapshot, made], fun path => ?_⟩
  rw [Catalog.paths, all, List.map_map, ← exists_definition_iff made]
  refine mem_paths_index_iff fun first firstIn second secondIn same => ?_
  obtain ⟨source, key, one, known⟩ := isOf_of_mem_definitions made firstIn
  obtain ⟨other, label, two, knownToo⟩ := isOf_of_mem_definitions made secondIn
  exact one.path_eq two (apart _ _ known knownToo) (apart _ _ knownToo known) same

end Snapshot
end Stencil
