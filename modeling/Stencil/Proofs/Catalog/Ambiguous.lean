import Stencil.Proofs.Catalog.Declared

/-!
# Names under which declared variables get lost

The identifier of a variable is the name of its source, a hyphen and its key, and both names may
hold hyphens. If the name of one source leads that of another, two variables can share an
identifier, and a workflow or snapshot that declares them loses the first
(`Workflow.exists_not_covered`, `Snapshot.exists_not_covered`). The theorem `Catalog.covered_iff`
says that this is the only way in which a declared variable goes missing.
-/

namespace Stencil

open Outcome

namespace Schema

variable {α : Type}

/-- A text that is not empty is accepted where one is asked for. -/
theorem nonemptyText_text {s : String} (filled : s ≠ "") : nonemptyText (.text s) = .ok s := by
  have given : s.isEmpty = false := by simpa [String.isEmpty_iff] using filled
  simp only [nonemptyText, text, bind, Except.bind, given]
  rfl

/-- A list is accepted if each of its items is. -/
theorem items_list {β : Type} {check : Value → Checked α} {raw : β → Value} {read : β → α}
    {parts : List β} (accepted : ∀ part ∈ parts, check (raw part) = .ok (read part)) :
    items check (.list (parts.map raw)) = .ok (parts.map read) := by
  refine Checked.all_eq_ok.mpr ?_
  rw [List.zipIdx_map, List.map_map]
  have each : parts.zipIdx.map ((fun part => (check part.1).within (toString part.2)) ∘
      Prod.map raw id) = parts.zipIdx.map (.ok ∘ read ∘ Prod.fst) := by
    refine List.map_congr_left fun part member => ?_
    exact Checked.within_eq_ok.mpr (accepted part.1 (List.fst_mem_of_mem_zipIdx member))
  rw [each, ← List.map_map, ← List.map_map, List.zipIdx_map_fst]

end Schema

namespace Catalog

/-- Of two definitions under one identifier the first is not listed. -/
theorem not_mem_index_of_clash {first second : Definition} {source rest key : String}
    (firstOf : IsOf first source s!"{rest}-{key}")
    (secondOf : IsOf second s!"{source}-{rest}" key) :
    first.path ∉ (index [first, second]).map (·.2.path) := by
  obtain ⟨same, differ⟩ := id_eq_of_leads source rest key
  rw [← firstOf.id, ← secondOf.id] at same
  rw [← firstOf.path, ← secondOf.path] at differ
  have listed : index [first, second] = [(first.id, second)] := by
    simp [index, Fields.ofEntries, Fields.overlay, Fields.set, same]
  rw [listed]
  simpa using differ

/-- The name of no source leads the name of the form. -/
theorem not_leads_form {name : String} : ¬ Leads name "form" := by
  rintro ⟨rest, same⟩
  have hyphen : '-' ∈ s!"{name}-{rest}".toList := by simp [toString]
  rw [← same] at hyphen
  revert hyphen
  decide

/-- A name is different from every name it leads. -/
theorem ne_of_leads {name other : String} (leads : Leads name other) : name ≠ other := by
  obtain ⟨rest, rfl⟩ := leads
  intro same
  have sizes := congrArg (·.toList.length) same
  simp [toString] at sizes

end Catalog

namespace FormField

/-- A form field of which only the name is given. -/
def named (id : String) : FormField :=
  ⟨id, none, none, none, []⟩

/-- A step that states only its id is accepted. -/
theorem check_named {id : String} (filled : id ≠ "") :
    check [(.text "id", .text id)] = .ok (named id) := by
  have idRead : Schema.required ["id"] Schema.nonemptyText [(.text "id", .text id)] = .ok id :=
    Checked.within_eq_ok.mpr (Schema.nonemptyText_text filled)
  have withId := Checked.and_eq_ok.mpr ⟨FormField.mk, id, rfl, idRead, rfl⟩
  have withLabel := Checked.and_eq_ok.mpr ⟨_, none, withId, rfl, rfl⟩
  have withType := Checked.and_eq_ok.mpr ⟨_, none, withLabel, rfl, rfl⟩
  have withDescription := Checked.and_eq_ok.mpr ⟨_, none, withType, rfl, rfl⟩
  exact Checked.and_eq_ok.mpr ⟨_, [], withDescription, rfl, rfl⟩

end FormField

namespace WorkflowStep

/-- A step of which the name, the names of form fields and the name of an output are given. -/
def named (id : String) (fields : List String) (output : String) : WorkflowStep :=
  ⟨id, none, fields.map FormField.named, [(output, .any)], [], []⟩

/-- The entries that such a step is read from. -/
def namedEntries (id : String) (fields : List String) (output : String) : List (Value × Value) :=
  [(.text "id", .text id),
    (.text "fields", .list (fields.map fun field => .map [(.text "id", .text field)])),
    (.text "outputs", .map [(.text output, .text "any")])]

/-- A step with form fields and one output is accepted. -/
theorem check_named {id : String} {fields : List String} (filled : id ≠ "")
    (fieldsFilled : ∀ field ∈ fields, field ≠ "") (output : String) :
    check (namedEntries id fields output) = .ok (named id fields output) := by
  have idRead : Checked.within "id" (Schema.nonemptyText (.text id)) = .ok id :=
    Checked.within_eq_ok.mpr (Schema.nonemptyText_text filled)
  have fieldsRead : Checked.within "fields"
      (Schema.items (Schema.record "FormField" FormField.check)
        (.list (fields.map fun field => .map [(.text "id", .text field)]))) =
      .ok (fields.map FormField.named) :=
    Checked.within_eq_ok.mpr
      (Schema.items_list fun field member => FormField.check_named (fieldsFilled field member))
  have withId := Checked.and_eq_ok.mpr ⟨WorkflowStep.mk, id, rfl, idRead, rfl⟩
  have withName := Checked.and_eq_ok.mpr ⟨_, none, withId, rfl, rfl⟩
  have withFields := Checked.and_eq_ok.mpr ⟨_, _, withName, fieldsRead, rfl⟩
  have withOutputs := Checked.and_eq_ok.mpr ⟨_, [(output, .any)], withFields, rfl, rfl⟩
  have withHalved := Checked.and_eq_ok.mpr ⟨_, [], withOutputs, rfl, rfl⟩
  exact Checked.and_eq_ok.mpr ⟨_, [], withHalved, rfl, rfl⟩

end WorkflowStep

namespace Workflow

open Catalog

/-- A valid workflow all of whose steps have names of some kind. -/
structure IsOver (workflow : Workflow) (allowed : String → Prop) : Prop where
  valid : ∃ entries, check entries = .ok workflow
  steps : ∀ step ∈ workflow.steps, allowed step.id

/-- A workflow of steps that declare form fields and an output each. -/
def ofSteps (steps : List (String × List String × String)) : Workflow :=
  ⟨none, none, none, steps.map fun (id, fields, output) => WorkflowStep.named id fields output, []⟩

/-- A workflow of such steps has names of characters throughout. -/
theorem isNamed_ofSteps (steps : List (String × List String × String)) :
    (ofSteps steps).isNamed = true := by
  rw [isNamed, ofSteps, List.all_map]
  exact List.all_eq_true.mpr fun _ _ => rfl

/-- The workflow of such steps is the document of some entries. -/
theorem exists_check_ofSteps {steps : List (String × List String × String)}
    (filled : ∀ step ∈ steps, step.1 ≠ "" ∧ ∀ field ∈ step.2.1, field ≠ "") :
    ∃ entries, check entries = .ok (ofSteps steps) := by
  let raw (step : String × List String × String) : Value :=
    .map (WorkflowStep.namedEntries step.1 step.2.1 step.2.2)
  have stepsRead : Checked.within "steps" (Schema.items (Schema.record "WorkflowStep"
      WorkflowStep.check) (.list (steps.map raw))) = .ok (ofSteps steps).steps :=
    Checked.within_eq_ok.mpr (Schema.items_list fun step member =>
      WorkflowStep.check_named (filled step member).1 (filled step member).2 step.2.2)
  have withName := Checked.and_eq_ok.mpr ⟨Workflow.mk, none, rfl, rfl, rfl⟩
  have withDescription := Checked.and_eq_ok.mpr ⟨_, none, withName, rfl, rfl⟩
  have withTrigger := Checked.and_eq_ok.mpr ⟨_, none, withDescription, rfl, rfl⟩
  have withSteps := Checked.and_eq_ok.mpr ⟨_, _, withTrigger, stepsRead, rfl⟩
  exact ⟨[(.text "steps", .list (steps.map raw))],
    Checked.and_eq_ok.mpr ⟨_, [], withSteps, rfl, rfl⟩⟩

/-- A workflow of two variables loses the first if the source of it leads that of the second and
the two share an identifier. -/
theorem not_covered_of_clash {workflow : Workflow} {first second : Definition}
    (source rest key : String) (two : workflow.definitions = [first, second])
    (firstOf : IsOf first source s!"{rest}-{key}")
    (secondOf : IsOf second s!"{source}-{rest}" key) :
    ¬ workflow.Covered := by
  intro covered
  have declared : workflow.Declares first.path :=
    exists_definition_iff.mp ⟨first, by simp [two], rfl⟩
  obtain ⟨next, loaded, lists⟩ := covered .empty
  obtain ⟨-, rfl⟩ := loadWorkflow_eq_ok_iff.mp loaded
  have listed := (lists first.path).mpr declared
  rw [Catalog.paths, all, List.map_map, two] at listed
  exact not_mem_index_of_clash firstOf secondOf listed

/-- Where the name of a source leads that of a step, a valid workflow of the two loses a variable
though all its outputs can be named. -/
theorem exists_not_covered {allowed : String → Prop} {name other : String}
    (nameKnown : name = "form" ∨ name ≠ "" ∧ allowed name) (otherFilled : other ≠ "")
    (otherKnown : allowed other) (leads : Leads name other) :
    ∃ workflow : Workflow, workflow.IsOver allowed ∧ workflow.isNamed = true ∧
      ¬ workflow.Covered := by
  obtain ⟨rest, rfl⟩ := leads
  obtain ⟨key, -⟩ : ∃ key : String, key ≠ "" := ⟨"x", by decide⟩
  have fieldFilled : s!"{rest}-{key}" ≠ "" := by simp [toString]
  rcases nameKnown with form | ⟨filled, known⟩
  · let workflow := ofSteps [(s!"{name}-{rest}", [s!"{rest}-{key}"], key)]
    refine ⟨workflow, ⟨exists_check_ofSteps ?_, ?_⟩, isNamed_ofSteps _, ?_⟩
    · have fieldsFilled : ∀ field ∈ [s!"{rest}-{key}"], field ≠ "" :=
        List.forall_mem_singleton.mpr fieldFilled
      exact List.forall_mem_singleton.mpr ⟨otherFilled, fieldsFilled⟩
    · exact List.forall_mem_singleton.mpr otherKnown
    · subst form
      exact not_covered_of_clash "form" rest key (rfl : workflow.definitions = _)
        ⟨rfl, rfl⟩ ⟨rfl, rfl⟩
  · let workflow := ofSteps [(name, [], s!"{rest}-{key}"), (s!"{name}-{rest}", [], key)]
    refine ⟨workflow, ⟨exists_check_ofSteps ?_, ?_⟩, isNamed_ofSteps _, ?_⟩
    · have noFields : ∀ field ∈ ([] : List String), field ≠ "" := List.forall_mem_nil _
      exact List.forall_mem_cons.mpr
        ⟨⟨filled, noFields⟩, List.forall_mem_singleton.mpr ⟨otherFilled, noFields⟩⟩
    · exact List.forall_mem_cons.mpr ⟨known, List.forall_mem_singleton.mpr otherKnown⟩
    · exact not_covered_of_clash name rest key (rfl : workflow.definitions = _)
        ⟨rfl, rfl⟩ ⟨rfl, rfl⟩

end Workflow

namespace Snapshot

open Catalog

/-- A valid snapshot all of whose steps have names of some kind. -/
structure IsOver (snapshot : Snapshot) (allowed : String → Prop) : Prop where
  valid : ∃ entries, check entries = .ok snapshot
  steps : ∀ record ∈ snapshot.steps, allowed record.stepId

/-- A snapshot of steps whose outputs have a single key each. -/
def ofSteps (steps : List (String × String)) : Snapshot :=
  ⟨[], steps.map fun (id, key) => ⟨id, .map [(.text key, .null)]⟩, []⟩

/-- A snapshot of such records is the document of some entries. -/
theorem exists_check_ofSteps {steps : List (String × String)}
    (filled : ∀ step ∈ steps, step.1 ≠ "") : ∃ entries, check entries = .ok (ofSteps steps) := by
  let raw (step : String × String) : Value :=
    .map [(.text "stepId", .text step.1), (.text "output", .map [(.text step.2, .null)])]
  have each (step : String × String) (member : step ∈ steps) :
      Schema.record "StepOutput" StepOutput.check (raw step) =
        .ok ⟨step.1, .map [(.text step.2, .null)]⟩ := by
    have idRead : Checked.within "stepId" (Schema.nonemptyText (.text step.1)) = .ok step.1 :=
      Checked.within_eq_ok.mpr (Schema.nonemptyText_text (filled step member))
    have withId := Checked.and_eq_ok.mpr ⟨StepOutput.mk, step.1, rfl, idRead, rfl⟩
    exact Checked.and_eq_ok.mpr ⟨_, _, withId, rfl, rfl⟩
  have stepsRead : Checked.within "steps" (Schema.items (Schema.record "StepOutput"
      StepOutput.check) (.list (steps.map raw))) = .ok (ofSteps steps).steps :=
    Checked.within_eq_ok.mpr (Schema.items_list each)
  have withVars := Checked.and_eq_ok.mpr ⟨Snapshot.mk, [], rfl, rfl, rfl⟩
  have withSteps := Checked.and_eq_ok.mpr ⟨_, _, withVars, stepsRead, rfl⟩
  exact ⟨[(.text "steps", .list (steps.map raw))],
    Checked.and_eq_ok.mpr ⟨_, [], withSteps, rfl, rfl⟩⟩

/-- Where the name of a step leads that of another, a valid snapshot of the two loses a variable
though all its keys can be named. -/
theorem exists_not_covered {allowed : String → Prop} {name other : String} (filled : name ≠ "")
    (known : allowed name) (otherFilled : other ≠ "") (otherKnown : allowed other)
    (leads : Leads name other) :
    ∃ snapshot : Snapshot, snapshot.IsOver allowed ∧ snapshot.Labelled ∧ ¬ snapshot.Covered := by
  have apart := ne_of_leads leads
  obtain ⟨rest, rfl⟩ := leads
  obtain ⟨key, -⟩ : ∃ key : String, key ≠ "" := ⟨"x", by decide⟩
  let snapshot := ofSteps [(name, s!"{rest}-{key}"), (s!"{name}-{rest}", key)]
  have outputs : snapshot.outputs = [(name, .map [(.text s!"{rest}-{key}", .null)]),
      (s!"{name}-{rest}", .map [(.text key, .null)])] := by
    simp [snapshot, ofSteps, Snapshot.outputs, Value.isNull, Fields.ofEntries, Fields.overlay,
      Fields.set, apart]
  obtain ⟨first, second, made, firstOf, secondOf⟩ : ∃ first second : Definition,
      snapshot.definitions = .ok [first, second] ∧ IsOf first name s!"{rest}-{key}" ∧
        IsOf second s!"{name}-{rest}" key := by
    rw [definitions, outputs]
    exact ⟨_, _, rfl, ⟨rfl, rfl⟩, ⟨rfl, rfl⟩⟩
  refine ⟨snapshot, ⟨exists_check_ofSteps ?_, ?_⟩, ?_, fun covered => ?_⟩
  · exact List.forall_mem_cons.mpr ⟨filled, List.forall_mem_singleton.mpr otherFilled⟩
  · exact List.forall_mem_cons.mpr ⟨known, List.forall_mem_singleton.mpr otherKnown⟩
  · exact definitions_succeed_iff.mp ⟨_, made⟩
  · obtain ⟨next, loaded, listed⟩ := covered .empty
    have declared : snapshot.Declares first.path := by
      have last : snapshot.lastOutput? name = some (.map [(.text s!"{rest}-{key}", .null)]) :=
        mem_outputs_iff.mp (outputs ▸ List.mem_cons_self)
      exact ⟨name, _, _, _, _, last, List.mem_singleton_self _, rfl, firstOf.path⟩
    rw [loadSnapshot, made, Prod.mk.injEq] at loaded
    have member := (listed first.path).mpr declared
    rw [← loaded.2, Catalog.paths, all, List.map_map] at member
    exact not_mem_index_of_clash firstOf secondOf member

end Snapshot

namespace Catalog

variable {allowed : String → Prop}

/-- **Declared variables are listed by names that do not lead each other.** Let the steps have names
of some kind. Each valid workflow of such steps is covered, as soon as its outputs can be named,
exactly if the name of no such step is led by that of another one or by that of the form. Each valid
snapshot of such steps is covered, as soon as its keys can be named, exactly if the name of no such
step is led by that of another. -/
theorem covered_iff (filled : ∀ name, allowed name → name ≠ "") :
    ((∀ workflow : Workflow, workflow.IsOver allowed →
        (workflow.Covered ↔ workflow.isNamed = true)) ↔
      ∀ name other, name = "form" ∨ allowed name → allowed other → ¬ Leads name other) ∧
    ((∀ snapshot : Snapshot, snapshot.IsOver allowed → (snapshot.Covered ↔ snapshot.Labelled)) ↔
      ∀ name other, allowed name → allowed other → ¬ Leads name other) := by
  refine ⟨⟨?_, ?_⟩, ⟨?_, ?_⟩⟩
  · intro covered name other nameKnown otherKnown leads
    obtain ⟨workflow, isOver, named, lost⟩ := Workflow.exists_not_covered
      (nameKnown.imp_right fun known => ⟨filled name known, known⟩) (filled other otherKnown)
      otherKnown leads
    exact lost ((covered workflow isOver).mpr named)
  · intro apart workflow isOver
    refine ⟨Workflow.isNamed_of_covered, fun named => ?_⟩
    refine Workflow.covered_of_not_leads named fun source other sourceKnown otherKnown => ?_
    have known {id : String} (step : ∃ step ∈ workflow.steps, step.id = id) : allowed id := by
      obtain ⟨step, member, rfl⟩ := step
      exact isOver.steps step member
    rcases otherKnown with rfl | otherStep
    · exact not_leads_form
    · exact apart source other (sourceKnown.imp_right known) (known otherStep)
  · intro covered name other nameKnown otherKnown leads
    obtain ⟨snapshot, isOver, labelled, lost⟩ := Snapshot.exists_not_covered (filled name nameKnown)
      nameKnown (filled other otherKnown) otherKnown leads
    exact lost ((covered snapshot isOver).mpr labelled)
  · intro apart snapshot isOver
    refine ⟨Snapshot.labelled_of_covered, fun labelled => ?_⟩
    refine Snapshot.covered_of_not_leads labelled fun source other sourceKnown otherKnown => ?_
    have known {id : String} (step : ∃ record ∈ snapshot.steps, record.stepId = id) :
        allowed id := by
      obtain ⟨record, member, rfl⟩ := step
      exact isOver.steps record member
    exact apart source other (known sourceKnown) (known otherKnown)

/-- Steps whose names hold no hyphen lose no variable. -/
theorem covered_iff_no_hyphen :
    (∀ workflow : Workflow, workflow.IsOver (fun name => name ≠ "" ∧ '-' ∉ name.toList) →
      (workflow.Covered ↔ workflow.isNamed = true)) ∧
    ∀ snapshot : Snapshot, snapshot.IsOver (fun name => name ≠ "" ∧ '-' ∉ name.toList) →
      (snapshot.Covered ↔ snapshot.Labelled) := by
  have apart (name other : String) (plain : '-' ∉ other.toList) : ¬ Leads name other := by
    rintro ⟨rest, rfl⟩
    exact plain (by simp [toString])
  obtain ⟨workflows, snapshots⟩ :=
    @covered_iff (fun name => name ≠ "" ∧ '-' ∉ name.toList) fun name known => known.1
  exact ⟨workflows.mpr fun name other _ known => apart name other known.2,
    snapshots.mpr fun name other _ known => apart name other known.2⟩

/-- Of two steps that declare `a.b-c` and `a-b.c` the catalog lists the second variable only, and so
for a snapshot with outputs under these names. -/
theorem covered_ambiguous :
    (∃ entries workflow next, Workflow.check entries = .ok workflow ∧ workflow.Declares "a.b-c" ∧
      Catalog.empty.loadWorkflow workflow = .ok next ∧ next.paths = ["a-b.c"]) ∧
    ∃ entries snapshot, Snapshot.check entries = .ok snapshot ∧ snapshot.Declares "a.b-c" ∧
      (Catalog.empty.loadSnapshot snapshot).2.paths = ["a-b.c"] := by
  let workflow := Workflow.ofSteps [("a", [], "b-c"), ("a-b", [], "c")]
  let snapshot := Snapshot.ofSteps [("a", "b-c"), ("a-b", "c")]
  refine ⟨⟨[(.text "steps", .list
      [.map (WorkflowStep.namedEntries "a" [] "b-c"),
        .map (WorkflowStep.namedEntries "a-b" [] "c")])], workflow, _, rfl, ?_, rfl, rfl⟩,
    [(.text "steps", .list
      [.map [(.text "stepId", .text "a"), (.text "output", .map [(.text "b-c", .null)])],
        .map [(.text "stepId", .text "a-b"), (.text "output", .map [(.text "c", .null)])]])],
      snapshot, rfl, ?_, rfl⟩
  · exact Workflow.exists_definition_iff.mp ⟨_, List.mem_cons_self, rfl⟩
  · exact ⟨"a", _, _, _, _, rfl, List.mem_singleton_self _, rfl, rfl⟩

end Catalog
end Stencil
