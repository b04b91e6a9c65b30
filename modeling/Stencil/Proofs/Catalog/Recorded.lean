import Stencil.Proofs.Catalog.Declared
import Stencil.Proofs.Catalog.Write

/-!
# Definitions of a snapshot and its context

A catalog that was loaded from a snapshot holds the outputs of the steps twice: as definitions under
identifiers, and in the layers of its context under names. A definition is made of an entry of the
last output of its step (`Snapshot.Records`). The main statement is `Catalog.loadSnapshot_agrees`:
where the step and the key are plain names, the path of the definition leads to its value in the
context, whatever else the snapshot holds.
-/

namespace Stencil

open Outcome

namespace Snapshot

variable {snapshot : Snapshot} {stepId key : String} {definition : Definition}

/-- A definition is made of the entry under a key in the last output of a step. -/
def Records (snapshot : Snapshot) (stepId : String) (key : Value) (definition : Definition) :
    Prop :=
  ∃ entries value, snapshot.lastOutput? stepId = some (.map entries) ∧ (key, value) ∈ entries ∧
    entryDefinition stepId key value = .ok definition

/-- No output lists a key twice. -/
def HasDistinctOutputKeys (snapshot : Snapshot) : Prop :=
  ∀ record ∈ snapshot.steps, ∀ entries, record.output = .map entries →
    entries.Pairwise fun first second => Value.sameKey first.1 second.1 = false

/-- A name is looked up in the last output of the step of that name, whatever the variables. -/
theorem get?_merged_of_lastOutput? {output : Value}
    (last : snapshot.lastOutput? stepId = some output) :
    Fields.get? snapshot.context.merged stepId = some output := by
  have distinct : (Fields.keys snapshot.outputs).Nodup := Fields.nodup_keys_ofEntries _
  rw [Context.merged, context, Fields.get?_overlay_of_nodup distinct, get?_outputs, last,
    Option.some_or]

/-- The last output of a step has no key twice. -/
theorem distinct_of_lastOutput? (distinct : snapshot.HasDistinctOutputKeys)
    {entries : List (Value × Value)} (last : snapshot.lastOutput? stepId = some (.map entries)) :
    entries.Pairwise fun first second => Value.sameKey first.1 second.1 = false := by
  obtain ⟨record, member, same⟩ := exists_of_mem_outputs (mem_outputs_iff.mpr last)
  exact distinct record member entries (congrArg Prod.snd same)

/-- An entry of the last output of a step is what the names of the step and the key lead to. -/
theorem resolve_joined (distinct : snapshot.HasDistinctOutputKeys)
    (plainStep : Path.IsPlain stepId) (plainKey : Path.IsPlain key)
    {entries : List (Value × Value)} {value : Value}
    (last : snapshot.lastOutput? stepId = some (.map entries))
    (member : (.text key, value) ∈ entries) :
    snapshot.context.resolve (Path.joined [stepId, key]) = .ok value := by
  have held : Value.lookupText key entries = some value :=
    Value.lookupText_of_mem (distinct_of_lastOutput? distinct last) member
  have parsed : Path.parse (Path.joined [stepId, key]) = .ok [⟨stepId, []⟩, ⟨key, []⟩] :=
    Path.parse_joined (List.forall_mem_cons.mpr ⟨plainStep, List.forall_mem_singleton.mpr plainKey⟩)
  rw [Context.resolve, parsed, ok_bind, lookup_cons, get?_merged_of_lastOutput? last]
  change (Value.map entries).follow [⟨key, []⟩] = _
  rw [Value.follow_map_cons, held]
  rfl

/-- A definition of a text key has the path of the step and the key, and the kind of its value. -/
theorem of_records (records : snapshot.Records stepId (.text key) definition) :
    definition.path = s!"{stepId}.{key}" ∧ definition.kind = definition.value.kind ∧
      ∃ entries, snapshot.lastOutput? stepId = some (.map entries) ∧
        (.text key, definition.value) ∈ entries := by
  obtain ⟨entries, value, last, member, made⟩ := records
  cases made
  exact ⟨rfl, rfl, entries, last, member⟩

end Snapshot

namespace Catalog

variable {snapshot : Snapshot}

/-- **The definitions of a snapshot agree with its context.** A snapshot is loaded into a catalog.
Whatever was there before, the path of each definition that is made of an entry under a text key of
a step leads to the value of the definition, and this is of its kind, if the step and the key are
plain names. If nothing failed, then every definition is made of an entry of a step. -/
theorem loadSnapshot_agrees (distinct : snapshot.HasDistinctOutputKeys) (catalog : Catalog) :
    (∀ definition ∈ (catalog.loadSnapshot snapshot).2.all, ∀ stepId key,
      snapshot.Records stepId (.text key) definition → Path.IsPlain stepId → Path.IsPlain key →
        (catalog.loadSnapshot snapshot).2.context.resolve definition.path = .ok definition.value ∧
          definition.kind = definition.value.kind) ∧
    ((catalog.loadSnapshot snapshot).1 = .ok () →
      ∀ definition ∈ (catalog.loadSnapshot snapshot).2.all, ∃ stepId key,
        snapshot.Records stepId key definition) := by
  have live : (catalog.loadSnapshot snapshot).2.context = snapshot.context := by
    rw [loadSnapshot]
    split <;> rfl
  constructor
  · intro definition _ stepId key records plainStep plainKey
    obtain ⟨path, kind, entries, last, member⟩ := Snapshot.of_records records
    have joined : Path.joined [stepId, key] = s!"{stepId}.{key}" :=
      Path.joinPath_of_ne_empty (Path.isPlain_iff.mp plainStep).filled key
    rw [live, path, ← joined]
    exact ⟨Snapshot.resolve_joined distinct plainStep plainKey last member, kind⟩
  · intro loaded definition member
    cases made : snapshot.definitions with
    | error fault =>
      rw [loadSnapshot, made] at loaded
      cases loaded
    | ok definitions =>
      rw [loadSnapshot, made] at member
      obtain ⟨entry, inside, rfl⟩ := List.mem_map.mp member
      obtain ⟨stepId, entries, key, value, last, among, named⟩ :=
        (Snapshot.mem_definitions_iff made).mp (mem_of_mem_index inside).2
      exact ⟨stepId, key, entries, value, last, among, named⟩

end Catalog

/-- A snapshot in which two steps share an identifier and a variable has the name of a step. -/
def Snapshot.shared : Snapshot where
  vars := [("a-b", .map [(.text "c", .int 0)])]
  steps := [⟨"a", .map [(.text "b-c", .int 1)]⟩, ⟨"a-b", .map [(.text "c", .text "")]⟩,
    ⟨"a-b", .null⟩]
  globals := []

namespace Catalog

/-- The later one of two definitions under one identifier, in spite of a null output behind it. -/
theorem loadSnapshot_agrees_shared :
    ∃ definition, (empty.loadSnapshot .shared).2.all = [definition] ∧
      (empty.loadSnapshot .shared).2.context.resolve definition.path = .ok definition.value ∧
      definition.kind = definition.value.kind := by
  have distinct : Snapshot.shared.HasDistinctOutputKeys := by
    simp only [Snapshot.HasDistinctOutputKeys, Snapshot.shared, List.forall_mem_cons]
    refine ⟨fun entries same => ?_, fun entries same => ?_, fun entries same => ?_, by simp⟩
    · cases same
      exact List.pairwise_singleton _ _
    · cases same
      exact List.pairwise_singleton _ _
    · cases same
  have records : Snapshot.shared.Records "a-b" (.text "c") ⟨"a-b-c", "c", "a-b.c", .string, .step,
      some .step, none, none, some "a-b", .text ""⟩ :=
    ⟨[(.text "c", .text "")], .text "", rfl, List.mem_singleton_self _, rfl⟩
  have agrees := (loadSnapshot_agrees distinct empty).1 _ (List.mem_singleton_self _) _ _ records
  exact ⟨_, rfl, agrees rfl rfl⟩

end Catalog
end Stencil
