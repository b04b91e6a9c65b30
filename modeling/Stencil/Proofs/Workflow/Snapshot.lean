import Stencil.Catalog.Basic
import Stencil.Proofs.Schema.Accepted
import Stencil.Proofs.Value.Integers

/-!
# What a snapshot holds

A snapshot that was read holds the values that it was read from: its dictionaries list no key twice,
and its integers fit where those of the value do. It has definitions if the entries of its outputs
can be named (`Snapshot.definitions_succeed_iff`). Where integers fit, the only keys that cannot are
texts that are not made of characters alone (`Snapshot.labelled_iff`).
-/

namespace Stencil

open Outcome

namespace StepOutput

/-- An output is one of the values of its record, or null. -/
theorem output_of_check {entries : List (Value × Value)} {record : StepOutput}
    (accepted : check entries = .ok record) :
    record.output = .null ∨ record.output ∈ (Value.map entries).parts := by
  obtain ⟨addOutput, output, front, outputRead, rfl⟩ := Checked.and_eq_ok.mp accepted
  obtain ⟨addId, stepId, built, -, rfl⟩ := Checked.and_eq_ok.mp front
  cases built
  rcases Schema.exists_of_optional outputRead with none | ⟨entry, member, taken⟩
  · exact .inl none
  · exact .inr (List.mem_map.mpr ⟨entry, member, Except.ok.inj taken⟩)

end StepOutput

namespace Snapshot

variable {snapshot : Snapshot} {entries : List (Value × Value)}

/-- Whether no integer in the outputs of a snapshot is too long to be written. -/
def IntegersFit (snapshot : Snapshot) : Prop :=
  ∀ record ∈ snapshot.steps, record.output.integersFit = true

/-- Whether the dictionaries of a snapshot list no key twice. -/
structure HasDistinctKeys (snapshot : Snapshot) : Prop where
  vars : (Fields.keys snapshot.vars).Nodup
  globals : (Fields.keys snapshot.globals).Nodup

/-- Every output of a snapshot is that of one of its steps. -/
theorem exists_of_mem_outputs {entry : String × Value} (member : entry ∈ snapshot.outputs) :
    ∃ record ∈ snapshot.steps, (record.stepId, record.output) = entry := by
  obtain ⟨record, kept, same⟩ := List.mem_map.mp (Fields.mem_of_mem_ofEntries member)
  exact ⟨record, (List.mem_filter.mp kept).1, same⟩

/-- The last output of a step that is not null. -/
def lastOutput? (snapshot : Snapshot) (stepId : String) : Option Value :=
  ((snapshot.steps.filter fun record =>
    record.stepId == stepId && !record.output.isNull).getLast?).map (·.output)

/-- The output of a step is its last one. -/
theorem get?_outputs (snapshot : Snapshot) (stepId : String) :
    Fields.get? snapshot.outputs stepId = snapshot.lastOutput? stepId := by
  rw [outputs, Fields.get?_ofEntries, List.filter_map, List.getLast?_map, Option.map_map,
    List.filter_filter]
  rfl

/-- A step has an output if and only if that is its last one. -/
theorem mem_outputs_iff {stepId : String} {output : Value} :
    (stepId, output) ∈ snapshot.outputs ↔ snapshot.lastOutput? stepId = some output := by
  rw [← get?_outputs]
  exact (Fields.get?_eq_some_iff (Fields.nodup_keys_ofEntries _)).symm

/-- Whether the keys of the last outputs of the steps can be named. -/
def Labelled (snapshot : Snapshot) : Prop :=
  ∀ stepId entries, snapshot.lastOutput? stepId = some (.map entries) →
    ∀ entry ∈ entries, Succeeds (entryName entry.1)

/-- Whether a key in the last output of a step is a text that is not made of characters alone. -/
def HasHalvedKey (snapshot : Snapshot) : Prop :=
  ∃ stepId entries, snapshot.lastOutput? stepId = some (.map entries) ∧
    ∃ entry ∈ entries, entry.1.halved?.isSome = true

/-- A snapshot has definitions exactly if all keys can be named. -/
theorem definitions_succeed_iff : Succeeds snapshot.definitions ↔ snapshot.Labelled := by
  have steps : Succeeds snapshot.definitions ↔
      ∀ output ∈ snapshot.outputs, Succeeds (outputDefinitions output.1 output.2) :=
    succeeds_map_iff.trans mapM_succeeds_iff
  have named (stepId : String) (entries : List (Value × Value)) :
      Succeeds (outputDefinitions stepId (.map entries)) ↔
        ∀ entry ∈ entries, Succeeds (entryName entry.1) := by
    refine mapM_succeeds_iff.trans (forall₂_congr fun entry _ => ?_)
    exact succeeds_map_iff
  rw [steps]
  constructor
  · intro each stepId entries recorded
    exact (named stepId entries).mp (each _ (mem_outputs_iff.mpr recorded))
  · rintro labelled ⟨stepId, output⟩ member
    cases output with
    | map entries => exact (named stepId entries).mpr (labelled _ _ (mem_outputs_iff.mp member))
    | _ => exact succeeds_ok _

/-- A key whose integers fit can be named unless it is a text that is not made of characters
alone. -/
theorem entryName_succeeds_iff {key : Value} (fits : key.integersFit = true) :
    Succeeds (entryName key) ↔ ¬ key.halved?.isSome = true := by
  have labelled := Value.label_succeeds fits
  unfold entryName
  split
  · exact iff_of_false (not_succeeds_error _) fun whole => whole rfl
  · rename_i whole
    refine iff_of_true labelled fun halved => ?_
    obtain ⟨s, same⟩ := Value.exists_of_halved? halved
    exact whole s same

/-- If the integers fit, the outputs are labelled if and only if none has a halved key. -/
theorem labelled_iff (fit : snapshot.IntegersFit) :
    snapshot.Labelled ↔ ¬ snapshot.HasHalvedKey := by
  have fits {stepId : String} {entries : List (Value × Value)}
      (last : snapshot.lastOutput? stepId = some (.map entries)) :
      ∀ entry ∈ entries, entry.1.integersFit = true := by
    intro entry inside
    obtain ⟨record, recorded, same⟩ := exists_of_mem_outputs (mem_outputs_iff.mpr last)
    have outputFits := fit record recorded
    obtain ⟨-, output⟩ := Prod.mk.inj same
    rw [output] at outputFits
    exact (Value.integersFitOf_iff.mp outputFits entry inside).1
  constructor
  · rintro labelled ⟨stepId, entries, last, entry, inside, halved⟩
    exact (entryName_succeeds_iff (fits last entry inside)).mp
      (labelled stepId entries last entry inside) halved
  · intro whole stepId entries last entry inside
    refine (entryName_succeeds_iff (fits last entry inside)).mpr fun halved => whole ?_
    exact ⟨stepId, entries, last, entry, inside, halved⟩

/-- The parts of an accepted snapshot are accepted by their own checks. -/
theorem parts_of_check (accepted : check entries = .ok snapshot) :
    Schema.optional ["variables"] [] (Schema.fields Schema.any) entries = .ok snapshot.vars ∧
      Schema.optional ["steps"] [] (Schema.items (Schema.record "StepOutput" StepOutput.check))
        entries = .ok snapshot.steps ∧
      Schema.optional ["global_variables", "globalVariables"] [] (Schema.fields Schema.any)
        entries = .ok snapshot.globals := by
  obtain ⟨addGlobals, globals, front, globalsRead, rfl⟩ := Checked.and_eq_ok.mp accepted
  obtain ⟨addSteps, steps, first, stepsRead, rfl⟩ := Checked.and_eq_ok.mp front
  obtain ⟨addVars, vars, built, varsRead, rfl⟩ := Checked.and_eq_ok.mp first
  cases built
  exact ⟨varsRead, stepsRead, globalsRead⟩

/-- An accepted snapshot has distinct names. -/
theorem hasDistinctKeys_of_check (accepted : check entries = .ok snapshot) :
    snapshot.HasDistinctKeys := by
  have distinct {names : List String} {data : Fields Value}
      (read : Schema.optional names [] (Schema.fields Schema.any) entries = .ok data) :
      (Fields.keys data).Nodup := by
    rcases Schema.exists_of_optional read with rfl | ⟨entry, -, taken⟩
    · exact .nil
    · exact Schema.nodup_keys_of_fields taken
  obtain ⟨varsRead, -, globalsRead⟩ := parts_of_check accepted
  exact ⟨distinct varsRead, distinct globalsRead⟩

/-- The outputs of a snapshot stand in the map that it was read from. -/
theorem output_of_check (accepted : check entries = .ok snapshot) :
    ∀ record ∈ snapshot.steps,
      record.output = .null ∨ record.output ∈ (Value.map entries).inside := by
  intro record recorded
  obtain ⟨-, stepsRead, -⟩ := parts_of_check accepted
  rcases Schema.exists_of_optional stepsRead with none | ⟨entry, member, itemsRead⟩
  · rw [none] at recorded
    cases recorded
  · obtain ⟨part, among, taken⟩ := Schema.exists_of_items itemsRead recorded
    have whole : entry.2 ∈ (Value.map entries).parts := List.mem_map_of_mem member
    cases part with
    | map inner =>
      refine (StepOutput.output_of_check taken).imp_right fun field => ?_
      exact Value.mem_inside_of_mem_parts whole <| Value.mem_inside_of_mem_parts among <|
        Value.mem_inside_of_mem_parts field (Value.mem_inside_self _)
    | _ => cases taken

/-- The integers of an accepted snapshot fit if those of its entries do. -/
theorem integersFit_of_check (fits : Value.integersFitOf entries = true)
    (accepted : check entries = .ok snapshot) : snapshot.IntegersFit := by
  intro record recorded
  rcases output_of_check accepted record recorded with null | inside
  · rw [null]
    rfl
  · have whole : (Value.map entries).integersFit = true := fits
    exact Value.integersFit_of_mem_inside whole _ inside

/-- A snapshot that is read from a value with text keys only can be named. -/
theorem labelled_of_check (named : (Value.map entries).HasTextKeys)
    (accepted : check entries = .ok snapshot) : snapshot.Labelled := by
  intro stepId outputs last entry inside
  obtain ⟨record, recorded, same⟩ := exists_of_mem_outputs (mem_outputs_iff.mpr last)
  obtain ⟨-, output⟩ := Prod.mk.inj same
  rcases output_of_check accepted record recorded with null | within
  · cases output.symm.trans null
  · rw [output] at within
    obtain ⟨name, text⟩ := named _ within outputs rfl entry inside
    rw [text]
    exact succeeds_ok _

/-- A snapshot holds integers of the value that it was read from. -/
theorem integersFit_of_ofItems {value : Value} (fits : value.integersFit = true)
    (read : ofItems value = .ok snapshot) : snapshot.IntegersFit := by
  obtain ⟨entries, listed, accepted⟩ := bind_eq_ok.mp read
  exact integersFit_of_check (Value.integersFit_of_entries fits listed)
    (Checked.outcome_eq_ok.mp accepted)

end Snapshot
end Stencil
