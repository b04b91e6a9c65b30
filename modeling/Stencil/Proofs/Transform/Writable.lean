import Stencil.Proofs.Transform.Fresh
import Stencil.Proofs.Value.Writable

/-!
# Pipelines of values that can be written

A registry whose transformations make no integers too long to be written hands on values that can
be written from step to step (`Registry.KeepsWritable.applyAll`). The built-in one is such a
registry, whatever its template of dates (`Builtin.registry_keepsWritable`).
-/

namespace Stencil

open Outcome

/-- What a transformation makes of a value that can be written, and of the texts that a step hands
it, can be written. -/
def Transformation.KeepsWritable (transformation : Transformation) : Prop :=
  ∀ (value : Value) (args : List String) (image : Value), value.isWritable = true →
    transformation.run value (args.map .text) = .ok image → image.isWritable = true

namespace Registry

/-- A registry whose transformations keep values writable. -/
def KeepsWritable (registry : Registry) : Prop :=
  ∀ transformation ∈ registry.all, transformation.KeepsWritable

variable {registry : Registry} {value : Value}

/-- What is found in a registry is one of its transformations. -/
theorem mem_all_of_get? {id : String} {transformation : Transformation}
    (found : registry.get? id = some transformation) : transformation ∈ registry.all := by
  obtain ⟨front, back, entries, -⟩ := List.lookup_eq_some_iff.mp found
  refine List.mem_map.mpr ⟨(id, transformation), ?_, rfl⟩
  rw [entries]
  exact List.mem_append_right _ List.mem_cons_self

/-- A step keeps a value writable. -/
theorem KeepsWritable.apply (keeps : registry.KeepsWritable) (step : Step)
    (writable : value.isWritable = true) :
    (registry.apply step value []).1.isWritable = true := by
  rw [Registry.apply]
  cases found : registry.get? step.name with
  | none => exact writable
  | some transformation =>
    dsimp only
    rw [List.append_nil]
    cases runs : transformation.run value (step.args.map .text) with
    | error fault => exact writable
    | ok image => exact keeps _ (mem_all_of_get? found) _ _ _ writable runs

/-- A pipeline makes a value that can be written of one that can. -/
theorem KeepsWritable.applyAll (keeps : registry.KeepsWritable) (steps : List Step)
    (writable : value.isWritable = true) :
    (registry.applyAll value steps).1.isWritable = true := by
  induction steps generalizing value with
  | nil => exact writable
  | cons step rest ih => exact ih (keeps.apply step writable)

end Registry

namespace Builtin

/-- An operation that makes values that can be written of such values. -/
def Keeps (run : Value → Outcome Value) : Prop :=
  ∀ value image, value.isWritable = true → run value = .ok image → image.isWritable = true

/-- A transformation without arguments keeps values writable if the operation it runs does. -/
theorem keepsWritable_plain {transformation : Transformation} {label : String}
    {run : Value → Outcome Value} (runs : transformation.run = plain label run)
    (keeps : Keeps run) : transformation.KeepsWritable := by
  intro value args image writable taken
  rw [runs, plain.eq_def] at taken
  split_ifs at taken
  exact keeps value image writable taken

/-- A transformation with one argument keeps values writable if the operation it runs does. -/
theorem keepsWritable_withDefault {transformation : Transformation} {label : String}
    {fallback : Value} {run : Value → Value → Outcome Value}
    (runs : transformation.run = withDefault label fallback run)
    (plain : fallback.isWritable = true)
    (keeps : ∀ arg : Value, arg.isWritable = true → Keeps (run · arg)) :
    transformation.KeepsWritable := by
  intro value args image writable taken
  rw [runs] at taken
  match args with
  | [] => exact keeps fallback plain value image writable taken
  | [arg] => exact keeps (.text arg) rfl value image writable taken
  | _ :: _ :: _ => cases taken

/-- A fresh value is writable. -/
theorem Fresh.isWritable {image : Value} (fresh : Fresh image) : image.isWritable = true := by
  cases fresh with
  | text s => rfl
  | float x => rfl
  | count few =>
    have short : countLimit < Nat.pow 10 19 := by decide
    exact Value.isWritable_int_of_lt (Nat.lt_trans few short) (by decide)

/-- What makes fresh values keeps values writable. -/
theorem keeps_of_makesFresh {run : Value → Outcome Value} (makes : MakesFresh run) : Keeps run :=
  fun value image _ taken => (makes value image taken).isWritable

/-- The first item of a writable value is writable. -/
theorem first_keeps : Keeps fun value => .ok (first value) := by
  intro value image writable taken
  rw [← Except.ok.inj taken, first.eq_def]
  split
  · exact Value.isWritable_getD_of_mem writable fun item => List.mem_of_head?
  · exact Value.isWritable_getD_of_mem writable fun item => List.mem_of_head?
  · exact writable

/-- The last item of a writable value is writable. -/
theorem last_keeps : Keeps fun value => .ok (last value) := by
  intro value image writable taken
  rw [← Except.ok.inj taken, last.eq_def]
  split
  · exact Value.isWritable_getD_of_mem writable fun item => List.mem_of_getLast?
  · exact Value.isWritable_getD_of_mem writable fun item => List.mem_of_getLast?
  · exact writable

/-- Formatting keeps values writable. -/
theorem dateFormat_keeps (dateTemplate : String) (template : Value) :
    Keeps (dateFormat dateTemplate · template) := by
  intro value image writable taken
  rcases cases_of_dateFormat taken with same | ⟨-, fresh⟩
  · rw [same]
    exact writable
  · exact fresh.isWritable

/-- Writing as JSON keeps values writable. -/
theorem json_keeps : Keeps json := by
  intro value image writable taken
  rcases cases_of_json taken with same | ⟨-, fresh⟩
  · rw [same]
    exact writable
  · exact fresh.isWritable

/-- A writable default keeps values writable. -/
theorem default_keeps {fallback : Value} (plain : fallback.isWritable = true) :
    Keeps fun value => .ok (default value fallback) := by
  intro value image writable taken
  rw [← Except.ok.inj taken, default.eq_def]
  split
  · exact plain
  · exact plain
  · exact plain
  · exact writable

/-- **The built-in transformations** make no integers that are too long to be written. -/
theorem registry_keepsWritable (dateTemplate : String) : (registry dateTemplate).KeepsWritable := by
  have small (number : Nat) (few : number < Nat.pow 10 2) : (Value.int number).isWritable = true :=
    Value.isWritable_int_of_lt few (by decide)
  have every : ∀ transformation ∈ all dateTemplate, transformation.KeepsWritable := by
    simp only [all, List.forall_mem_cons]
    have made {listed : Transformation} {label : String} {run : Value → Outcome Value}
        (runs : listed.run = plain label run) (makes : MakesFresh run) : listed.KeepsWritable :=
      keepsWritable_plain runs (keeps_of_makesFresh makes)
    refine ⟨made rfl (makesFresh_onText _), made rfl (makesFresh_onText _),
      made rfl (makesFresh_onText _), made rfl (makesFresh_onText _),
      keepsWritable_withDefault rfl (small 50 (by decide)) fun length _ =>
        keeps_of_makesFresh (makesFresh_truncate length),
      keepsWritable_withDefault rfl (small 0 (by decide)) fun decimals _ =>
        keeps_of_makesFresh (makesFresh_round decimals),
      made rfl (makesFresh_map fun _ => .float _),
      keepsWritable_withDefault rfl rfl fun separator _ =>
        keeps_of_makesFresh (makesFresh_join separator),
      keepsWritable_plain rfl first_keeps, keepsWritable_plain rfl last_keeps,
      made rfl makesFresh_length,
      keepsWritable_withDefault rfl rfl fun template _ => dateFormat_keeps dateTemplate template,
      keepsWritable_plain rfl json_keeps, made rfl (makesFresh_map fun _ => .float _),
      made rfl (makesFresh_onText _),
      keepsWritable_withDefault rfl rfl fun fallback plain => default_keeps plain,
      made rfl (makesFresh_onText _), made rfl makesFresh_base64, ?_⟩
    exact fun transformation member => (List.not_mem_nil member).elim
  intro transformation member
  obtain ⟨entry, among, rfl⟩ := List.mem_map.mp member
  obtain ⟨listed, known, rfl⟩ := List.mem_map.mp among
  exact every listed known

end Builtin
end Stencil
