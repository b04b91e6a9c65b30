import Mathlib.Tactic.Tauto
import Stencil.Proofs.Transform.Fresh

/-!
# Where a pipeline loses its value

A built-in transformation reports nothing when it makes an undefined value. Only `first` and `last`
make one of a value that is there, and only a few steps hand an undefined value on; all others put
something in its place. The main statement is `Builtin.isUndefined_applyAll_iff`: a pipeline that
reports nothing ends undefined exactly if the value it loses last is never replaced. A pipeline that
ends in a default step has a value in any case (`Builtin.isUndefined_applyAll_default`).
-/

namespace Stencil

open Outcome

/-- A list or a tuple of which no item can be picked, or only an undefined one. -/
def Value.lacks (pick : List Value → Option Value) : Value → Bool
  | .list items | .tuple items => (pick items).all isUndefined
  | _ => false

namespace Builtin

/-- Whether a step of a name asks a list or a tuple for an item that it lacks. -/
def asksInVain (name : String) (value : Value) : Bool :=
  (name == "first" && value.lacks List.head?) || (name == "last" && value.lacks List.getLast?)

/-- The steps that hand an undefined value on as it is. -/
def passesUndefined (name : String) : Bool :=
  ["first", "last", "json", "dateFormat"].contains name

/-- Whether a step of a name that reports nothing leaves an undefined value. -/
def leavesUndefined (name : String) (value : Value) : Bool :=
  asksInVain name value || (value.isUndefined && passesUndefined name)

/-- Asking for the first item leaves an undefined value of what lacks one, or of what is undefined.
-/
theorem leavesUndefined_first (value : Value) :
    leavesUndefined "first" value = (value.lacks List.head? || value.isUndefined) := by
  simp [leavesUndefined, asksInVain, passesUndefined]

/-- Asking for the last item leaves an undefined value of what lacks one, or of what is undefined.
-/
theorem leavesUndefined_last (value : Value) :
    leavesUndefined "last" value = (value.lacks List.getLast? || value.isUndefined) := by
  simp [leavesUndefined, asksInVain, passesUndefined]

/-- A step of another name never asks in vain. -/
theorem leavesUndefined_of_ne {name : String} (notFirst : name ≠ "first") (notLast : name ≠ "last")
    (value : Value) : leavesUndefined name value = (value.isUndefined && passesUndefined name) := by
  simp [leavesUndefined, asksInVain, notFirst, notLast]

/-- An operation leaves an undefined value of some values and of no others. -/
def Leaves (undefined : Value → Bool) (run : Value → Outcome Value) : Prop :=
  ∀ value image, run value = .ok image → image.isUndefined = undefined value

/-- A transformation leaves an undefined value of some values and of no others, given the texts
that a step hands it. -/
def LeavesAt (undefined : Value → Bool) (transformation : Transformation) : Prop :=
  ∀ (value : Value) (args : List String) (image : Value),
    transformation.run value (args.map .text) = .ok image → image.isUndefined = undefined value

variable {transformation : Transformation} {label dateTemplate : String}
  {undefined : Value → Bool} {value : Value}

/-- A transformation without arguments leaves what the operation it runs leaves. -/
theorem leavesAt_plain {run : Value → Outcome Value} (runs : transformation.run = plain label run)
    (leaves : Leaves undefined run) : LeavesAt undefined transformation := by
  intro value args image taken
  rw [runs] at taken
  unfold plain at taken
  split_ifs at taken
  exact leaves value image taken

/-- A transformation with one argument leaves what the operation it runs leaves for every argument.
-/
theorem leavesAt_withDefault {fallback : Value} {run : Value → Value → Outcome Value}
    (runs : transformation.run = withDefault label fallback run)
    (defined : fallback.isUndefined = false)
    (leaves : ∀ arg : Value, arg.isUndefined = false → Leaves undefined (run · arg)) :
    LeavesAt undefined transformation := by
  intro value args image taken
  rw [runs] at taken
  match args with
  | [] => exact leaves fallback defined value image taken
  | [arg] => exact leaves (.text arg) rfl value image taken
  | _ :: _ :: _ => cases taken

/-- A fresh value is defined. -/
theorem Fresh.isUndefined {image : Value} (fresh : Fresh image) : image.isUndefined = false := by
  cases fresh with
  | text s => rfl
  | float x => rfl
  | count few => rfl

/-- An operation that never leaves an undefined value. -/
abbrev LeavesValue (run : Value → Outcome Value) : Prop :=
  Leaves (fun _ => false) run

/-- What makes fresh values leaves a value. -/
theorem leavesValue_of_makesFresh {run : Value → Outcome Value} (makes : MakesFresh run) :
    LeavesValue run :=
  fun value image taken => (makes value image taken).isUndefined

/-- A default that is defined leaves a value. -/
theorem leavesValue_default {fallback : Value} (defined : fallback.isUndefined = false) :
    LeavesValue fun value => .ok (default value fallback) := by
  intro value image taken
  rw [← Except.ok.inj taken]
  unfold default
  split
  · exact defined
  · exact defined
  · exact defined
  · rename_i present _
    cases value with
    | undefined => exact (present rfl).elim
    | _ => rfl

/-- An item that may be missing is undefined if it is missing or is itself undefined. -/
theorem isUndefined_getD (item : Option Value) :
    (item.getD .undefined).isUndefined = item.all Value.isUndefined := by
  cases item with
  | none => rfl
  | some value => rfl

/-- The first item is undefined where there is none, or where it is itself undefined. -/
theorem leaves_first : Leaves (leavesUndefined "first") fun value => .ok (first value) := by
  intro value image taken
  rw [← Except.ok.inj taken, leavesUndefined_first]
  cases value with
  | list items => exact (isUndefined_getD _).trans (Bool.or_false _).symm
  | tuple items => exact (isUndefined_getD _).trans (Bool.or_false _).symm
  | _ => rfl

/-- The last item is undefined where there is none, or where it is itself undefined. -/
theorem leaves_last : Leaves (leavesUndefined "last") fun value => .ok (last value) := by
  intro value image taken
  rw [← Except.ok.inj taken, leavesUndefined_last]
  cases value with
  | list items => exact (isUndefined_getD _).trans (Bool.or_false _).symm
  | tuple items => exact (isUndefined_getD _).trans (Bool.or_false _).symm
  | _ => rfl

/-- Formatting leaves an undefined value of an undefined one only. -/
theorem leaves_dateFormat (template : Value) :
    Leaves Value.isUndefined (dateFormat dateTemplate · template) := by
  intro value image taken
  rcases cases_of_dateFormat taken with same | ⟨⟨moment, denoted⟩, fresh⟩
  · rw [same]
  · rw [fresh.isUndefined]
    cases value with
    | undefined => cases denoted
    | _ => rfl

/-- Writing as JSON leaves an undefined value of an undefined one only. -/
theorem leaves_json : Leaves Value.isUndefined json := by
  intro value image taken
  rcases cases_of_json taken with same | ⟨present, fresh⟩
  · rw [same]
  · rw [fresh.isUndefined]
    cases value with
    | undefined => exact (present rfl).elim
    | _ => rfl

/-! ### Steps and pipelines -/

/-- A transformation that supplies a value leaves what its name says, which is never undefined. -/
theorem leavesAt_of_supplies (supplies : passesUndefined transformation.id = false)
    (leaves : LeavesAt (fun _ => false) transformation) :
    LeavesAt (leavesUndefined transformation.id) transformation := by
  intro value args image taken
  have other (name : String) (passes : passesUndefined name = true) :
      transformation.id ≠ name := by
    intro same
    rw [← same, supplies] at passes
    cases passes
  rw [leavesUndefined_of_ne (other "first" rfl) (other "last" rfl), supplies, Bool.and_false]
  exact leaves value args image taken

/-- A transformation that makes fresh values leaves what its name says. -/
theorem leavesAt_of_makesFresh {run : Value → Outcome Value}
    (supplies : passesUndefined transformation.id = false)
    (runs : transformation.run = plain label run) (makes : MakesFresh run) :
    LeavesAt (leavesUndefined transformation.id) transformation :=
  leavesAt_of_supplies supplies (leavesAt_plain runs (leavesValue_of_makesFresh makes))

/-- A transformation that hands an undefined value on leaves what its name says. -/
theorem leavesAt_of_passes (notFirst : transformation.id ≠ "first")
    (notLast : transformation.id ≠ "last") (passes : passesUndefined transformation.id = true)
    (leaves : LeavesAt Value.isUndefined transformation) :
    LeavesAt (leavesUndefined transformation.id) transformation := by
  intro value args image taken
  rw [leavesUndefined_of_ne notFirst notLast, passes, Bool.and_true]
  exact leaves value args image taken

/-- What a built-in transformation leaves is told by its identifier. -/
theorem leavesAt_of_mem (known : transformation ∈ all dateTemplate) :
    LeavesAt (leavesUndefined transformation.id) transformation := by
  revert transformation
  simp only [all, List.forall_mem_cons]
  refine ⟨leavesAt_of_makesFresh rfl rfl (makesFresh_onText _),
    leavesAt_of_makesFresh rfl rfl (makesFresh_onText _),
    leavesAt_of_makesFresh rfl rfl (makesFresh_onText _),
    leavesAt_of_makesFresh rfl rfl (makesFresh_onText _),
    leavesAt_of_supplies rfl (leavesAt_withDefault rfl rfl fun length _ =>
      leavesValue_of_makesFresh (makesFresh_truncate length)),
    leavesAt_of_supplies rfl (leavesAt_withDefault rfl rfl fun decimals _ =>
      leavesValue_of_makesFresh (makesFresh_round decimals)),
    leavesAt_of_makesFresh rfl rfl (makesFresh_map fun _ => .float _),
    leavesAt_of_supplies rfl (leavesAt_withDefault rfl rfl fun separator _ =>
      leavesValue_of_makesFresh (makesFresh_join separator)),
    leavesAt_plain rfl leaves_first, leavesAt_plain rfl leaves_last,
    leavesAt_of_makesFresh rfl rfl makesFresh_length,
    leavesAt_of_passes (by simp) (by simp) rfl (leavesAt_withDefault rfl rfl fun template _ =>
      leaves_dateFormat template),
    leavesAt_of_passes (by simp) (by simp) rfl (leavesAt_plain rfl leaves_json),
    leavesAt_of_makesFresh rfl rfl (makesFresh_map fun _ => .float _),
    leavesAt_of_makesFresh rfl rfl (makesFresh_onText _),
    leavesAt_of_supplies rfl (leavesAt_withDefault rfl rfl fun fallback => leavesValue_default),
    leavesAt_of_makesFresh rfl rfl (makesFresh_onText _),
    leavesAt_of_makesFresh rfl rfl makesFresh_base64, ?_⟩
  exact fun listed member => (List.not_mem_nil member).elim

/-- Every transformation of the registry leaves what its name says. -/
theorem leavesAt_of_get? {name : String}
    (found : (registry dateTemplate).get? name = some transformation) :
    LeavesAt (leavesUndefined name) transformation := by
  obtain ⟨known, named⟩ := mem_of_get? found
  rw [← named]
  exact leavesAt_of_mem known

/-- A step that reports nothing leaves an undefined value exactly if it asks for an item in vain or
hands an undefined value on. -/
theorem isUndefined_apply {step : Step}
    (silent : ((registry dateTemplate).apply step value []).2 = []) :
    ((registry dateTemplate).apply step value []).1.isUndefined =
      leavesUndefined step.name value := by
  unfold Registry.apply at silent ⊢
  cases found : (registry dateTemplate).get? step.name with
  | none =>
    rw [found] at silent
    cases silent
  | some transformation =>
    rw [found, List.append_nil] at silent
    dsimp only at silent ⊢
    rw [List.append_nil]
    cases runs : transformation.run value (step.args.map .text) with
    | error fault =>
      rw [runs] at silent
      cases silent
    | ok image => exact leavesAt_of_get? found value step.args image runs

/-- A pipeline asks for an item in vain at some step, and all later steps hand the undefined value
on. -/
def LosesValue (dateTemplate : String) (value : Value) (steps : List Step) : Prop :=
  ∃ before step after, steps = before ++ step :: after ∧
    asksInVain step.name ((registry dateTemplate).applyAll value before).1 = true ∧
    ∀ later ∈ after, passesUndefined later.name = true

theorem losesValue_cons {step : Step} {rest : List Step} :
    LosesValue dateTemplate value (step :: rest) ↔
      (asksInVain step.name value = true ∧ ∀ later ∈ rest, passesUndefined later.name = true) ∨
        LosesValue dateTemplate ((registry dateTemplate).apply step value []).1 rest := by
  constructor
  · intro loses
    obtain ⟨before, asking, after, parts, vain, passed⟩ := loses
    cases before with
    | nil =>
      cases parts
      exact Or.inl ⟨vain, passed⟩
    | cons head front =>
      cases parts
      exact Or.inr ⟨front, asking, after, rfl, vain, passed⟩
  · intro loses
    rcases loses with ⟨vain, passed⟩ | ⟨front, asking, after, parts, vain, passed⟩
    · exact ⟨[], step, rest, rfl, vain, passed⟩
    · rw [parts]
      exact ⟨step :: front, asking, after, rfl, vain, passed⟩

/-- **A silent pipeline** ends undefined exactly if it hands an undefined value on from its start,
or from a step that asks for an item in vain. -/
theorem isUndefined_applyAll_iff {steps : List Step}
    (silent : ((registry dateTemplate).applyAll value steps).2 = []) :
    ((registry dateTemplate).applyAll value steps).1.isUndefined = true ↔
      (value.isUndefined = true ∧ ∀ step ∈ steps, passesUndefined step.name = true) ∨
        LosesValue dateTemplate value steps := by
  induction steps generalizing value with
  | nil =>
    have keeps : ¬ LosesValue dateTemplate value [] := by
      intro loses
      obtain ⟨before, asking, after, parts, -⟩ := loses
      exact List.append_ne_nil_of_right_ne_nil before (List.cons_ne_nil asking after) parts.symm
    rw [or_iff_left keeps]
    exact (and_iff_left fun step member => (List.not_mem_nil member).elim).symm
  | cons step rest ih =>
    rw [Registry.applyAll, List.append_eq_nil_iff] at silent
    obtain ⟨here, behind⟩ := silent
    rw [Registry.applyAll, ih behind, isUndefined_apply here, losesValue_cons, List.forall_mem_cons]
    simp only [leavesUndefined, Bool.or_eq_true, Bool.and_eq_true]
    tauto

/-! ### A closing default -/

/-- The registry has the default. -/
theorem exists_default (dateTemplate : String) : ∃ transformation,
    (registry dateTemplate).get? "default" = some transformation ∧
      transformation.run =
        withDefault "_default" (.text "") fun value fallback => .ok (default value fallback) :=
  ⟨_, rfl, rfl⟩

/-- No undefined value gets past a default step, unless it is given too many fallbacks to run. -/
theorem isUndefined_apply_default {step : Step} (named : step.name = "default")
    (few : step.args.length ≤ 1) (value : Value) :
    ((registry dateTemplate).apply step value []).1.isUndefined = false := by
  obtain ⟨transformation, known, runs⟩ := exists_default dateTemplate
  rw [Registry.apply, named, known, List.append_nil]
  dsimp only
  rw [runs]
  cases Nat.le_one_iff_eq_zero_or_eq_one.mp few with
  | inl without =>
    rw [List.length_eq_zero_iff.mp without]
    exact leavesValue_default rfl value _ rfl
  | inr single =>
    obtain ⟨fallback, args⟩ := List.length_eq_one_iff.mp single
    rw [args]
    exact leavesValue_default rfl value _ rfl

/-- A pipeline that ends in a default step has a value, whatever its other steps are and do. -/
theorem isUndefined_applyAll_default {step : Step} (named : step.name = "default")
    (few : step.args.length ≤ 1) (value : Value) (front : List Step) :
    ((registry dateTemplate).applyAll value (front ++ [step])).1.isUndefined = false := by
  rw [Registry.applyAll_append]
  exact isUndefined_apply_default named few _

end Builtin
end Stencil
