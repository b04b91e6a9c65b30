import Mathlib.Tactic.SplitIfs
import Stencil.Proofs.Fields
import Stencil.Proofs.Outcome
import Stencil.Transform.Builtin

/-!
# What transformations make anew

Most built-in transformations make their value anew, a text or a number, and take nothing of it from
the value they are given (`Builtin.MakesFresh`). A date format and JSON text are made anew unless
the value is left as it is, because it denotes no date (`Builtin.cases_of_dateFormat`) or is
undefined (`Builtin.cases_of_json`).
-/

namespace Stencil.Builtin

open Outcome

/-- A text, a number or a count. -/
inductive Fresh : Value → Prop
  | text (s : String) : Fresh (.text s)
  | float (x : Binary64) : Fresh (.float x)
  | count {size : Nat} (few : size < countLimit) : Fresh (.int size)

/-- An operation whose values are all made anew. -/
def MakesFresh (run : Value → Outcome Value) : Prop :=
  ∀ value image, run value = .ok image → Fresh image

variable {dateTemplate : String} {value image : Value}

/-- What is made of a first result is fresh if everything made so is. -/
theorem makesFresh_map {α : Type} {first : Value → Outcome α} {make : α → Value}
    (fresh : ∀ result, Fresh (make result)) :
    MakesFresh fun value => do return make (← first value) := by
  intro value image taken
  obtain ⟨result, -, same⟩ := bind_eq_ok.mp taken
  rw [← Except.ok.inj same]
  exact fresh result

/-- A change of the text makes a fresh text. -/
theorem makesFresh_onText (change : List Char → List Char) : MakesFresh (onText change) :=
  makesFresh_map fun _ => .text _

/-- The base64 encoding makes a fresh text. -/
theorem makesFresh_base64 : MakesFresh base64 :=
  makesFresh_onText fun text => Text.base64Encode (Text.utf8Bytes text)

/-- Truncating makes a fresh text. -/
theorem makesFresh_truncate (length : Value) : MakesFresh (truncate · length) := by
  intro value image taken
  obtain ⟨text, -, cut⟩ := bind_eq_ok.mp taken
  obtain ⟨limit, -, same⟩ := bind_eq_ok.mp cut
  rw [← Except.ok.inj same]
  exact .text _

/-- Rounding makes a fresh number. -/
theorem makesFresh_round (decimals : Value) : MakesFresh (round · decimals) := by
  intro value image taken
  obtain ⟨places, -, rounds⟩ := bind_eq_ok.mp taken
  split_ifs at rounds
  obtain ⟨number, -, same⟩ := bind_eq_ok.mp rounds
  split_ifs at same
  · rw [← Except.ok.inj same]
    exact .float _
  · obtain ⟨multiple, -, back⟩ := bind_eq_ok.mp same
    rw [← Except.ok.inj back]
    exact .float _

/-- Joining makes a fresh text. -/
theorem makesFresh_join (separator : Value) : MakesFresh (join · separator) := by
  have joins_items (items : List Value) (image : Value)
      (taken : join (.list items) separator = .ok image) : Fresh image := by
    obtain ⟨between, -, joins⟩ := bind_eq_ok.mp taken
    obtain ⟨texts, -, same⟩ := bind_eq_ok.mp joins
    rw [← Except.ok.inj same]
    exact .text _
  intro value image taken
  cases value with
  | list items => exact joins_items items image taken
  | tuple items => exact joins_items items image taken
  | _ =>
    obtain ⟨text, -, same⟩ := bind_eq_ok.mp taken
    rw [← Except.ok.inj same]
    exact .text _

/-- A count is fresh. -/
theorem fresh_of_count {size : Nat} (counted : count size = .ok image) : Fresh image := by
  unfold count at counted
  split_ifs at counted with few
  rw [← Except.ok.inj counted]
  exact .count few

/-- The length is a fresh count. -/
theorem makesFresh_length : MakesFresh length := by
  intro value image taken
  unfold length at taken
  split at taken
  · exact fresh_of_count taken
  · exact fresh_of_count taken
  · exact fresh_of_count taken
  · exact fresh_of_count taken
  · exact fresh_of_count taken

/-- Formatting keeps the value, or makes a fresh text of one that denotes a moment. -/
theorem cases_of_dateFormat {template : Value}
    (taken : dateFormat dateTemplate value template = .ok image) :
    image = value ∨ ((∃ moment, value.moment? = some moment) ∧ Fresh image) := by
  simp only [dateFormat] at taken
  split at taken
  · exact .inl (Except.ok.inj taken).symm
  · rename_i moment denoted
    refine .inr ⟨⟨moment, denoted⟩, ?_⟩
    split_ifs at taken
    · obtain ⟨chosen, -, same⟩ := bind_eq_ok.mp taken
      rw [← Except.ok.inj same]
      exact .text _
    · obtain ⟨chosen, -, same⟩ := bind_eq_ok.mp taken
      rw [← Except.ok.inj same]
      exact .text _

/-- Writing as JSON keeps the value, or makes a fresh text of one that is there. -/
theorem cases_of_json (taken : json value = .ok image) :
    image = value ∨ (value ≠ .undefined ∧ Fresh image) := by
  unfold json at taken
  split at taken
  · exact .inl (Except.ok.inj taken).symm
  · rename_i present
    refine .inr ⟨present, ?_⟩
    split at taken
    · rw [← Except.ok.inj taken]
      exact .text _
    · obtain ⟨text, -, same⟩ := bind_eq_ok.mp taken
      rw [← Except.ok.inj same]
      exact .text _

/-- What is found under a name is a built-in transformation of that name. -/
theorem mem_of_get? {name : String} {transformation : Transformation}
    (found : (registry dateTemplate).get? name = some transformation) :
    transformation ∈ all dateTemplate ∧ transformation.id = name := by
  obtain ⟨listed, known, same⟩ := List.mem_map.mp (Fields.mem_of_get? found)
  cases same
  exact ⟨known, rfl⟩

end Stencil.Builtin
