import Stencil.Proofs.Outcome
import Stencil.Resolve.Resolver

/-!
# Templates within values

A value is resolved by resolving the texts in it, wherever they stand (`Value.texts`). So it is
resolved alike where all its texts are (`Resolver.resolveWithin_congr`), and the first text that
cannot be resolved is what ends the resolution (`Resolver.resolveWithin_eq_error_iff`).
-/

namespace Stencil

open Outcome

namespace Value

mutual

/-- The texts of a template: itself, or those of its items and of the values of its entries. -/
def texts : Value → List String
  | .text s => [s]
  | .list items | .tuple items => textsIn items
  | .map entries => textsOf entries
  | _ => []

/-- The texts of several templates. -/
def textsIn : List Value → List String
  | [] => []
  | item :: rest => texts item ++ textsIn rest

/-- The texts of the values of entries; keys are no templates. -/
def textsOf : List (Value × Value) → List String
  | [] => []
  | (_, value) :: rest => texts value ++ textsOf rest

end

end Value

namespace Resolver

variable {resolver second : Resolver} {policy : Policy} {values other : Fields Value}

mutual

/-- Resolvers that end alike with every text of a template end alike with the template. -/
theorem resolveWithin_congr (template : Value) (same : ∀ text ∈ template.texts,
      resolveText resolver.registry policy values text =
        resolveText second.registry policy other text) :
    resolver.resolveWithin policy values template =
      second.resolveWithin policy other template := by
  cases template with
  | text s => rw [resolveWithin, resolveWithin, same s (List.mem_singleton_self s)]
  | list items => rw [resolveWithin, resolveWithin, resolveItems_congr items same]
  | tuple items => rw [resolveWithin, resolveWithin, resolveItems_congr items same]
  | map entries => rw [resolveWithin, resolveWithin, resolveEntries_congr entries same]
  | _ => rfl

/-- Items are resolved alike if the texts in them are. -/
theorem resolveItems_congr (items : List Value) (same : ∀ text ∈ Value.textsIn items,
      resolveText resolver.registry policy values text =
        resolveText second.registry policy other text) :
    resolver.resolveItems policy values items = second.resolveItems policy other items := by
  cases items with
  | nil => rfl
  | cons item rest =>
    rw [Value.textsIn, List.forall_mem_append] at same
    rw [resolveItems, resolveItems, resolveWithin_congr item same.1, resolveItems_congr rest same.2]

/-- Entries are resolved alike if the texts in them are. -/
theorem resolveEntries_congr (entries : List (Value × Value))
    (same : ∀ text ∈ Value.textsOf entries,
      resolveText resolver.registry policy values text =
        resolveText second.registry policy other text) :
    resolver.resolveEntries policy values entries =
      second.resolveEntries policy other entries := by
  match entries with
  | [] => rfl
  | (key, value) :: rest =>
    rw [Value.textsOf, List.forall_mem_append] at same
    rw [resolveEntries, resolveEntries, resolveWithin_congr value same.1,
      resolveEntries_congr rest same.2]

end

mutual

/-- A value is gone through text by text, and the first text that ends with a fault ends the
walk. -/
theorem resolveWithin_eq_error_iff (template : Value) (fault : Fault) :
    resolver.resolveWithin policy values template = .error fault ↔
      FailsFirst (resolveText resolver.registry policy values) template.texts fault := by
  cases template with
  | text s =>
    rw [resolveWithin, map_eq_error_iff, Value.texts, failsFirst_cons_iff]
    simp [not_failsFirst_nil]
  | list items =>
    rw [resolveWithin, map_eq_error_iff, resolveItems_eq_error_iff items]
    rfl
  | tuple items =>
    rw [resolveWithin, map_eq_error_iff, resolveItems_eq_error_iff items]
    rfl
  | map entries =>
    rw [resolveWithin, map_eq_error_iff, resolveEntries_eq_error_iff entries]
    rfl
  | _ => exact iff_of_false (fun failed => by cases failed) not_failsFirst_nil

/-- Resolving items fails with the first failure among their texts. -/
theorem resolveItems_eq_error_iff (items : List Value) (fault : Fault) :
    resolver.resolveItems policy values items = .error fault ↔
      FailsFirst (resolveText resolver.registry policy values) (Value.textsIn items) fault := by
  cases items with
  | nil => exact iff_of_false (fun failed => by cases failed) not_failsFirst_nil
  | cons item rest =>
    rw [resolveItems, both_eq_error_iff, resolveWithin_eq_error_iff item,
      succeeds_iff_of_failsFirst (resolveWithin_eq_error_iff item),
      resolveItems_eq_error_iff rest, Value.textsIn, failsFirst_append_iff]

/-- Resolving entries fails with the first failure among their texts. -/
theorem resolveEntries_eq_error_iff (entries : List (Value × Value)) (fault : Fault) :
    resolver.resolveEntries policy values entries = .error fault ↔
      FailsFirst (resolveText resolver.registry policy values) (Value.textsOf entries) fault := by
  match entries with
  | [] => exact iff_of_false (fun failed => by cases failed) not_failsFirst_nil
  | (key, value) :: rest =>
    rw [resolveEntries, both_eq_error_iff, resolveWithin_eq_error_iff value,
      succeeds_iff_of_failsFirst (resolveWithin_eq_error_iff value),
      resolveEntries_eq_error_iff rest, Value.textsOf, failsFirst_append_iff]

end

/-- A template is resolved if every text in it is. -/
theorem resolveWithin_succeeds (template : Value) (each : ∀ text ∈ template.texts,
      Succeeds (resolveText resolver.registry policy values text)) :
    Succeeds (resolver.resolveWithin policy values template) :=
  (succeeds_iff_of_failsFirst (resolveWithin_eq_error_iff template)).mpr each

end Resolver
end Stencil
