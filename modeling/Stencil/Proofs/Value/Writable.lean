import Mathlib.Tactic.SplitIfs
import Stencil.Context.Lookup
import Stencil.Proofs.Outcome
import Stencil.Value.Json

/-!
# Values that can be written

The text of an integer is limited in length, so a value is shown without a fault only if it is no
integer that is too long. `Value.isWritable` says so of a value and of all values that a path leads
to from it. Looking up keeps it (`Value.isWritable_of_follow`), and a value that has it is shown
(`Value.shown?_succeeds`).
-/

namespace Stencil

open Outcome

namespace Value

mutual

/-- Whether a value and the values under it are no integers too long to be written. Keys and the
items of sets are not under a value, as no path leads to them. -/
def isWritable : Value → Bool
  | .int n => n.natAbs < Nat.pow 10 digitLimit
  | .list items | .tuple items => areWritable items
  | .map entries => entriesWritable entries
  | _ => true

/-- Whether all items of a list can be written. -/
def areWritable : List Value → Bool
  | [] => true
  | item :: rest => item.isWritable && areWritable rest

/-- Whether the values of all entries can be written. -/
def entriesWritable : List (Value × Value) → Bool
  | [] => true
  | (_, value) :: rest => value.isWritable && entriesWritable rest

end

/-- An integer with few digits can be written. -/
theorem isWritable_int_of_lt {number digits : Nat} (small : number < Nat.pow 10 digits)
    (few : digits ≤ digitLimit) : (Value.int number).isWritable = true := by
  have bound {limit : Nat} (room : digits ≤ limit) : Nat.pow 10 digits ≤ Nat.pow 10 limit :=
    Nat.pow_le_pow_right (by decide) room
  rw [isWritable, decide_eq_true_iff, Int.natAbs_natCast]
  exact Nat.lt_of_lt_of_le small (bound few)

/-- Items are writable if and only if each of them is. -/
theorem areWritable_iff {items : List Value} :
    areWritable items = true ↔ ∀ item ∈ items, item.isWritable = true := by
  induction items with
  | nil => simp [areWritable]
  | cons item rest ih => rw [areWritable, Bool.and_eq_true, ih, List.forall_mem_cons]

/-- Entries are writable if and only if each value is. -/
theorem entriesWritable_iff {entries : List (Value × Value)} :
    entriesWritable entries = true ↔ ∀ entry ∈ entries, entry.2.isWritable = true := by
  induction entries with
  | nil => simp [entriesWritable]
  | cons entry rest ih =>
    obtain ⟨key, value⟩ := entry
    rw [entriesWritable, Bool.and_eq_true, ih, List.forall_mem_cons]

/-- A value that may be missing is writable if it is writable where it is found. -/
theorem isWritable_getD {found : Option Value}
    (writable : ∀ value ∈ found, value.isWritable = true) :
    (found.getD .undefined).isWritable = true := by
  cases found with
  | none => rfl
  | some value => exact writable value rfl

/-- An item of several values, or undefined in its place. -/
theorem isWritable_getD_of_mem {items : List Value} {found : Option Value}
    (writable : areWritable items = true) (inside : ∀ item ∈ found, item ∈ items) :
    (found.getD .undefined).isWritable = true :=
  isWritable_getD fun item taken => areWritable_iff.mp writable item (inside item taken)

/-- An item of writable items is writable. -/
theorem isWritable_getD_items {items : List Value} (writable : areWritable items = true)
    (index : Nat) : (items.getD index .undefined).isWritable = true := by
  rw [List.getD_eq_getElem?_getD]
  exact isWritable_getD_of_mem writable fun item => List.mem_of_getElem?

/-- A value under a text key is one of the values of a map. -/
theorem exists_mem_of_lookupText {key : String} {entries : List (Value × Value)} {value : Value}
    (found : lookupText key entries = some value) : ∃ entry ∈ entries, entry.2 = value := by
  induction entries with
  | nil => cases found
  | cons entry rest ih =>
    have behind (later : lookupText key rest = some value) :
        ∃ other ∈ entry :: rest, other.2 = value := by
      obtain ⟨other, member, same⟩ := ih later
      exact ⟨other, List.mem_cons_of_mem _ member, same⟩
    rw [lookupText.eq_def] at found
    split at found
    · contradiction
    · rename_i same
      cases same
      split_ifs at found with named
      · exact ⟨_, List.mem_cons_self, Option.some.inj found⟩
      · exact behind found
    · rename_i same
      cases same
      exact behind found

section Lookup

variable {value image : Value}

/-- What is asked of writable items by a name is writable. -/
theorem isWritable_of_itemNamed {items : List Value} {name : String}
    (writable : areWritable items = true) (taken : itemNamed items name = .ok image) :
    image.isWritable = true := by
  rw [itemNamed] at taken
  split_ifs at taken
  · obtain ⟨position, -, same⟩ := bind_eq_ok.mp taken
    rw [← Except.ok.inj same]
    exact isWritable_getD_items writable position
  · rw [← Except.ok.inj taken]
    rfl

/-- The child of a writable value is writable. -/
theorem isWritable_of_child {name : String} (writable : value.isWritable = true)
    (taken : value.child name = .ok image) : image.isWritable = true := by
  rw [child.eq_def] at taken
  split at taken
  · rename_i entries
    rw [← Except.ok.inj taken]
    refine isWritable_getD fun found leads => ?_
    obtain ⟨entry, member, rfl⟩ := exists_mem_of_lookupText leads
    exact entriesWritable_iff.mp writable entry member
  · exact isWritable_of_itemNamed writable taken
  · exact isWritable_of_itemNamed writable taken
  · rename_i data
    refine isWritable_of_itemNamed (areWritable_iff.mpr fun item member => ?_) taken
    obtain ⟨byte, -, rfl⟩ := List.mem_map.mp member
    exact isWritable_int_of_lt (Nat.lt_of_lt_of_le byte.toNat_lt (by decide : 2 ^ 8 ≤ Nat.pow 10 3))
      (by decide)
  · rw [← Except.ok.inj taken]
    rfl

/-- The item of a writable value is writable. -/
theorem isWritable_item (writable : value.isWritable = true) (index : Nat) :
    (value.item index).isWritable = true := by
  rw [item.eq_def]
  split
  · exact isWritable_getD_items writable index
  · exact isWritable_getD_items writable index
  · rfl

/-- Indices lead from a writable value to a writable one. -/
theorem isWritable_foldl_item (writable : value.isWritable = true) (indices : List Nat) :
    (indices.foldl item value).isWritable = true := by
  induction indices generalizing value with
  | nil => exact writable
  | cons index rest ih => exact ih (isWritable_item writable index)

/-- A step along a segment leads from a writable value to a writable one. -/
theorem isWritable_of_step {segment : Segment} (writable : value.isWritable = true)
    (taken : value.step segment = .ok image) : image.isWritable = true := by
  rw [step] at taken
  split_ifs at taken
  · rw [← Except.ok.inj taken]
    rfl
  · obtain ⟨found, leads, same⟩ := bind_eq_ok.mp taken
    rw [← Except.ok.inj same]
    exact isWritable_foldl_item (isWritable_of_child writable leads) segment.indices

/-- A path leads from a writable value to a writable one. -/
theorem isWritable_of_follow {path : Path} (writable : value.isWritable = true)
    (leads : value.follow path = .ok image) : image.isWritable = true := by
  induction path generalizing value with
  | nil =>
    rw [← Except.ok.inj leads]
    exact writable
  | cons segment rest ih =>
    obtain ⟨next, taken, follows⟩ := bind_eq_ok.mp leads
    exact ih (isWritable_of_step writable taken) follows

/-- A value that can be written is shown. -/
theorem shown?_succeeds (writable : value.isWritable = true) : Succeeds value.shown? := by
  have substitutes : Succeeds value.substitution := by
    cases value with
    | int n =>
      rw [isWritable, decide_eq_true_iff, ← Nat.not_le] at writable
      have written : integerText n = .ok (toString n) := by rw [integerText, if_neg writable]
      exact ⟨_, written⟩
    | _ => exact ⟨_, rfl⟩
  rw [shown?]
  split_ifs
  · exact succeeds_ok _
  · exact succeeds_map_iff.mpr substitutes

end Lookup
end Value

/-- Whether all values that a path can lead to among the values of a dictionary can be written. -/
def Fields.areWritable (values : Fields Value) : Bool :=
  (Value.ofFields values).isWritable

/-- Whether the values of a context can be written. -/
def Context.isWritable (context : Context) : Bool :=
  context.merged.areWritable

/-- A path leads among writable values to a writable one. -/
theorem isWritable_of_lookup {path : Path} {values : Fields Value} {value : Value}
    (writable : values.areWritable = true) (leads : lookup path values = .ok value) :
    value.isWritable = true := by
  rw [lookup] at leads
  split_ifs at leads
  · rw [← Except.ok.inj leads]
    rfl
  · exact Value.isWritable_of_follow writable leads

end Stencil
