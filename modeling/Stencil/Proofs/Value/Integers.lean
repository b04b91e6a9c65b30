import Stencil.Proofs.Value.Keys
import Stencil.Proofs.Value.Writable
import Stencil.Value.Entries

/-!
# Values whose integers fit

The text of an integer is limited in length, and so a label cannot be given to every value.
`Value.integersFit` says that no integer in a value is too long, wherever it stands: the value has
a label then (`Value.label_succeeds`), and so has every key in it.
-/

namespace Stencil.Value

open Outcome

mutual

/-- Whether no integer in a value, be it in a key, is too long to be written. -/
def integersFit : Value → Bool
  | .int n => n.natAbs < Nat.pow 10 digitLimit
  | .list items | .tuple items | .set items => integersFitIn items
  | .map entries => integersFitOf entries
  | _ => true

/-- Whether the integers in all items can be written. -/
def integersFitIn : List Value → Bool
  | [] => true
  | item :: rest => item.integersFit && integersFitIn rest

/-- Whether the integers in all keys and values can be written. -/
def integersFitOf : List (Value × Value) → Bool
  | [] => true
  | (key, value) :: rest => key.integersFit && value.integersFit && integersFitOf rest

end

variable {value : Value} {items : List Value} {entries : List (Value × Value)}

/-- The integers in items fit if and only if those in each item do. -/
theorem integersFitIn_iff :
    integersFitIn items = true ↔ ∀ item ∈ items, item.integersFit = true := by
  induction items with
  | nil => simp [integersFitIn]
  | cons item rest ih => rw [integersFitIn, Bool.and_eq_true, ih, List.forall_mem_cons]

/-- The integers in entries fit if and only if those in each key and value do. -/
theorem integersFitOf_iff : integersFitOf entries = true ↔
    ∀ entry ∈ entries, entry.1.integersFit = true ∧ entry.2.integersFit = true := by
  induction entries with
  | nil => simp [integersFitOf]
  | cons entry rest ih =>
    obtain ⟨key, value⟩ := entry
    rw [integersFitOf, Bool.and_eq_true, Bool.and_eq_true, ih, List.forall_mem_cons]

/-- An integer that fits has a text. -/
theorem integerText_succeeds {n : Int} (fits : n.natAbs < Nat.pow 10 digitLimit) :
    Succeeds (integerText n) := by
  rw [integerText, if_neg (Nat.not_le.mpr fits)]
  exact succeeds_ok _

mutual

/-- A value whose integers fit can be inspected. -/
theorem inspect_succeeds (value : Value) (fits : value.integersFit = true) :
    Succeeds value.inspect := by
  cases value with
  | int n =>
    rw [integersFit, decide_eq_true_iff] at fits
    exact integerText_succeeds fits
  | list items => exact succeeds_map_iff.mpr (inspectItems_succeeds items fits)
  | tuple items => exact succeeds_map_iff.mpr (inspectItems_succeeds items fits)
  | set items =>
    obtain ⟨texts, shown⟩ := inspectItems_succeeds items fits
    rw [inspect, shown]
    split <;> exact succeeds_ok _
  | map entries => exact succeeds_map_iff.mpr (inspectEntries_succeeds entries fits)
  | _ => exact succeeds_ok _

/-- Items whose integers fit can be inspected. -/
theorem inspectItems_succeeds (items : List Value) (fits : integersFitIn items = true) :
    Succeeds (inspectItems items) := by
  cases items with
  | nil => exact succeeds_ok _
  | cons item rest =>
    rw [integersFitIn, Bool.and_eq_true] at fits
    obtain ⟨text, shown⟩ := inspect_succeeds item fits.1
    rw [inspectItems, shown]
    exact succeeds_map_iff.mpr (inspectItems_succeeds rest fits.2)

/-- Entries whose integers fit can be inspected. -/
theorem inspectEntries_succeeds (entries : List (Value × Value))
    (fits : integersFitOf entries = true) : Succeeds (inspectEntries entries) := by
  match entries with
  | [] => exact succeeds_ok _
  | (key, value) :: rest =>
    rw [integersFitOf, Bool.and_eq_true, Bool.and_eq_true] at fits
    obtain ⟨keyText, keyShown⟩ := inspect_succeeds key fits.1.1
    obtain ⟨valueText, valueShown⟩ := inspect_succeeds value fits.1.2
    rw [inspectEntries, keyShown, ok_bind, valueShown]
    exact succeeds_map_iff.mpr (inspectEntries_succeeds rest fits.2)

end

/-- A value whose integers fit has a label. -/
theorem label_succeeds (fits : value.integersFit = true) : Succeeds value.label := by
  cases value with
  | text s => exact succeeds_ok _
  | halved s => exact succeeds_ok _
  | date d => exact succeeds_ok _
  | moment m => exact succeeds_ok _
  | _ => exact inspect_succeeds _ fits

section Entries

/-- The integers of an item fit where those of the whole do. -/
theorem integersFit_of_items? (fits : value.integersFit = true) (read : value.items? = some items) :
    ∀ item ∈ items, item.integersFit = true := by
  cases value with
  | list parts =>
    cases read
    exact integersFitIn_iff.mp fits
  | tuple parts =>
    cases read
    exact integersFitIn_iff.mp fits
  | set parts =>
    cases read
    exact integersFitIn_iff.mp fits
  | text s =>
    cases read
    intro item member
    obtain ⟨c, -, rfl⟩ := List.mem_map.mp member
    rfl
  | halved s =>
    cases read
    intro item member
    obtain ⟨sign, -, rfl⟩ := List.mem_map.mp member
    cases sign <;> rfl
  | bytes data =>
    cases read
    intro item member
    obtain ⟨byte, -, rfl⟩ := List.mem_map.mp member
    rw [integersFit, ← isWritable]
    exact isWritable_int_of_lt (Nat.lt_of_lt_of_le byte.toNat_lt (by decide : 2 ^ 8 ≤ Nat.pow 10 3))
      (by decide)
  | map entries =>
    cases read
    intro item member
    obtain ⟨entry, inside, rfl⟩ := List.mem_map.mp member
    exact (integersFitOf_iff.mp fits entry inside).1
  | _ => cases read

/-- The integers in entries fit if those in the items they are read from do. -/
theorem integersFit_of_entriesFrom {position : Nat}
    (fits : ∀ item ∈ items, item.integersFit = true)
    (read : entriesFrom position items = .ok entries) : integersFitOf entries = true := by
  induction items generalizing position entries with
  | nil =>
    cases read
    rfl
  | cons item rest ih =>
    rw [List.forall_mem_cons] at fits
    obtain ⟨⟨key, value⟩, taken, later⟩ := bind_eq_ok.mp read
    obtain ⟨others, restRead, made⟩ := bind_eq_ok.mp later
    cases made
    have pair : key.integersFit = true ∧ value.integersFit = true := by
      rw [entryOf] at taken
      split at taken
      · cases taken
      · rename_i parts
        split at taken
        · cases taken
        · cases taken
          have inside := integersFit_of_items? fits.1 parts
          exact ⟨inside key (by simp), inside value (by simp)⟩
      · cases taken
    rw [integersFitOf, pair.1, pair.2, ih fits.2 restRead]
    rfl

/-- The integers fit after more entries are set if they fit before and in the entries. -/
theorem integersFit_foldl_setEntry {start more : List (Value × Value)}
    (startFits : integersFitOf start = true) (moreFits : integersFitOf more = true) :
    integersFitOf (more.foldl (fun map (key, value) => setEntry key value map) start) = true :=
  integersFitOf_iff.mpr (forall_mem_foldl_setEntry (·.integersFit = true) (·.integersFit = true)
    (integersFitOf_iff.mp startFits) (integersFitOf_iff.mp moreFits))

/-- The integers in the entries of a value fit where those of the value do. -/
theorem integersFit_of_entries (fits : value.integersFit = true)
    (read : value.entries = .ok entries) : integersFitOf entries = true := by
  rw [Value.entries.eq_def] at read
  split at read
  · cases read
    exact fits
  · split at read
    · rename_i items listed
      obtain ⟨pairs, pairsRead, made⟩ := bind_eq_ok.mp read
      rw [← Except.ok.inj made]
      exact integersFit_foldl_setEntry rfl
        (integersFit_of_entriesFrom (integersFit_of_items? fits listed) pairsRead)
    · cases read

end Entries

end Stencil.Value
