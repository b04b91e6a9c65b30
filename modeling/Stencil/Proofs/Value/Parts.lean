import Stencil.Proofs.Value.Integers

/-!
# Values inside a value

The values that a value is built from directly are its parts, and `Value.inside` lists it and
everything that stands in it at any depth. What holds of a value as soon as it holds of its parts
holds of all values (`Value.parts_induction`).
-/

namespace Stencil.Value

/-- The values that a value is built from directly. The keys of a map are none of them. -/
def parts : Value → List Value
  | .list items | .tuple items | .set items => items
  | .map entries => entries.map (·.2)
  | _ => []

mutual

/-- A value and the values that stand in it at any depth. -/
def inside : Value → List Value
  | .list items => .list items :: insideItems items
  | .tuple items => .tuple items :: insideItems items
  | .set items => .set items :: insideItems items
  | .map entries => .map entries :: insideEntries entries
  | value => [value]

/-- All values inside the items of a list. -/
def insideItems : List Value → List Value
  | [] => []
  | item :: rest => item.inside ++ insideItems rest

/-- All values inside the entries of a map. -/
def insideEntries : List (Value × Value) → List Value
  | [] => []
  | (_, value) :: rest => value.inside ++ insideEntries rest

end

/-- Whether all keys of maps in a value are texts of characters. -/
def HasTextKeys (value : Value) : Prop :=
  ∀ part ∈ value.inside, ∀ entries, part = .map entries →
    ∀ entry ∈ entries, ∃ name, entry.1 = .text name

variable {value part : Value}

/-- A part is smaller than the whole. -/
theorem sizeOf_lt_of_mem_parts (member : part ∈ value.parts) : sizeOf part < sizeOf value := by
  cases value with
  | list items | tuple items | set items =>
    have smaller : sizeOf part < sizeOf items := List.sizeOf_lt_of_mem member
    simp only [list.sizeOf_spec, tuple.sizeOf_spec, set.sizeOf_spec]
    omega
  | map entries =>
    obtain ⟨⟨key, value⟩, listed, rfl⟩ := List.mem_map.mp member
    have smaller := List.sizeOf_lt_of_mem listed
    simp only [map.sizeOf_spec, Prod.mk.sizeOf_spec] at smaller ⊢
    omega
  | _ => cases member

/-- What holds of a value as soon as it holds of its parts holds of all values. -/
@[elab_as_elim]
theorem parts_induction {motive : Value → Prop}
    (whole : ∀ value, (∀ part ∈ value.parts, motive part) → motive value) (value : Value) :
    motive value :=
  whole value fun part _ => parts_induction whole part
termination_by value
decreasing_by exact sizeOf_lt_of_mem_parts ‹_›

/-- What is inside items is inside one of them. -/
theorem insideItems_eq (items : List Value) : insideItems items = items.flatMap inside := by
  induction items with
  | nil => rfl
  | cons item rest ih => rw [insideItems, ih, List.flatMap_cons]

/-- What is inside entries is inside one of their values. -/
theorem insideEntries_eq (entries : List (Value × Value)) :
    insideEntries entries = (entries.map (·.2)).flatMap inside := by
  induction entries with
  | nil => rfl
  | cons entry rest ih => rw [insideEntries, ih, List.map_cons, List.flatMap_cons]

/-- In a value stand the value itself and what stands in its parts. -/
theorem inside_eq (value : Value) : value.inside = value :: value.parts.flatMap inside := by
  cases value with
  | list items => rw [inside, insideItems_eq, parts]
  | tuple items => rw [inside, insideItems_eq, parts]
  | set items => rw [inside, insideItems_eq, parts]
  | map entries => rw [inside, insideEntries_eq, parts]
  | _ => rfl

/-- A statement holds throughout a value if it holds of the value and throughout its parts. -/
theorem forall_mem_inside_iff {holds : Value → Prop} :
    (∀ part ∈ value.inside, holds part) ↔
      holds value ∧ ∀ item ∈ value.parts, ∀ part ∈ item.inside, holds part := by
  rw [inside_eq, List.forall_mem_cons, List.forall_mem_flatMap]

/-- A value has keys of characters if its own keys are names and its parts have such keys. -/
theorem hasTextKeys_iff_parts : value.HasTextKeys ↔
    (∀ entries, value = .map entries → ∀ entry ∈ entries, ∃ name, entry.1 = .text name) ∧
      ∀ part ∈ value.parts, part.HasTextKeys :=
  forall_mem_inside_iff

/-- The integers of a part fit if those of the whole do. -/
theorem integersFit_of_mem_parts (fits : value.integersFit = true) (member : part ∈ value.parts) :
    part.integersFit = true := by
  cases value with
  | list items | tuple items | set items => exact integersFitIn_iff.mp fits part member
  | map entries =>
    obtain ⟨entry, listed, rfl⟩ := List.mem_map.mp member
    exact (integersFitOf_iff.mp fits entry listed).2
  | _ => cases member

theorem mem_inside_self (value : Value) : value ∈ value.inside := by
  rw [inside_eq]
  exact List.mem_cons_self

/-- What is inside a part is inside the whole. -/
theorem mem_inside_of_mem_parts {whole : Value} (among : part ∈ whole.parts)
    (member : value ∈ part.inside) : value ∈ whole.inside := by
  rw [inside_eq]
  exact List.mem_cons_of_mem _ (List.mem_flatMap.mpr ⟨part, among, member⟩)

/-- The integers of what stands in a value fit where those of the value do. -/
theorem integersFit_of_mem_inside (fits : value.integersFit = true) :
    ∀ part ∈ value.inside, part.integersFit = true := by
  induction value using parts_induction with
  | whole value ih =>
    exact forall_mem_inside_iff.mpr
      ⟨fits, fun item member => ih item member (integersFit_of_mem_parts fits member)⟩

end Stencil.Value
