import Stencil.Context.Lookup
import Stencil.Value.Json
import Stencil.Value.Number

/-!
# Values with their dates spelled

`Value.spellDates` puts the text of a date or a moment in its place, also inside lists, tuples and
maps. A value is displayed and spelled as JSON as before (`display_spellDates`,
`toJson_spellDates`), and a path leads to the spelled value of what it led to
(`follow_spellDates`).
-/

namespace Stencil.Value

mutual

/-- A value with texts in place of dates and moments; keys and the items of sets stay as they are.
-/
def spellDates : Value → Value
  | .date d => .text (String.ofList d.isoText)
  | .moment m => .text (String.ofList m.isoText)
  | .list items => .list (spellItems items)
  | .tuple items => .tuple (spellItems items)
  | .map entries => .map (spellEntries entries)
  | other => other

/-- The items of a list with their dates spelled. -/
def spellItems : List Value → List Value
  | [] => []
  | item :: rest => spellDates item :: spellItems rest

/-- The entries of a map with the dates of their values spelled. -/
def spellEntries : List (Value × Value) → List (Value × Value)
  | [] => []
  | (key, value) :: rest => (key, spellDates value) :: spellEntries rest

end

/-- Spelling the dates of items spells those of each. -/
theorem spellItems_eq_map (items : List Value) : spellItems items = items.map spellDates := by
  induction items with
  | nil => rfl
  | cons item rest ih => rw [spellItems, ih, List.map_cons]

/-- Spelling the dates of entries spells those of each value. -/
theorem spellEntries_eq_map (entries : List (Value × Value)) :
    spellEntries entries = entries.map fun (key, value) => (key, spellDates value) := by
  induction entries with
  | nil => rfl
  | cons entry rest ih => rw [spellEntries, ih, List.map_cons]

variable (value : Value)

/-- A value and its spelled value are undefined alike. -/
theorem isUndefined_spellDates : value.spellDates.isUndefined = value.isUndefined := by
  cases value <;> rfl

/-- A value and its spelled value are null alike. -/
theorem isNull_spellDates : value.spellDates.isNull = value.isNull := by
  cases value <;> rfl

/-- A value and its spelled value are absent alike. -/
theorem isAbsent_spellDates : value.spellDates.isAbsent = value.isAbsent := by
  cases value <;> rfl

/-! ### Text -/

mutual

/-- A value and its spelled value are shown alike. -/
theorem display_spellDates (value : Value) : value.spellDates.display = value.display := by
  cases value with
  | list items | tuple items => rw [spellDates, display, display, displayItems_spellItems items]
  | _ => rfl

/-- Items and their spelled values are shown alike. -/
theorem displayItems_spellItems (items : List Value) :
    displayItems (spellItems items) = displayItems items := by
  cases items with
  | nil => rfl
  | cons item rest =>
    rw [spellItems, displayItems, displayItems, isAbsent_spellDates, display_spellDates item,
      displayItems_spellItems rest]

end

mutual

/-- A value and its spelled value have the same JSON. -/
theorem toJson_spellDates (value : Value) : value.spellDates.toJson = value.toJson := by
  cases value with
  | list items | tuple items => rw [spellDates, toJson, toJson, itemsJson_spellItems items]
  | map entries => rw [spellDates, toJson, toJson, entriesJson_spellEntries entries]
  | _ => rfl

/-- Items and their spelled values have the same JSON. -/
theorem itemsJson_spellItems (items : List Value) :
    itemsJson (spellItems items) = itemsJson items := by
  cases items with
  | nil => rfl
  | cons item rest =>
    rw [spellItems, itemsJson, itemsJson, toJson_spellDates item, itemsJson_spellItems rest]

/-- Entries and their spelled values have the same JSON. -/
theorem entriesJson_spellEntries (entries : List (Value × Value)) :
    entriesJson (spellEntries entries) = entriesJson entries := by
  match entries with
  | [] => rfl
  | (key, value) :: rest =>
    rw [spellEntries, entriesJson, entriesJson, toJson_spellDates value,
      entriesJson_spellEntries rest]

end

/-- A value and its spelled value have the same JSON text. -/
theorem jsonText_spellDates : value.spellDates.jsonText = value.jsonText := by
  rw [jsonText, jsonText, toJson_spellDates]

/-- A value and its spelled value are shown alike in a template. -/
theorem shown?_spellDates : value.spellDates.shown? = value.shown? := by
  have same : value.spellDates.substitution = value.substitution := by
    have json := value.jsonText_spellDates
    cases value with
    | list items | tuple items | map entries =>
      rw [spellDates] at json
      simp only [spellDates, substitution, collectionText, json]
    | _ => rfl
  rw [shown?, shown?, isUndefined_spellDates, same]

/-- A value and its spelled value have the same number. -/
theorem toNumber_spellDates : value.spellDates.toNumber = value.toNumber := by
  have same := value.display_spellDates
  cases value with
  | list items | tuple items | map entries =>
    rw [spellDates] at same
    simp only [spellDates, toNumber, same]
  | _ => rfl

/-! ### Paths -/

/-- What is looked up among spelled entries is the spelled value. -/
theorem lookupText_spellEntries (key : String) (entries : List (Value × Value)) :
    lookupText key (spellEntries entries) = (lookupText key entries).map spellDates := by
  induction entries with
  | nil => rfl
  | cons entry rest ih =>
    obtain ⟨name, value⟩ := entry
    cases name with
    | text name =>
      rw [spellEntries, lookupText, lookupText, ih]
      split <;> rfl
    | _ => exact ih

/-- An item of spelled items is the item, spelled. -/
theorem getD_spellItems (items : List Value) (index : Nat) :
    (spellItems items).getD index .undefined = (items.getD index .undefined).spellDates := by
  rw [spellItems_eq_map, List.getD_eq_getElem?_getD, List.getD_eq_getElem?_getD, List.getElem?_map]
  cases items[index]? <;> rfl

/-- What is asked of spelled items by a name is the item, spelled. -/
theorem itemNamed_spellItems (items : List Value) (name : String) :
    itemNamed (spellItems items) name = (itemNamed items name).map spellDates := by
  unfold itemNamed
  split
  · cases positionOf name with
    | error fault => rfl
    | ok position => exact congrArg Except.ok (getD_spellItems items position)
  · rfl

/-- The child of a spelled value is the child, spelled. -/
theorem child_spellDates (name : String) :
    value.spellDates.child name = (value.child name).map spellDates := by
  cases value with
  | list items | tuple items => exact itemNamed_spellItems items name
  | map entries =>
    rw [spellDates, child, child, lookupText_spellEntries]
    cases lookupText name entries <;> rfl
  | bytes data =>
    have plain : spellItems (data.map fun byte => .int byte.toNat) =
        data.map fun byte => .int byte.toNat := by
      rw [spellItems_eq_map, List.map_map]
      rfl
    have named := itemNamed_spellItems (data.map fun byte => .int byte.toNat) name
    rwa [plain] at named
  | _ => rfl

/-- The item of a spelled value is the item, spelled. -/
theorem item_spellDates (index : Nat) :
    value.spellDates.item index = (value.item index).spellDates := by
  cases value with
  | list items | tuple items => exact getD_spellItems items index
  | _ => rfl

/-- Indices lead from a spelled value to the spelled item. -/
theorem foldl_item_spellDates (indices : List Nat) :
    indices.foldl item value.spellDates = (indices.foldl item value).spellDates := by
  induction indices generalizing value with
  | nil => rfl
  | cons index rest ih => rw [List.foldl_cons, List.foldl_cons, item_spellDates, ih]

/-- A step along a segment leads from a spelled value to the spelled one. -/
theorem step_spellDates (segment : Segment) :
    value.spellDates.step segment = (value.step segment).map spellDates := by
  unfold step
  rw [isAbsent_spellDates]
  split
  · rfl
  · rw [child_spellDates]
    cases value.child segment.name with
    | error fault => rfl
    | ok found => exact congrArg Except.ok (foldl_item_spellDates found segment.indices)

/-- A path leads to the spelled value of what it led to. -/
theorem follow_spellDates (path : Path) :
    value.spellDates.follow path = (value.follow path).map spellDates := by
  induction path generalizing value with
  | nil => rfl
  | cons segment rest ih =>
    rw [follow, follow, step_spellDates]
    cases value.step segment with
    | error fault => rfl
    | ok found => exact ih found

end Stencil.Value
