/-!
# Fields

Dictionaries with text keys that remember the order in which their keys were first given. Setting
a key again keeps its place.
-/

namespace Stencil

/-- A dictionary with text keys, in the order of their first appearance. -/
abbrev Fields (α : Type) := List (String × α)

namespace Fields

variable {α : Type}

/-- The value of a key, if it is listed. -/
def get? (fields : Fields α) (key : String) : Option α :=
  fields.lookup key

/-- Whether a key is listed. -/
def has (fields : Fields α) (key : String) : Bool :=
  fields.any (·.1 == key)

/-- The keys in the order in which they are listed. -/
def keys (fields : Fields α) : List String :=
  fields.map (·.1)

/-- The dictionary with the value of a key set, in the key's old place or else at the end. -/
def set (key : String) (value : α) : Fields α → Fields α
  | [] => [(key, value)]
  | (name, old) :: rest =>
    if name = key then (name, value) :: rest else (name, old) :: set key value rest

/-- The dictionary without the entry of a key. -/
def erase (fields : Fields α) (key : String) : Fields α :=
  fields.filter (·.1 != key)

/-- The dictionary `base` with every entry of `upper` set in order. -/
def overlay (base upper : Fields α) : Fields α :=
  upper.foldl (fun fields (key, value) => set key value fields) base

/-- The dictionary that results from setting entries in order. -/
def ofEntries (entries : List (String × α)) : Fields α :=
  overlay [] entries

/-- A key is set in the first entry if it is its own, and else in the rest. -/
theorem set_cons (key name : String) (value old : α) (rest : Fields α) :
    set key value ((name, old) :: rest) =
      if name = key then (name, value) :: rest else (name, old) :: set key value rest :=
  rfl

/-- Looking a key up in the first entry. -/
theorem get?_cons (key name : String) (old : α) (rest : Fields α) :
    get? ((name, old) :: rest) key = if key = name then some old else get? rest key := by
  by_cases same : key = name
  · subst same
    simp [get?]
  · have differ : (key == name) = false := by simpa using same
    simp [get?, List.lookup_cons, differ, same]

/-- A key that was set has the value it was set to. -/
theorem get?_set_self (fields : Fields α) (key : String) (value : α) :
    get? (set key value fields) key = some value := by
  induction fields with
  | nil => simp [set, get?]
  | cons entry rest ih =>
    obtain ⟨name, old⟩ := entry
    rw [set_cons]
    split
    · simp_all [get?_cons]
    · rename_i differ
      rw [get?_cons, if_neg (Ne.symm differ), ih]

/-- Setting a key leaves the values of the others alone. -/
theorem get?_set_of_ne (fields : Fields α) {key other : String} (value : α) (ne : other ≠ key) :
    get? (set key value fields) other = get? fields other := by
  induction fields with
  | nil => rw [set, get?_cons, if_neg ne]
  | cons entry rest ih =>
    obtain ⟨name, old⟩ := entry
    rw [set_cons]
    split
    · simp_all [get?_cons]
    · rw [get?_cons, get?_cons, ih]

/-- A dictionary has the keys that have values. -/
theorem has_eq_isSome_get? (fields : Fields α) (key : String) :
    fields.has key = (get? fields key).isSome := by
  induction fields with
  | nil => rfl
  | cons entry rest ih =>
    obtain ⟨name, old⟩ := entry
    rw [has, List.any_cons, get?_cons]
    change (name == key || has rest key) = _
    by_cases same : key = name
    · simp [same]
    · simp [same, Ne.symm same, ih]

/-- A dictionary has the keys that are listed. -/
theorem has_iff_mem_keys (fields : Fields α) (key : String) :
    fields.has key = true ↔ key ∈ keys fields := by
  simp only [has, keys, List.any_eq_true, beq_iff_eq, List.mem_map]

/-- Setting a key that has a value leaves the keys as they are. -/
theorem keys_set_of_mem {fields : Fields α} {key : String} (value : α)
    (known : key ∈ keys fields) : keys (set key value fields) = keys fields := by
  induction fields with
  | nil => simp [keys] at known
  | cons entry rest ih =>
    obtain ⟨name, old⟩ := entry
    rw [set_cons]
    split
    · rfl
    · rename_i differ
      have below : key ∈ keys rest := by
        simpa [keys, Ne.symm differ] using known
      simpa [keys] using ih below

/-- Setting a key that has no value puts it at the end. -/
theorem keys_set_of_not_mem {fields : Fields α} {key : String} (value : α)
    (fresh : key ∉ keys fields) : keys (set key value fields) = keys fields ++ [key] := by
  induction fields with
  | nil => rfl
  | cons entry rest ih =>
    obtain ⟨name, old⟩ := entry
    obtain ⟨differ, below⟩ : key ≠ name ∧ key ∉ keys rest := by
      simpa [keys] using fresh
    rw [set_cons, if_neg (Ne.symm differ)]
    simpa [keys] using ih below

/-- No key is listed twice after one is set, if none was before. -/
theorem nodup_keys_set {fields : Fields α} (key : String) (value : α)
    (distinct : (keys fields).Nodup) : (keys (set key value fields)).Nodup := by
  by_cases known : key ∈ keys fields
  · rwa [keys_set_of_mem value known]
  · rw [keys_set_of_not_mem value known]
    refine List.nodup_append.mpr ⟨distinct, by simp, ?_⟩
    intro other member one last
    rw [List.mem_singleton.mp last]
    exact fun same => known (same ▸ member)

/-- Setting entries in order lists no key twice. -/
theorem nodup_keys_overlay (base upper : Fields α) (distinct : (keys base).Nodup) :
    (keys (overlay base upper)).Nodup := by
  induction upper generalizing base with
  | nil => exact distinct
  | cons entry rest ih => exact ih _ (nodup_keys_set entry.1 entry.2 distinct)

/-- A dictionary made of entries lists no key twice. -/
theorem nodup_keys_ofEntries (entries : List (String × α)) : (keys (ofEntries entries)).Nodup :=
  nodup_keys_overlay [] entries .nil

end Fields
end Stencil
