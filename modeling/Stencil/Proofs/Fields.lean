import Stencil.Fields

/-!
# Dictionaries made of entries

What is in a dictionary after entries are set in order: the keys of the entries
(`mem_keys_ofEntries`), each with the last value it was set to (`get?_ofEntries`). Entries whose
keys are distinct are a dictionary as they stand (`ofEntries_eq_self`).
-/

namespace Stencil.Fields

variable {α : Type} {fields base upper entries : Fields α} {key : String} {value : α}

theorem overlay_cons (entry : String × α) (rest : Fields α) :
    overlay base (entry :: rest) = overlay (set entry.1 entry.2 base) rest :=
  rfl

/-- An entry that is there after a name is set is the new one or was there. -/
theorem mem_of_mem_set {entry : String × α} (member : entry ∈ set key value fields) :
    entry = (key, value) ∨ entry ∈ fields := by
  induction fields with
  | nil => exact .inl (List.mem_singleton.mp member)
  | cons first rest ih =>
    obtain ⟨name, old⟩ := first
    rw [set_cons] at member
    split at member
    · rename_i same
      rw [same] at member
      exact (List.mem_cons.mp member).imp id (List.mem_cons_of_mem _)
    · rcases List.mem_cons.mp member with rfl | behind
      · exact .inr List.mem_cons_self
      · exact (ih behind).imp id (List.mem_cons_of_mem _)

/-- Nothing is in a dictionary that was not there and was not set. -/
theorem mem_of_mem_overlay {entry : String × α} (member : entry ∈ overlay base upper) :
    entry ∈ base ∨ entry ∈ upper := by
  induction upper generalizing base with
  | nil => exact .inl member
  | cons first rest ih =>
    rcases ih member with early | late
    · rcases mem_of_mem_set early with rfl | there
      · exact .inr List.mem_cons_self
      · exact .inl there
    · exact .inr (List.mem_cons_of_mem _ late)

/-- The entries of fields are among those the fields are made of. -/
theorem mem_of_mem_ofEntries {entry : String × α} (member : entry ∈ ofEntries entries) :
    entry ∈ entries :=
  (mem_of_mem_overlay member).resolve_left List.not_mem_nil

/-- Setting a name adds it to the names. -/
theorem mem_keys_set {other : String} :
    other ∈ keys (set key value fields) ↔ other ∈ keys fields ∨ other = key := by
  by_cases known : key ∈ keys fields
  · rw [keys_set_of_mem value known]
    exact ⟨.inl, fun either => either.elim id fun same => same ▸ known⟩
  · rw [keys_set_of_not_mem value known, List.mem_append, List.mem_singleton]

/-- An overlay has the names of both sides. -/
theorem mem_keys_overlay {other : String} :
    other ∈ keys (overlay base upper) ↔ other ∈ keys base ∨ other ∈ keys upper := by
  induction upper generalizing base with
  | nil => simp [overlay, keys]
  | cons entry rest ih =>
    rw [overlay_cons, ih, mem_keys_set, or_assoc]
    simp [keys]

/-- The keys of a dictionary made of entries are those of the entries. -/
theorem mem_keys_ofEntries {other : String} :
    other ∈ keys (ofEntries entries) ↔ other ∈ keys entries := by
  rw [ofEntries, mem_keys_overlay]
  simp [keys]

/-- A new name is set at the end. -/
theorem set_of_not_mem (fresh : key ∉ keys fields) :
    set key value fields = fields ++ [(key, value)] := by
  induction fields with
  | nil => rfl
  | cons entry rest ih =>
    obtain ⟨name, old⟩ := entry
    obtain ⟨differ, below⟩ : key ≠ name ∧ key ∉ keys rest := by simpa [keys] using fresh
    rw [set_cons, if_neg (Ne.symm differ), ih below, List.cons_append]

theorem overlay_eq_append (distinct : (keys (base ++ upper)).Nodup) :
    overlay base upper = base ++ upper := by
  induction upper generalizing base with
  | nil => exact (List.append_nil base).symm
  | cons entry rest ih =>
    rw [List.append_cons] at distinct
    have fresh : entry.1 ∉ keys base := by
      intro known
      have front := distinct.sublist ((List.sublist_append_left _ rest).map Prod.fst)
      rw [List.map_append] at front
      exact (List.nodup_append.mp front).2.2 entry.1 known entry.1 (List.mem_singleton_self _) rfl
    rw [overlay_cons, set_of_not_mem fresh, ih distinct, ← List.append_cons]

/-- Entries whose keys are distinct are a dictionary. -/
theorem ofEntries_eq_self (distinct : (keys entries).Nodup) : ofEntries entries = entries :=
  overlay_eq_append distinct

/-- A key that is listed once has the value it is listed with. -/
theorem get?_eq_some_of_mem (distinct : (keys fields).Nodup) (member : (key, value) ∈ fields) :
    get? fields key = some value := by
  induction fields with
  | nil => cases member
  | cons entry rest ih =>
    obtain ⟨name, old⟩ := entry
    obtain ⟨fresh, others⟩ := List.nodup_cons.mp distinct
    rw [get?_cons]
    rcases List.mem_cons.mp member with same | behind
    · cases same
      rw [if_pos rfl]
    · have differ : key ≠ name := by
        rintro rfl
        exact fresh (List.mem_map.mpr ⟨_, behind, rfl⟩)
      rw [if_neg differ, ih others behind]

/-- A dictionary lists the values that it has. -/
theorem mem_of_get? (found : get? fields key = some value) : (key, value) ∈ fields := by
  induction fields with
  | nil => cases found
  | cons entry rest ih =>
    obtain ⟨name, old⟩ := entry
    rw [get?_cons] at found
    split at found
    · rename_i same
      cases found
      exact same ▸ List.mem_cons_self
    · exact List.mem_cons_of_mem _ (ih found)

/-- A dictionary has a value under a key if the two are listed together. -/
theorem get?_eq_some_iff (distinct : (keys fields).Nodup) :
    get? fields key = some value ↔ (key, value) ∈ fields :=
  ⟨mem_of_get?, get?_eq_some_of_mem distinct⟩

/-- Nothing is found under a name the fields do not have. -/
theorem get?_of_not_mem (absent : key ∉ keys fields) : get? fields key = none := by
  rwa [← Option.not_isSome_iff_eq_none, ← has_eq_isSome_get?, has_iff_mem_keys]

/-- Dictionaries that list the same keys in the same order are equal if they have the same
values. -/
theorem eq_of_keys_eq {first second : Fields α} (distinct : (keys first).Nodup)
    (names : keys first = keys second) (values : ∀ key, get? first key = get? second key) :
    first = second := by
  induction first generalizing second with
  | nil => exact (List.map_eq_nil_iff.mp names.symm).symm
  | cons entry rest ih =>
    obtain ⟨name, value⟩ := entry
    obtain ⟨⟨other, otherValue⟩, otherRest, rfl, same, tails⟩ := List.map_eq_cons_iff.mp names.symm
    obtain rfl : other = name := same
    obtain ⟨fresh, others⟩ := List.nodup_cons.mp distinct
    obtain rfl : value = otherValue := by
      have here := values other
      rw [get?_cons, get?_cons, if_pos rfl, if_pos rfl] at here
      exact Option.some.inj here
    have listed : keys rest = keys otherRest := tails.symm
    have behind (key : String) : get? rest key = get? otherRest key := by
      by_cases first : key = other
      · have absent : key ∉ keys rest := first ▸ fresh
        rw [get?_of_not_mem absent, get?_of_not_mem (listed ▸ absent)]
      · have here := values key
        rwa [get?_cons, get?_cons, if_neg first, if_neg first] at here
    rw [ih others listed behind]

/-- In dictionaries laid over each other the upper one counts, if it lists no key twice. -/
theorem get?_overlay_of_nodup (distinct : (keys upper).Nodup) :
    get? (overlay base upper) key = (get? upper key).or (get? base key) := by
  induction upper generalizing base with
  | nil => rfl
  | cons entry rest ih =>
    obtain ⟨name, value⟩ := entry
    obtain ⟨fresh, others⟩ := List.nodup_cons.mp distinct
    rw [overlay_cons, ih others, get?_cons]
    by_cases same : key = name
    · subst same
      rw [get?_of_not_mem fresh, get?_set_self, if_pos rfl, Option.none_or, Option.some_or]
    · rw [get?_set_of_ne _ _ same, if_neg same]

/-- A key has the last value that it was set to, if it was. -/
theorem get?_overlay :
    get? (overlay base upper) key =
      (((upper.filter (·.1 == key)).getLast?).map (·.2)).or (get? base key) := by
  induction upper generalizing base with
  | nil => rfl
  | cons entry rest ih =>
    obtain ⟨name, new⟩ := entry
    rw [overlay_cons, ih]
    by_cases same : name = key
    · subst same
      rw [get?_set_self, List.filter_cons_of_pos (by simp), List.getLast?_cons]
      cases (rest.filter (·.1 == name)).getLast? <;> rfl
    · rw [get?_set_of_ne _ _ (Ne.symm same), List.filter_cons_of_neg (by simpa using same)]

/-- What stands under a name is its last entry. -/
theorem get?_ofEntries :
    get? (ofEntries entries) key = ((entries.filter (·.1 == key)).getLast?).map (·.2) := by
  rw [ofEntries, get?_overlay]
  exact Option.or_none

section MapValues

variable {β : Type} {change : α → β}

/-- A dictionary with every value changed. -/
def mapValues (change : α → β) (fields : Fields α) : Fields β :=
  fields.map fun (key, value) => (key, change value)

theorem mapValues_cons (entry : String × α) (rest : Fields α) :
    mapValues change (entry :: rest) = (entry.1, change entry.2) :: mapValues change rest :=
  rfl

/-- A change of all values can be made before or after a name is set. -/
theorem set_mapValues (change : α → β) (fields : Fields α) (key : String) (value : α) :
    set key (change value) (fields.mapValues change) = mapValues change (set key value fields) := by
  induction fields with
  | nil => rfl
  | cons entry rest ih =>
    obtain ⟨name, old⟩ := entry
    rw [set_cons, mapValues_cons, set_cons]
    split
    · rfl
    · rw [ih, mapValues_cons]

/-- A change of all values can be made before or after an overlay. -/
theorem overlay_mapValues (base upper : Fields α) :
    overlay (base.mapValues change) (upper.mapValues change) =
      mapValues change (overlay base upper) := by
  induction upper generalizing base with
  | nil => rfl
  | cons entry rest ih =>
    have first := set_mapValues change base entry.1 entry.2
    rw [overlay_cons, mapValues_cons, overlay_cons, ← ih, ← first]

/-- A change of all values can be made before or after the fields are collected. -/
theorem ofEntries_mapValues (entries : Fields α) :
    ofEntries (entries.mapValues change) = mapValues change (ofEntries entries) :=
  overlay_mapValues [] entries

end MapValues

end Stencil.Fields
