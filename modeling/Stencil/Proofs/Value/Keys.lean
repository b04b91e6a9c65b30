import Stencil.Value.Basic

/-!
# Keys of a map

A text is the same key only as itself, so setting one gives it its value and leaves the other texts
alone (`Value.lookupText_setEntry_self`, `Value.lookupText_setEntry_of_ne`). In a dictionary with
text keys it sets a field (`Value.setEntry_fieldEntries`). Entries of which no two have the same key
are a map as they stand (`Value.ofEntries_eq_map`).
-/

namespace Stencil.Value

/-- A key is the same as that of a name only if it is that name. -/
theorem sameKey_text_iff {key : Value} {name : String} :
    sameKey key (.text name) = true ↔ key = .text name := by
  cases key with
  | text other => simp [sameKey, sameScalar]
  | _ => simp [sameKey, sameScalar, integer?]

/-- Setting a text key in the first entry, or behind it. -/
theorem setEntry_cons (name : String) (value key old : Value) (rest : List (Value × Value)) :
    (key = .text name ∧ setEntry (.text name) value ((key, old) :: rest) = (key, value) :: rest) ∨
      (key ≠ .text name ∧ setEntry (.text name) value ((key, old) :: rest) =
        (key, old) :: setEntry (.text name) value rest) := by
  by_cases same : key = .text name
  · exact .inl ⟨same, if_pos (sameKey_text_iff.mpr same)⟩
  · exact .inr ⟨same, if_neg fun equal => same (sameKey_text_iff.mp equal)⟩

theorem lookupText_cons (name : String) (key value : Value) (rest : List (Value × Value)) :
    (key = .text name ∧ lookupText name ((key, value) :: rest) = some value) ∨
      (key ≠ .text name ∧ lookupText name ((key, value) :: rest) = lookupText name rest) := by
  cases key with
  | text other =>
    by_cases same : other = name
    · exact .inl ⟨congrArg Value.text same, if_pos same⟩
    · exact .inr ⟨fun equal => same (Value.text.inj equal), if_neg same⟩
  | _ => exact .inr ⟨nofun, rfl⟩

/-- A text key that is set has the value it was set to. -/
theorem lookupText_setEntry_self (name : String) (value : Value) (entries : List (Value × Value)) :
    lookupText name (setEntry (.text name) value entries) = some value := by
  induction entries with
  | nil => exact if_pos rfl
  | cons entry rest ih =>
    obtain ⟨key, old⟩ := entry
    obtain ⟨rfl, set⟩ | ⟨differ, set⟩ := setEntry_cons name value key old rest
    · rw [set]
      exact if_pos rfl
    · rw [set, ((lookupText_cons name key old _).resolve_left fun first => differ first.1).2, ih]

/-- Setting a text key leaves the others alone. -/
theorem lookupText_setEntry_of_ne {name other : String} (apart : other ≠ name) (value : Value)
    (entries : List (Value × Value)) :
    lookupText other (setEntry (.text name) value entries) = lookupText other entries := by
  induction entries with
  | nil => exact if_neg (Ne.symm apart)
  | cons entry rest ih =>
    obtain ⟨key, old⟩ := entry
    obtain ⟨rfl, set⟩ | ⟨-, set⟩ := setEntry_cons name value key old rest
    · rw [set, lookupText, lookupText, if_neg (Ne.symm apart), if_neg (Ne.symm apart)]
    · rw [set]
      obtain ⟨same, here⟩ | ⟨differ, skipped⟩ := lookupText_cons other key old rest
      · rw [here, same]
        exact if_pos rfl
      · rw [skipped, ← ih]
        exact ((lookupText_cons other key old _).resolve_left fun first => differ first.1).2

/-- Setting a name among entries is setting it in the fields. -/
theorem setEntry_fieldEntries (name : String) (value : Value) (fields : Fields Value) :
    setEntry (.text name) value (fieldEntries fields) =
      fieldEntries (Fields.set name value fields) := by
  induction fields with
  | nil => rfl
  | cons entry rest ih =>
    obtain ⟨key, old⟩ := entry
    rw [Fields.set_cons]
    obtain ⟨same, set⟩ | ⟨differ, set⟩ :=
      setEntry_cons name value (.text key) old (fieldEntries rest)
    · rw [if_pos (Value.text.inj same)]
      exact set
    · rw [if_neg fun equal => differ (congrArg Value.text equal)]
      exact set.trans (congrArg ((Value.text key, old) :: ·) ih)

/-- Setting a new key puts it at the end. -/
theorem setEntry_of_fresh {key : Value} {entries : List (Value × Value)} (value : Value)
    (fresh : ∀ entry ∈ entries, sameKey entry.1 key = false) :
    setEntry key value entries = entries ++ [(key, value)] := by
  induction entries with
  | nil => rfl
  | cons entry rest ih =>
    rw [List.forall_mem_cons] at fresh
    rw [setEntry, fresh.1, if_neg Bool.false_ne_true, ih fresh.2, List.cons_append]

theorem foldl_setEntry_eq_append {start more : List (Value × Value)}
    (distinct : ((start ++ more).map (·.1)).Pairwise (sameKey · · = false)) :
    more.foldl (fun map (key, value) => setEntry key value map) start = start ++ more := by
  induction more generalizing start with
  | nil => exact (List.append_nil start).symm
  | cons entry rest ih =>
    obtain ⟨key, value⟩ := entry
    have fresh : ∀ other ∈ start, sameKey other.1 key = false := by
      rw [List.map_append, List.pairwise_append] at distinct
      exact fun other member => distinct.2.2 _ (List.mem_map_of_mem member) _ List.mem_cons_self
    rw [List.append_cons] at distinct
    rw [List.foldl_cons]
    dsimp only
    rw [setEntry_of_fresh value fresh, ih distinct, ← List.append_cons]

/-- What holds of all keys and values holds of them when one more entry is set. -/
theorem forall_mem_setEntry (onKey onValue : Value → Prop) {key value : Value}
    {entries : List (Value × Value)} (onNew : onKey key ∧ onValue value)
    (each : ∀ entry ∈ entries, onKey entry.1 ∧ onValue entry.2) :
    ∀ entry ∈ setEntry key value entries, onKey entry.1 ∧ onValue entry.2 := by
  induction entries with
  | nil => exact List.forall_mem_singleton.mpr onNew
  | cons entry rest ih =>
    obtain ⟨name, old⟩ := entry
    rw [List.forall_mem_cons] at each
    rw [setEntry]
    split
    · exact List.forall_mem_cons.mpr ⟨⟨each.1.1, onNew.2⟩, each.2⟩
    · exact List.forall_mem_cons.mpr ⟨each.1, ih each.2⟩

/-- What holds of the entries before and of those set holds of the entries afterwards. -/
theorem forall_mem_foldl_setEntry (onKey onValue : Value → Prop)
    {start more : List (Value × Value)}
    (first : ∀ entry ∈ start, onKey entry.1 ∧ onValue entry.2)
    (later : ∀ entry ∈ more, onKey entry.1 ∧ onValue entry.2) :
    ∀ entry ∈ more.foldl (fun map (key, value) => setEntry key value map) start,
      onKey entry.1 ∧ onValue entry.2 := by
  induction more generalizing start with
  | nil => exact first
  | cons entry rest ih =>
    rw [List.forall_mem_cons] at later
    exact ih (forall_mem_setEntry onKey onValue later.1 first) later.2

/-- Entries with distinct keys are a map as they stand. -/
theorem ofEntries_eq_map {entries : List (Value × Value)}
    (distinct : (entries.map (·.1)).Pairwise (sameKey · · = false)) :
    ofEntries entries = .map entries :=
  congrArg Value.map (@foldl_setEntry_eq_append [] entries distinct)

end Stencil.Value
