import Stencil.Proofs.Value.Keys

/-!
# Values below a map

Keys lead from a value through maps to what stands below it (`Value.below?`). Setting a text key in
a map changes what stands below this key and nothing else (`Value.lookupKey_setEntry_of_ne`). Two
values are `Rearranged` if they differ in the order of entries only, in maps at any depth; setting
two different keys in one order or the other leads to such values
(`Value.Rearranged.setEntry_comm`).
-/

namespace Stencil.Value

/-- The value of a key of a map. -/
def lookupKey (key : Value) (entries : List (Value × Value)) : Option Value :=
  (entries.find? (sameKey ·.1 key)).map (·.2)

/-- The value that keys lead to from a given value, through maps only. -/
def below? : (keys : List Value) → Value → Option Value
  | [], value => some value
  | key :: rest, .map entries => (lookupKey key entries).bind (below? rest)
  | _ :: _, _ => none

/-- The key of a name is the same as another only if it is that name. -/
theorem text_sameKey_iff {name : String} {key : Value} :
    sameKey (.text name) key = true ↔ key = .text name := by
  cases key with
  | text other =>
    simp only [sameKey, sameScalar, beq_iff_eq, Value.text.injEq]
    exact eq_comm
  | _ => simp [sameKey, sameScalar, integer?]

theorem lookupKey_cons (key name value : Value) (rest : List (Value × Value)) :
    lookupKey key ((name, value) :: rest) =
      if sameKey name key = true then some value else lookupKey key rest := by
  unfold lookupKey
  rw [List.find?_cons]
  cases sameKey name key <;> rfl

/-- The value of a text key is what the text is looked up as. -/
theorem lookupKey_text (name : String) (entries : List (Value × Value)) :
    lookupKey (.text name) entries = lookupText name entries := by
  induction entries with
  | nil => rfl
  | cons entry rest ih =>
    obtain ⟨key, value⟩ := entry
    rw [lookupKey_cons, ih]
    rcases lookupText_cons name key value rest with ⟨same, here⟩ | ⟨differ, skipped⟩
    · rw [here, if_pos (sameKey_text_iff.mpr same)]
    · rw [skipped, if_neg fun same => differ (sameKey_text_iff.mp same)]

/-- Setting a text key leaves the values of other keys alone. -/
theorem lookupKey_setEntry_of_ne {key : Value} {name : String} (apart : key ≠ .text name)
    (value : Value) (entries : List (Value × Value)) :
    lookupKey key (setEntry (.text name) value entries) = lookupKey key entries := by
  have passed : ¬ sameKey (.text name) key = true := fun same => apart (text_sameKey_iff.mp same)
  induction entries with
  | nil =>
    unfold setEntry
    rw [lookupKey_cons, if_neg passed]
  | cons entry rest ih =>
    obtain ⟨other, old⟩ := entry
    rcases setEntry_cons name value other old rest with ⟨same, set⟩ | ⟨differ, set⟩
    · rw [set, lookupKey_cons, lookupKey_cons, same, if_neg passed, if_neg passed]
    · rw [set, lookupKey_cons, lookupKey_cons, ih]

theorem setEntry_cons_self (name : String) (value old : Value) (rest : List (Value × Value)) :
    setEntry (.text name) value ((.text name, old) :: rest) = (.text name, value) :: rest :=
  if_pos (sameKey_text_iff.mpr rfl)

/-- Setting a name leaves an entry of another key in front. -/
theorem setEntry_cons_of_ne {name : String} {key : Value} (apart : key ≠ .text name)
    (value old : Value) (rest : List (Value × Value)) :
    setEntry (.text name) value ((key, old) :: rest) =
      (key, old) :: setEntry (.text name) value rest :=
  if_neg fun same => apart (sameKey_text_iff.mp same)

/-- Of two values that are set under one key the second one counts. -/
theorem setEntry_setEntry (name : String) (first second : Value) (entries : List (Value × Value)) :
    setEntry (.text name) second (setEntry (.text name) first entries) =
      setEntry (.text name) second entries := by
  induction entries with
  | nil => exact setEntry_cons_self name second first []
  | cons entry rest ih =>
    obtain ⟨key, old⟩ := entry
    by_cases same : key = .text name
    · subst same
      rw [setEntry_cons_self, setEntry_cons_self, setEntry_cons_self]
    · rw [setEntry_cons_of_ne same, setEntry_cons_of_ne same, setEntry_cons_of_ne same, ih]

/-- A key of a map is set in its place among the entries, whatever its value. -/
theorem exists_setEntry_eq (key : Value) (entries : List (Value × Value)) :
    ∃ name front back, ∀ value, setEntry key value entries = front ++ (name, value) :: back := by
  induction entries with
  | nil => exact ⟨key, [], [], fun _ => rfl⟩
  | cons entry rest ih =>
    obtain ⟨name, old⟩ := entry
    by_cases same : sameKey name key = true
    · exact ⟨name, [], rest, fun _ => if_pos same⟩
    · obtain ⟨place, front, back, set⟩ := ih
      refine ⟨place, (name, old) :: front, back, fun value => ?_⟩
      unfold setEntry
      rw [if_neg same, set]
      rfl

/-- Two text keys are set in either order, unless neither of them is in the map yet. -/
theorem setEntry_comm {first second : String} (apart : first ≠ second) (one other : Value)
    (entries : List (Value × Value)) :
    setEntry (.text first) one (setEntry (.text second) other entries) =
        setEntry (.text second) other (setEntry (.text first) one entries) ∨
      ∀ entry ∈ entries, entry.1 ≠ .text first ∧ entry.1 ≠ .text second := by
  have differ : Value.text first ≠ .text second := fun same => apart (Value.text.inj same)
  induction entries with
  | nil => exact .inr nofun
  | cons entry rest ih =>
    obtain ⟨key, old⟩ := entry
    by_cases atFirst : key = .text first
    · left
      subst atFirst
      rw [setEntry_cons_of_ne differ, setEntry_cons_self, setEntry_cons_self,
        setEntry_cons_of_ne differ]
    by_cases atSecond : key = .text second
    · left
      subst atSecond
      rw [setEntry_cons_of_ne atFirst, setEntry_cons_self, setEntry_cons_self,
        setEntry_cons_of_ne atFirst]
    rcases ih with same | fresh
    · left
      rw [setEntry_cons_of_ne atFirst, setEntry_cons_of_ne atSecond, setEntry_cons_of_ne atFirst,
        setEntry_cons_of_ne atSecond, same]
    · right
      intro entry member
      rcases List.mem_cons.mp member with rfl | later
      · exact ⟨atFirst, atSecond⟩
      · exact fresh entry later

/-- Two values differ in the order in which their maps, at any depth, list their entries, and in
nothing else: entries of different keys that stand side by side may trade places. -/
inductive Rearranged : Value → Value → Prop
  | refl (value : Value) : Rearranged value value
  | swap {first second : Value × Value} (apart : sameKey first.1 second.1 = false)
    (front back : List (Value × Value)) :
    Rearranged (.map (front ++ first :: second :: back)) (.map (front ++ second :: first :: back))
  | within {value other : Value} (key : Value) (front back : List (Value × Value))
    (inside : Rearranged value other) :
    Rearranged (.map (front ++ (key, value) :: back)) (.map (front ++ (key, other) :: back))
  | trans {first second third : Value} (one : Rearranged first second)
    (next : Rearranged second third) : Rearranged first third

namespace Rearranged

/-- A map with a value in the place of another that differs in order only. -/
theorem setEntry_congr {value other : Value} (inside : Rearranged value other) (key : Value)
    (entries : List (Value × Value)) :
    Rearranged (.map (setEntry key value entries)) (.map (setEntry key other entries)) := by
  obtain ⟨name, front, back, set⟩ := exists_setEntry_eq key entries
  rw [set, set]
  exact .within name front back inside

/-- **Setting two keys** in one order or the other leads to maps that differ in order only. -/
theorem setEntry_comm {first second : String} (apart : first ≠ second) (one other : Value)
    (entries : List (Value × Value)) :
    Rearranged
      (.map (setEntry (.text first) one (setEntry (.text second) other entries)))
      (.map (setEntry (.text second) other (setEntry (.text first) one entries))) := by
  rcases Value.setEntry_comm apart one other entries with same | fresh
  · rw [same]
    exact .refl _
  -- Neither key is in the map, so the two are put at its end, one behind the other.
  have differ {key : Value} {name : String} (ne : key ≠ .text name) :
      sameKey key (.text name) = false :=
    Bool.eq_false_iff.mpr fun same => ne (sameKey_text_iff.mp same)
  have appended {name : String} (value : Value) {more : List (Value × Value)}
      (new : ∀ entry ∈ more, entry.1 ≠ .text name) :
      setEntry (.text name) value more = more ++ [(.text name, value)] :=
    setEntry_of_fresh value fun entry member => differ (new entry member)
  have behind {name added : String} (value addedValue : Value) (ne : added ≠ name)
      (new : ∀ entry ∈ entries, entry.1 ≠ .text name) :
      setEntry (.text name) value (entries ++ [(.text added, addedValue)]) =
        entries ++ [(.text added, addedValue), (.text name, value)] := by
    rw [appended, List.append_assoc]
    · rfl
    · intro entry member
      rcases List.mem_append.mp member with old | last
      · exact new entry old
      · rw [List.mem_singleton.mp last]
        exact fun same => ne (Value.text.inj same)
  have newFirst := fun entry member => (fresh entry member).1
  have newSecond := fun entry member => (fresh entry member).2
  rw [appended other newSecond, appended one newFirst, behind one other apart.symm newFirst,
    behind other one apart newSecond]
  apply Rearranged.swap
  exact differ fun same => apart (Value.text.inj same).symm

end Rearranged
end Stencil.Value
