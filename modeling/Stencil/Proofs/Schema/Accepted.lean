import Stencil.Proofs.Fields
import Stencil.Proofs.Value.Parts
import Stencil.Schema.Check

/-!
# What a check accepts

A check of several parts accepts what each part accepts (`Checked.and_eq_ok`, `Checked.all_eq_ok`),
and it finds its parts among the entries of the value that it checks. A dictionary that was accepted
lists no key twice, and checking it once more accepts it as it is (`Schema.fields_any_ofFields`).
-/

namespace Stencil

variable {α β : Type}

namespace Checked

/-- A checked whole is accepted together with its part. -/
theorem and_eq_ok {whole : Checked (α → β)} {part : Checked α} {data : β} :
    whole.and part = .ok data ↔
      ∃ build piece, whole = .ok build ∧ part = .ok piece ∧ build piece = data := by
  cases whole <;> cases part <;> simp [Checked.and]

/-- What is accepted within a part is what is accepted. -/
theorem within_eq_ok {part : String} {checked : Checked α} {data : α} :
    checked.within part = .ok data ↔ checked = .ok data := by
  cases checked <;> simp [within]

/-- Several checks accept together if each of them does. -/
theorem all_eq_ok {checks : List (Checked α)} {data : List α} :
    all checks = .ok data ↔ checks = data.map .ok := by
  induction checks generalizing data with
  | nil => cases data <;> simp [all]
  | cons first rest ih =>
    rw [all, and_eq_ok]
    constructor
    · rintro ⟨build, others, taken, restTaken, rfl⟩
      cases first with
      | error problems => cases taken
      | ok piece =>
        cases taken
        rw [ih.mp restTaken, List.map_cons]
    · intro same
      cases data with
      | nil => cases same
      | cons piece others =>
        obtain ⟨rfl, restSame⟩ := List.cons.inj same
        exact ⟨List.cons piece, others, rfl, ih.mpr restSame, rfl⟩

/-- An outcome is a success if and only if the check accepts. -/
theorem outcome_eq_ok {checked : Checked α} {data : α} :
    checked.outcome = .ok data ↔ checked = .ok data := by
  cases checked <;> simp [outcome]

end Checked

namespace Schema

variable {names : List String} {check : Value → Checked α} {entries : List (Value × Value)}
  {value : Value} {data : α}

/-- What is found under one of several names is the value of an entry. -/
theorem mem_of_findName {name : String} (found : findName names entries = some (name, value)) :
    ∃ entry ∈ entries, entry.2 = value := by
  obtain ⟨candidate, -, taken⟩ := List.exists_of_findSome?_eq_some found
  obtain ⟨inner, leads, same⟩ := Option.map_eq_some_iff.mp taken
  cases same
  exact Value.exists_mem_of_lookupText leads

/-- A required part is the value of some entry. -/
theorem exists_of_required (accepted : required names check entries = .ok data) :
    ∃ entry ∈ entries, check entry.2 = .ok data := by
  rw [required] at accepted
  split at accepted
  · rename_i found
    obtain ⟨entry, member, rfl⟩ := mem_of_findName found
    exact ⟨entry, member, Checked.within_eq_ok.mp accepted⟩
  · cases Checked.within_eq_ok.mp accepted

/-- An optional part is the value of some entry or its default. -/
theorem exists_of_optional {fallback : α}
    (accepted : optional names fallback check entries = .ok data) :
    data = fallback ∨ ∃ entry ∈ entries, check entry.2 = .ok data := by
  rw [optional] at accepted
  split at accepted
  · rename_i found
    obtain ⟨entry, member, rfl⟩ := mem_of_findName found
    exact .inr ⟨entry, member, Checked.within_eq_ok.mp accepted⟩
  · exact .inl (Except.ok.inj accepted).symm

/-- An optional value that is given is accepted if its check accepts it. -/
theorem optional_of_findName {name : String} {fallback : α}
    (found : findName names entries = some (name, value)) (accepted : check value = .ok data) :
    optional names fallback check entries = .ok data := by
  rw [optional, found]
  exact Checked.within_eq_ok.mpr accepted

/-- An accepted text is not empty. -/
theorem ne_empty_of_nonemptyText {s : String} (accepted : nonemptyText value = .ok s) :
    s ≠ "" := by
  unfold nonemptyText at accepted
  split at accepted
  · cases accepted
  · cases read : text value with
    | error problems =>
      rw [read] at accepted
      cases accepted
    | ok spelled =>
      rw [read] at accepted
      change (if spelled.isEmpty then Checked.reject .empty else .ok spelled) = .ok s at accepted
      split at accepted
      · cases accepted
      · rename_i filled
        rw [← Except.ok.inj accepted]
        exact fun none => filled (String.isEmpty_iff.mpr none)

/-- An item that was accepted is what a part of the value is read as. -/
theorem exists_of_items {data : List α} {one : α} (accepted : items check value = .ok data)
    (member : one ∈ data) :
    ∃ part ∈ value.parts, check part = .ok one := by
  have among (parts : List Value) (read : Checked.all (parts.zipIdx.map fun part =>
      (check part.1).within (toString part.2)) = .ok data) :
      ∃ part ∈ parts, check part = .ok one := by
    have listed : .ok one ∈ data.map (.ok : α → Checked α) := List.mem_map_of_mem member
    rw [← Checked.all_eq_ok.mp read] at listed
    obtain ⟨⟨part, position⟩, inside, taken⟩ := List.mem_map.mp listed
    exact ⟨part, List.fst_mem_of_mem_zipIdx inside, Checked.within_eq_ok.mp taken⟩
  cases value with
  | list parts | tuple parts | set parts => exact among parts accepted
  | _ => cases accepted

/-- Accepted fields have distinct names. -/
theorem nodup_keys_of_fields {data : Fields α} (accepted : fields check value = .ok data) :
    (Fields.keys data).Nodup := by
  cases value with
  | map entries =>
    rw [fields] at accepted
    cases read : Checked.all (entries.map fun entry => Checked.and ((mapKey entry.1).map Prod.mk)
        ((check entry.2).within (keyPlace entry.1))) with
    | error problems =>
      rw [read] at accepted
      cases accepted
    | ok found =>
      rw [read] at accepted
      cases accepted
      exact Fields.nodup_keys_ofEntries found
  | _ => cases accepted

/-- A dictionary is accepted as it is. -/
theorem fields_any_ofFields {data : Fields Value} (distinct : (Fields.keys data).Nodup) :
    fields any (.ofFields data) = .ok data := by
  have read : Checked.all ((Value.fieldEntries data).map fun entry =>
      Checked.and ((mapKey entry.1).map Prod.mk) ((any entry.2).within (keyPlace entry.1))) =
        .ok data := by
    rw [Checked.all_eq_ok, Value.fieldEntries, List.map_map]
    rfl
  rw [Value.ofFields, fields]
  rw [read, Except.map, Fields.ofEntries_eq_self distinct]

end Schema
end Stencil
