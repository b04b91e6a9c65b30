import Mathlib.Data.List.Nodup
import Stencil.Proofs.Catalog.Indexed

/-!
# Updates of a definition

An update should put the new definition in the place of the old one and leave the others alone
(`Catalog.Replaced`). It does exactly if the new identifier is the old one or is not in the catalog
yet; an identifier that another definition has costs the catalog a definition
(`Catalog.update_replaces_iff`).
-/

namespace Stencil.Catalog

open Outcome

/-- What an update of the definition under an identifier should lead to. -/
structure Replaced (catalog next : Catalog) (id : String) (new : Definition) : Prop where
  size : next.size = catalog.size
  found : next.get? new.id = some new
  place : ∀ position : Nat, catalog.ids[position]? = some id → next.all[position]? = some new
  others : ∀ (position : Nat) (other : String) (definition : Definition), other ≠ id →
    catalog.definitions[position]? = some (other, definition) →
      next.definitions[position]? = some (other, definition) ∧ next.get? other = some definition

section Substitute

variable {definitions : Fields Definition} {id : String} {new : Definition}

/-- The entries that an update sets, one for each entry of the catalog. -/
def substituted (definitions : Fields Definition) (id : String) (new : Definition) :
    Fields Definition :=
  definitions.map fun (key, old) => if key = id then (new.id, new) else (key, old)

/-- A substitution changes the replaced id and no other. -/
theorem keys_substituted : Fields.keys (substituted definitions id new) =
    (Fields.keys definitions).map fun key => if key = id then new.id else key := by
  rw [Fields.keys, Fields.keys, substituted, List.map_map, List.map_map]
  refine List.map_congr_left fun entry _ => ?_
  by_cases same : entry.1 = id <;> simp [same]

/-- If the new id is free, the substitution replaces one entry in its place. -/
theorem substitute_eq_substituted (distinct : (Fields.keys definitions).Nodup)
    (free : new.id = id ∨ new.id ∉ Fields.keys definitions) :
    substitute definitions id new = substituted definitions id new := by
  refine Fields.ofEntries_eq_self ?_
  change (Fields.keys (substituted definitions id new)).Nodup
  rw [keys_substituted]
  refine List.Nodup.map_on (fun first firstIn second secondIn same => ?_) distinct
  by_cases atFirst : first = id <;> by_cases atSecond : second = id <;>
    rcases free with kept | fresh <;> simp_all

/-- A substitution under an identifier that is taken leaves the old identifier out. -/
theorem mem_keys_substitute (differ : new.id ≠ id) (taken : new.id ∈ Fields.keys definitions)
    {other : String} :
    other ∈ Fields.keys (substitute definitions id new) ↔
      other ≠ id ∧ other ∈ Fields.keys definitions := by
  rw [substitute, Fields.mem_keys_ofEntries]
  change other ∈ Fields.keys (substituted definitions id new) ↔ _
  rw [keys_substituted, List.mem_map]
  constructor
  · rintro ⟨key, member, rfl⟩
    by_cases same : key = id
    · simpa [same] using ⟨differ, taken⟩
    · simpa [same] using member
  · rintro ⟨apart, member⟩
    exact ⟨other, member, if_neg apart⟩

end Substitute

variable {catalog next : Catalog} {id : String} {updates : Fields Value} {new : Definition}

/-- A catalog has as many ids as definitions. -/
theorem length_ids (catalog : Catalog) : catalog.ids.length = catalog.size :=
  List.length_map _

/-- A successful update is of an id of the catalog and substitutes the new definition. -/
theorem definitions_of_update (updated : catalog.update id updates = .ok (new, next)) :
    id ∈ catalog.ids ∧ next.definitions = substitute catalog.definitions id new := by
  obtain ⟨old, found, -, rfl⟩ := of_update updated
  refine ⟨(Fields.has_iff_mem_keys _ _).mp ?_, rfl⟩
  rw [Fields.has_eq_isSome_get?]
  exact Option.isSome_of_eq_some found

/-- An update to an id that is free replaces one definition and keeps the others. -/
theorem replaced_of_free (indexed : IsIndexed catalog.definitions)
    (updated : catalog.update id updates = .ok (new, next))
    (free : new.id = id ∨ new.id ∉ catalog.ids) : catalog.Replaced next id new := by
  obtain ⟨known, set⟩ := definitions_of_update updated
  have entries := set.trans (substitute_eq_substituted indexed.distinct free)
  have distinct : (Fields.keys next.definitions).Nodup := by
    rw [set]
    exact Fields.nodup_keys_ofEntries _
  have atPlace {position : Nat} (here : catalog.ids[position]? = some id) :
      next.definitions[position]? = some (new.id, new) := by
    obtain ⟨old, listed⟩ : ∃ old, catalog.definitions[position]? = some (id, old) := by
      simpa [ids, Fields.keys] using here
    rw [entries, substituted, List.getElem?_map, listed]
    simp
  have elsewhere {position : Nat} {other : String} {definition : Definition} (apart : other ≠ id)
      (here : catalog.definitions[position]? = some (other, definition)) :
      next.definitions[position]? = some (other, definition) := by
    rw [entries, substituted, List.getElem?_map, here]
    simp [apart]
  obtain ⟨position, bound, here⟩ := List.getElem_of_mem known
  have placed := atPlace (List.getElem?_eq_some_iff.mpr ⟨bound, here⟩)
  exact {
    size := by rw [Catalog.size, entries, substituted, List.length_map, Catalog.size]
    found := Fields.get?_eq_some_of_mem distinct (List.mem_of_getElem? placed)
    place := fun position here => by rw [all, List.getElem?_map, atPlace here]; rfl
    others := fun position other definition apart here =>
      have kept := elsewhere apart here
      ⟨kept, Fields.get?_eq_some_of_mem distinct (List.mem_of_getElem? kept)⟩ }

/-- An update to an id that another definition has loses one definition. -/
theorem size_of_taken (indexed : IsIndexed catalog.definitions)
    (updated : catalog.update id updates = .ok (new, next)) (differ : new.id ≠ id)
    (taken : new.id ∈ catalog.ids) : next.size + 1 = catalog.size := by
  obtain ⟨known, set⟩ := definitions_of_update updated
  have distinct : next.ids.Nodup := by
    rw [ids, set]
    exact Fields.nodup_keys_ofEntries _
  -- Two entries are set under the one identifier, so all that is missing is the old one.
  have rest : next.ids.Perm (catalog.ids.erase id) := by
    refine (List.perm_ext_iff_of_nodup distinct (indexed.distinct.erase id)).mpr fun other => ?_
    rw [ids, set, mem_keys_substitute differ taken]
    exact indexed.distinct.mem_erase_iff.symm
  have fewer := rest.length_eq
  have filled := List.length_pos_of_mem known
  rw [List.length_erase_of_mem known] at fewer
  simp only [length_ids] at fewer filled
  omega

/-- **When an update keeps every definition.** In a catalog that operations lead to, an update puts
the new definition in the place of the old one and leaves the others alone exactly if no other
definition has the new identifier. If one has, the catalog is left with a definition less. -/
theorem update_replaces_iff (reachable : catalog.Reachable)
    (updated : catalog.update id updates = .ok (new, next)) :
    (catalog.Replaced next id new ↔ new.id = id ∨ new.id ∉ catalog.ids) ∧
      (new.id ≠ id → new.id ∈ catalog.ids → next.size + 1 = catalog.size) := by
  obtain ⟨operations, rfl⟩ := reachable
  have indexed := run_isIndexed .empty operations isIndexed_nil
  refine ⟨⟨fun replaced => ?_, replaced_of_free indexed updated⟩, size_of_taken indexed updated⟩
  by_contra clash
  rw [not_or, not_not] at clash
  have fewer := size_of_taken indexed updated clash.1 clash.2
  have same := replaced.size
  omega

/-- The first of two definitions is renamed to an identifier that is free. -/
theorem update_replaces_iff_fresh :
    let first : Definition := ⟨"a", "A", "a", .any, .workflow, none, none, none, none, .null⟩
    let second : Definition := ⟨"b", "B", "b", .any, .workflow, none, none, none, none, .null⟩
    let new := { first with id := "c" }
    let catalog : Catalog := ⟨[("a", first), ("b", second)], .empty⟩
    let next : Catalog := ⟨[("c", new), ("b", second)], .empty⟩
    catalog.Reachable ∧ catalog.update "a" [("id", .text "c")] = .ok (new, next) ∧
      catalog.Replaced next "a" new := by
  intro first second new catalog next
  have reachable : catalog.Reachable :=
    ⟨[.add first (by decide), .add second (by decide)], rfl⟩
  have updated : catalog.update "a" [("id", .text "c")] = .ok (new, next) := rfl
  exact ⟨reachable, updated, (update_replaces_iff reachable updated).1.mpr (.inr (by decide))⟩

/-- Renamed to the identifier of the second definition, the first one is lost, and so is what it was
to be replaced by. -/
theorem update_clash :
    let first : Definition := ⟨"a", "A", "a", .any, .workflow, none, none, none, none, .null⟩
    let second : Definition := ⟨"b", "B", "b", .any, .workflow, none, none, none, none, .null⟩
    let new := { first with id := "b" }
    let catalog : Catalog := ⟨[("a", first), ("b", second)], .empty⟩
    let next : Catalog := ⟨[("b", second)], .empty⟩
    catalog.Reachable ∧ catalog.update "a" [("id", .text "b")] = .ok (new, next) ∧
      ¬ catalog.Replaced next "a" new := by
  intro first second new catalog next
  refine ⟨⟨[.add first (by decide), .add second (by decide)], rfl⟩, rfl, fun replaced => ?_⟩
  exact absurd replaced.size (by decide)

end Stencil.Catalog
