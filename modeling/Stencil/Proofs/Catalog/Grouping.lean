import Stencil.Proofs.Catalog.Indexed
import Stencil.Proofs.FirstOccurrence

/-!
# Definitions by category

What it means to group definitions by category (`IsGrouping`). A catalog groups its definitions
(`Catalog.isGrouping_groups`), and so do sections that leave out what is empty
(`isGrouping_sections`). The definitions that have a category are the group of that category, unless
it is the one that definitions without a category are listed under and there are such
(`Catalog.filter_category_eq_iff`).
-/

namespace Stencil

/-- Definitions that are listed group by group: under distinct categories, each group with the
definitions of its category in their order, none of them empty, and each definition once. -/
structure IsGrouping (groups : List DefinitionGroup) (definitions : List Definition) : Prop where
  distinct : (groups.map (·.category)).Nodup
  filled : ∀ group ∈ groups, group.definitions ≠ []
  members : ∀ group ∈ groups,
    group.definitions = definitions.filter (·.group == group.category)
  once : (groups.flatMap (·.definitions)).Perm definitions

/-- Definitions by given categories; what is empty is left out. -/
def sections (categories : List Category) (definitions : List Definition) : List DefinitionGroup :=
  (categories.map fun category =>
    (⟨category, definitions.filter (·.group == category)⟩ : DefinitionGroup)).filter
      (!·.definitions.isEmpty)

section Grouping

variable {α β : Type} [DecidableEq β]

/-- The items under each of distinct keys are the items under these keys. -/
theorem flatMap_filter_perm (key : α → β) {keys : List β} (distinct : keys.Nodup)
    {items : List α} (covered : ∀ item ∈ items, key item ∈ keys) :
    (keys.flatMap fun one => items.filter (key · == one)).Perm items := by
  induction keys generalizing items with
  | nil =>
    have none := List.eq_nil_iff_forall_not_mem.mpr fun item member =>
      List.not_mem_nil (covered item member)
    rw [none]
    rfl
  | cons one rest ih =>
    rw [List.nodup_cons] at distinct
    have others : ∀ item ∈ items.filter (!key · == one), key item ∈ rest := by
      intro item member
      obtain ⟨listed, other⟩ := List.mem_filter.mp member
      exact (List.mem_cons.mp (covered item listed)).resolve_left (by simpa using other)
    have apart : (rest.flatMap fun other => items.filter (key · == other)) =
        rest.flatMap fun other => (items.filter (!key · == one)).filter (key · == other) := by
      refine List.flatMap_congr fun other member => ?_
      rw [List.filter_filter]
      refine List.filter_congr fun item _ => ?_
      by_cases same : key item = other
      · have different : key item ≠ one := fun equal => distinct.1 (equal ▸ same ▸ member)
        simp [same, same ▸ different]
      · simp [same]
    rw [List.flatMap_cons, apart]
    exact ((ih distinct.2 others).append_left _).trans (List.filter_append_perm _ items)

end Grouping

section Sections

variable {categories : List Category} {definitions : List Definition}

/-- A section holds the definitions of its group, in order, and at least one. -/
theorem mem_sections {group : DefinitionGroup} (member : group ∈ sections categories definitions) :
    group.definitions = definitions.filter (·.group == group.category) ∧
      group.definitions ≠ [] := by
  obtain ⟨listed, filled⟩ := List.mem_filter.mp member
  obtain ⟨category, -, rfl⟩ := List.mem_map.mp listed
  exact ⟨rfl, by simpa using filled⟩

/-- The categories of the sections are in the order of those that they are made of. -/
theorem sublist_sections (categories : List Category) (definitions : List Definition) :
    ((sections categories definitions).map (·.category)).Sublist categories := by
  have all := (List.filter_sublist (p := fun group : DefinitionGroup => !group.definitions.isEmpty)
    (l := categories.map fun category =>
      (⟨category, definitions.filter (·.group == category)⟩ : DefinitionGroup))).map (·.category)
  rwa [List.map_map, show ((·.category) ∘ fun category =>
    (⟨category, definitions.filter (·.group == category)⟩ : DefinitionGroup)) = id from rfl,
    List.map_id] at all

/-- Sections are a grouping if their categories are distinct and cover the definitions. -/
theorem isGrouping_sections (distinct : categories.Nodup)
    (covered : ∀ definition ∈ definitions, definition.group ∈ categories) :
    IsGrouping (sections categories definitions) definitions where
  distinct := distinct.sublist (sublist_sections categories definitions)
  filled _ member := (mem_sections member).2
  members _ member := (mem_sections member).1
  once := by
    have all : (sections categories definitions).flatMap (·.definitions) =
        categories.flatMap fun category => definitions.filter (·.group == category) := by
      have kept (groups : List DefinitionGroup) :
          (groups.filter (!·.definitions.isEmpty)).map (·.definitions) =
            (groups.map (·.definitions)).filter (!·.isEmpty) := by
        rw [List.filter_map]
        rfl
      rw [sections, List.flatMap_def, kept, List.flatten_filter_not_isEmpty, List.map_map,
        List.flatMap_def]
      rfl
    rw [all]
    exact flatMap_filter_perm Definition.group distinct covered

end Sections

/-- The definitions of the group of a category; none if there is no such group. -/
def definitionsIn (groups : List DefinitionGroup) (category : Category) : List Definition :=
  ((groups.find? (·.category == category)).map (·.definitions)).getD []

/-- A grouping lists in each category the definitions of that group. -/
theorem IsGrouping.definitionsIn_eq {groups : List DefinitionGroup} {definitions : List Definition}
    (grouping : IsGrouping groups definitions) (category : Category) :
    definitionsIn groups category = definitions.filter (·.group == category) := by
  rw [definitionsIn]
  cases found : groups.find? (·.category == category) with
  | none =>
    refine (List.filter_eq_nil_iff.mpr fun definition member same => ?_).symm
    obtain ⟨group, listed, inside⟩ := List.mem_flatMap.mp (grouping.once.mem_iff.mpr member)
    rw [grouping.members group listed, List.mem_filter, beq_iff_eq] at inside
    refine List.find?_eq_none.mp found group listed ?_
    rw [beq_iff_eq] at same ⊢
    rw [← inside.2, same]
  | some group =>
    have named := List.find?_some found
    rw [beq_iff_eq] at named
    rw [Option.map_some, Option.getD_some, grouping.members group (List.mem_of_find?_eq_some found),
      named]

namespace Catalog

/-- The categories of a catalog in the order in which they are first seen. -/
def categories (catalog : Catalog) : List Category :=
  (catalog.all.map Definition.group).eraseDups

variable {catalog : Catalog}

/-- The group of every definition is a category of the catalog. -/
theorem group_mem_categories {definition : Definition} (member : definition ∈ catalog.all) :
    definition.group ∈ catalog.categories :=
  List.mem_eraseDups.mpr (List.mem_map_of_mem member)

/-- The groups of a catalog are the sections of its categories. -/
theorem groups_eq (catalog : Catalog) :
    catalog.groups = sections catalog.categories catalog.all := by
  refine (List.filter_eq_self.mpr fun group member => ?_).symm
  obtain ⟨category, listed, rfl⟩ := List.mem_map.mp member
  obtain ⟨definition, known, rfl⟩ := List.mem_map.mp (List.mem_eraseDups.mp listed)
  have inside : definition ∈ catalog.all.filter (·.group == definition.group) :=
    List.mem_filter.mpr ⟨known, beq_self_eq_true _⟩
  rw [Bool.not_eq_true', List.isEmpty_eq_false_iff]
  exact List.ne_nil_of_mem inside

/-- The groups of a catalog are a grouping of its definitions. -/
theorem isGrouping_groups (catalog : Catalog) : IsGrouping catalog.groups catalog.all := by
  rw [groups_eq]
  exact isGrouping_sections (nodup_eraseDups _) fun _ => group_mem_categories

/-- Asking for a category by its name gives the definitions that state it. -/
theorem inCategory_name (catalog : Catalog) (category : Category) :
    catalog.inCategory category.name =
      .ok (catalog.all.filter (·.category == some category)) := by
  have read : Category.ofName category.name = .ok category := by cases category <;> rfl
  rw [inCategory, read]
  rfl

/-- The definitions that have a category are those that are listed under it, unless there are some
without a category that are. -/
theorem filter_category_eq_iff (definitions : List Definition) (category : Category) :
    definitions.filter (·.category == some category) = definitions.filter (·.group == category) ↔
      (category = .custom → ∀ definition ∈ definitions, definition.category ≠ none) := by
  constructor
  · rintro same rfl definition member bare
    have listed : definition ∈ definitions.filter (·.group == .custom) :=
      List.mem_filter.mpr ⟨member, by rw [Definition.group, bare]; rfl⟩
    rw [← same, List.mem_filter, bare] at listed
    cases listed.2
  · intro none
    refine List.filter_congr fun definition member => ?_
    rw [Definition.group]
    cases has : definition.category with
    | some other => rfl
    | none =>
      have apart : category ≠ .custom := fun custom => none custom definition member has
      exact (beq_eq_false_iff_ne.mpr apart.symm).symm

end Catalog

end Stencil
