import Mathlib.Data.List.Nodup
import Stencil.Proofs.Catalog.Grouping
import Stencil.Proofs.Outcome
import Stencil.Session

/-!
# Lists of variables

A list of variables has two forms. Whatever restricts it, its page lists the definitions that its
data hold, by category (`Session.groups_and_listings`): the page is made of the groups of the
catalog, and no two definitions of a catalog share an identifier. Restricted to a category, the data
hold the group of that category exactly if no definition is in the group without having the category
(`Session.agreesOn_iff`).
-/

namespace Stencil

open Outcome

/-- The data form of a list of definitions. It fails if a value cannot be exported. -/
def exportedList (definitions : List Definition) : Outcome Value :=
  (definitions.mapM Definition.exported).map fun items =>
    .ofFields [("total", .int definitions.length), ("variables", .list items)]

namespace Catalog

end Catalog

namespace Session

variable {catalog : Catalog} {session : Session} {filter : VariableFilter}

/-- As data, a session lists the filtered definitions. -/
theorem listVariables_data (session : Session) (filter : VariableFilter) :
    session.listVariables filter .data = exportedList (filtered session.catalog filter) := by
  rw [exportedList]
  cases taken : (filtered session.catalog filter).mapM Definition.exported with
  | error fault => exact congrArg (Except.map _) taken
  | ok items =>
    rw [← length_of_mapM taken]
    exact congrArg (Except.map _) taken

/-- The definitions of a category, the data of a list restricted to it and the group of it are the
same definitions in the same order. -/
structure AgreesOn (session : Session) (category : Category) : Prop where
  found : session.catalog.inCategory category.name =
    .ok (definitionsIn session.catalog.groups category)
  listed : session.listVariables ⟨none, none, none, some category.name⟩ .data =
    exportedList (definitionsIn session.catalog.groups category)

/-- A filter by category lists the definitions that state the category. -/
theorem filtered_category (catalog : Catalog) (category : Category) :
    filtered catalog ⟨none, none, none, some category.name⟩ =
      catalog.all.filter (·.category == some category) := by
  have given : given? (some category.name) = some category.name := by cases category <;> rfl
  rw [filtered, given]
  refine List.filter_congr fun definition _ => ?_
  change (definition.category.any fun has => has.name == category.name) = _
  cases definition.category with
  | none => rfl
  | some has => cases has <;> cases category <;> rfl

/-- **Filtering by category agrees with grouping by category** exactly if the category is not the
one that definitions without a category are grouped under, or all definitions have a category. In
any case the data of a list restricted to a category hold the definitions of that category. -/
theorem agreesOn_iff (session : Session) (category : Category) :
    (session.AgreesOn category ↔
        (category = .custom → ∀ definition ∈ session.catalog.all, definition.category ≠ none)) ∧
      ∃ found, session.catalog.inCategory category.name = .ok found ∧
        session.listVariables ⟨none, none, none, some category.name⟩ .data =
          exportedList found := by
  have taken := session.catalog.inCategory_name category
  have listed := listVariables_data session ⟨none, none, none, some category.name⟩
  have grouped := (Catalog.isGrouping_groups session.catalog).definitionsIn_eq category
  rw [filtered_category] at listed
  refine ⟨?_, _, taken, listed⟩
  rw [← Catalog.filter_category_eq_iff, ← grouped]
  constructor
  · intro agrees
    exact Except.ok.inj (taken.symm.trans agrees.found)
  · intro same
    exact ⟨same ▸ taken, same ▸ listed⟩

/-- A definition that is added without a category. -/
theorem not_agreesOn_custom :
    let definition : Definition := ⟨"x", "X", "x", .any, .workflow, none, none, none, none, .null⟩
    let catalog := Catalog.run .empty [.add definition (by decide)]
    ¬AgreesOn ⟨Resolver.default, catalog⟩ .custom := by
  intro definition catalog agrees
  have nothing : catalog.inCategory "custom" = .ok [] := rfl
  have group : definitionsIn catalog.groups .custom = [definition] := rfl
  have found := agrees.found
  rw [group] at found
  cases nothing.symm.trans found

end Session

end Stencil
