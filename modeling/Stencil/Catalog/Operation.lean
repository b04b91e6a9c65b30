import Stencil.Catalog.Basic

/-!
# Operations on a catalog

What is asked of a catalog, as data. `Catalog.perform` gives the reply to an operation and the
catalog afterwards, and `Catalog.run` the catalog after several operations in a row.
-/

namespace Stencil

/-- What an operation is given: data, or a value that is still to be checked. -/
inductive Given (α : Type)
  | checked (data : α)
  | raw (value : Value)

/-- The data that were given: as they are, or as they are read. -/
def Given.load {α : Type} (read : Value → Outcome α) : Given α → Outcome α
  | .checked data => .ok data
  | .raw value => read value

namespace Catalog

/-- A question to a catalog. -/
inductive Query
  | all
  | size
  | contains (id : String)
  | get (id : String)
  | inScope (name : String)
  | inCategory (name : String)
  | fromSource (source : String)
  | search (text : String)
  | suggest (start : String)
  | groups

/-- What a catalog replies to an operation. -/
inductive Reply
  | done
  | truth (b : Bool)
  | count (number : Nat)
  | definition (definition : Option Definition)
  | definitions (definitions : List Definition)
  | groups (groups : List DefinitionGroup)

/-- An operation on a catalog. A definition is added under its identifier, which is not empty. -/
inductive Operation
  | loadWorkflow (given : Given Workflow)
  | loadSnapshot (given : Given Snapshot)
  | add (definition : Definition) (named : definition.id ≠ "")
  | remove (id : String)
  | update (id : String) (updates : Fields Value)
  | clear
  | setContext (given : Given Context)
  | updateContext (updates : List (Value × Value))
  | setValue (path : String) (value : Value)
  | query (query : Query)

/-- The answer of a catalog to a query. -/
def ask (catalog : Catalog) : Query → Outcome Reply
  | .all => .ok (.definitions catalog.all)
  | .size => .ok (.count catalog.size)
  | .contains id => .ok (.truth (catalog.contains id))
  | .get id => .ok (.definition (catalog.get? id))
  | .inScope name => do return .definitions (← catalog.inScope name)
  | .inCategory name => do return .definitions (← catalog.inCategory name)
  | .fromSource source => .ok (.definitions (catalog.fromSource source))
  | .search text => .ok (.definitions (catalog.search text))
  | .suggest start => .ok (.definitions (catalog.suggest start))
  | .groups => .ok (.groups catalog.groups)

/-- The reply to a change and the catalog after it; a change that fails leaves the catalog. -/
def changed (catalog : Catalog) (change : Outcome (Reply × Catalog)) : Outcome Reply × Catalog :=
  match change with
  | .ok (reply, next) => (.ok reply, next)
  | .error fault => (.error fault, catalog)

/-- The reply to an operation and the catalog after it. -/
def perform (catalog : Catalog) : Operation → Outcome Reply × Catalog
  | .loadWorkflow given => catalog.changed do
    let next ← catalog.loadWorkflow (← given.load Workflow.ofItems)
    return (.definitions next.all, next)
  | .loadSnapshot given =>
    match given.load Snapshot.ofItems with
    | .ok snapshot =>
      let (result, next) := catalog.loadSnapshot snapshot
      (result.map fun _ => .definitions next.all, next)
    | .error fault => (.error fault, catalog)
  | .add definition _ => catalog.changed do return (.done, ← catalog.add definition)
  | .remove id => catalog.changed do
    let (removed, next) ← catalog.remove id
    return (.definition removed, next)
  | .update id updates => catalog.changed do
    let (updated, next) ← catalog.update id updates
    return (.definition updated, next)
  | .clear => (.ok .done, catalog.clear)
  | .setContext (.checked context) => (.ok .done, { catalog with context })
  | .setContext (.raw value) => catalog.changed do return (.done, ← catalog.setContext value)
  | .updateContext updates => catalog.changed do return (.done, ← catalog.updateContext updates)
  | .setValue path value => catalog.changed do return (.done, ← catalog.setValue path value)
  | .query query => (catalog.ask query, catalog)

/-- The catalog after several operations in a row. -/
def run (catalog : Catalog) (operations : List Operation) : Catalog :=
  operations.foldl (fun catalog operation => (catalog.perform operation).2) catalog

/-- Whether operations lead to a catalog from the empty one. -/
def Reachable (catalog : Catalog) : Prop :=
  ∃ operations, run .empty operations = catalog

end Catalog
end Stencil
