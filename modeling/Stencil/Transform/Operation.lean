import Stencil.Transform.Registry

/-!
# Operations on a registry

What is asked of a registry, as data. `Registry.perform` gives the reply to an operation and the
registry afterwards, and `Registry.run` the registry after several operations in a row.
-/

namespace Stencil.Registry

/-- A question to a registry. -/
inductive Query
  | has (id : String)
  | get (id : String)
  | all
  | inCategory (category : Option String)
  | categories
  | ids

/-- What a registry replies to an operation. -/
inductive Reply
  | done
  | truth (b : Bool)
  | transformation (transformation : Option Transformation)
  | transformations (transformations : List Transformation)
  | texts (texts : List String)
  | image (value : Value) (reported : List Diagnostic)

/-- An operation on a registry. -/
inductive Operation
  | register (transformation : Transformation)
  | apply (step : Step) (value : Value) (further : List Value)
  | query (query : Query)

/-- The answer of a registry to a query. -/
def ask (registry : Registry) : Query → Reply
  | .has id => .truth (registry.has id)
  | .get id => .transformation (registry.get? id)
  | .all => .transformations registry.all
  | .inCategory category => .transformations (registry.inCategory category)
  | .categories => .texts registry.categories
  | .ids => .texts registry.ids

/-- The reply to an operation and the registry after it. -/
def perform (registry : Registry) : Operation → Outcome Reply × Registry
  | .register transformation =>
    match registry.register transformation with
    | .ok grown => (.ok .done, grown)
    | .error fault => (.error fault, registry)
  | .apply step value further =>
    let (image, reported) := registry.apply step value further
    (.ok (.image image reported), registry)
  | .query query => (.ok (registry.ask query), registry)

/-- The registry after several operations in a row. -/
def run (registry : Registry) (operations : List Operation) : Registry :=
  operations.foldl (fun registry operation => (registry.perform operation).2) registry

end Stencil.Registry
