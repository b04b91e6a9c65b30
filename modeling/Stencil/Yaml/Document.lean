import Stencil.Yaml.Node
import Stencil.Yaml.Scalar

/-!
# Values of documents

The value of a node is built from its type and its parts. Mappings named under a merge key give
their entries first, so that entries of the mapping itself take precedence. Where several parts
have no value, the fault is that of the part in the fewest collections, and among those of the
first: collections are filled one level after the other. The main definition is `Yaml.read`.
-/

namespace Stencil.Yaml

/-- What keeps a node from having a value: a fault, and the number of collections of the node
around the part that has it. -/
structure Misfit where
  depth : Nat
  fault : Fault

/-- Something that is built from nodes, or what keeps it from being built. -/
abbrev Valued (α : Type) := Except Misfit α

namespace Valued

variable {α β : Type}

/-- What is built from a part that stands for itself. -/
def ofOutcome : Outcome α → Valued α
  | .ok data => .ok data
  | .error fault => .error ⟨0, fault⟩

/-- What is built from the parts of a collection. -/
def inside : Valued α → Valued α
  | .ok data => .ok data
  | .error misfit => .error { misfit with depth := misfit.depth + 1 }

/-- What is built from two parts; of two faults that in fewer collections comes first. -/
def both : Valued α → Valued β → Valued (α × β)
  | .ok first, .ok second => .ok (first, second)
  | .ok _, .error misfit => .error misfit
  | .error misfit, .ok _ => .error misfit
  | .error first, .error second => .error (if second.depth < first.depth then second else first)

/-- What is built from several parts. -/
def all : List (Valued α) → Valued (List α)
  | [] => .ok []
  | first :: rest => (both first (all rest)).map fun (head, tail) => head :: tail

end Valued

namespace Node

mutual

/-- The text of a node that stands for a scalar: a mapping does so under a key of its own. -/
def scalarText : Node → Outcome String
  | .scalar _ text => .ok text
  | .halved _ text => .ok text.shown
  | .sequence _ _ | .within _ => .error .notYaml
  | .mapping _ entries => entryText entries

/-- The text of the first entry whose key marks it as what its mapping stands for. -/
def entryText : List (Node × Node) → Outcome String
  | [] => .error .notYaml
  | (name, node) :: rest => if name.tag = .scalarKey then scalarText node else entryText rest

end

/-- The value of a node that is given the type of a scalar. -/
def scalarValue (tag : Tag) (node : Node) : Outcome Value := do
  let text ← node.scalarText
  match node, tag with
  | .mapping _ _, .timestamp => .error (.notReadable "list")
  | .halved _ text, .text => .ok (.halved text)
  | _, _ => Scalar.value tag text

/-- The value of a node as a key. The mark of what a mapping stands for is a text here. -/
def keyValue (node : Node) : Valued Value :=
  if node.tag.isCollection then .error ⟨0, .notYaml⟩
  else .ofOutcome (node.scalarValue (if node.tag = .scalarKey then .text else node.tag))

/-- The map of entries that are set in order. -/
def mapOf (entries : Valued (List (Value × Value))) : Valued Value :=
  Valued.inside (entries.map Value.ofEntries)

/-- The set of the keys of entries that are set in order. -/
def setOf (entries : Valued (List (Value × Value))) : Valued Value :=
  Valued.inside <| entries.map fun all =>
    .set ((all.foldl (fun map (key, value) => Value.setEntry key value map) []).map (·.1))

mutual

/-- The value of a node, or what keeps it from having one. -/
def value : Node → Valued Value
  | .scalar tag text =>
    if tag.isCollection then .error ⟨1, .notYaml⟩ else .ofOutcome (Scalar.value tag text)
  | .halved tag text =>
    if tag.isCollection then .error ⟨1, .notYaml⟩
    else .ofOutcome (scalarValue tag (.halved tag text))
  | .within _ => .error ⟨0, .notYaml⟩
  | .sequence tag items =>
    match tag with
    | .sequence => Valued.inside ((Valued.all (values items)).map .list)
    | .pairs => Valued.inside ((Valued.all (pairs items)).map .list)
    | .mapping | .set => .error ⟨1, .notYaml⟩
    | _ => .error ⟨0, .notYaml⟩
  | .mapping tag entries =>
    match tag with
    | .mapping => mapOf (setEntries entries)
    | .set => setOf (setEntries entries)
    | .sequence | .pairs => .error ⟨1, .notYaml⟩
    | _ => .ofOutcome (scalarValue tag (.mapping tag entries))

/-- The values of nodes, in their order. -/
def values : List Node → List (Valued Value)
  | [] => []
  | node :: rest => value node :: values rest

/-- The pairs that mappings of one entry each stand for. -/
def pairs : List Node → List (Valued Value)
  | [] => []
  | .mapping _ [(name, node)] :: rest =>
    (Valued.both (value name) (value node)).map (fun (key, item) => .tuple [key, item])
      :: pairs rest
  | _ :: rest => .error ⟨0, .notYaml⟩ :: pairs rest

/-- The entries of a mapping in the order in which they are set, the merged ones first. -/
def setEntries (entries : List (Node × Node)) : Valued (List (Value × Value)) :=
  match merged entries with
  | .ok before => Valued.all (before ++ own entries)
  | .error fault => .error ⟨0, fault⟩

/-- The entries of a mapping besides those that are merged into it. -/
def own : List (Node × Node) → List (Valued (Value × Value))
  | [] => []
  | (name, node) :: rest =>
    if name.tag = .merge then own rest
    else Valued.both name.keyValue (value node) :: own rest

/-- The entries that are merged into a mapping. -/
def merged : List (Node × Node) → Outcome (List (Valued (Value × Value)))
  | [] => .ok []
  | (name, node) :: rest =>
    if name.tag = .merge then do
      let first ← source node
      return first ++ (← merged rest)
    else merged rest

/-- The entries that a node gives to a mapping into which it is merged; of several mappings the
last comes first. -/
def source : Node → Outcome (List (Valued (Value × Value)))
  | .scalar _ _ | .halved _ _ | .within _ => .error .notYaml
  | .sequence _ items => do return (← sources items).reverse.flatten
  | .mapping _ entries => do return (← merged entries) ++ own entries

/-- The entries that each of several mappings gives. -/
def sources : List Node → Outcome (List (List (Valued (Value × Value))))
  | [] => .ok []
  | .mapping _ entries :: rest => do
    let first := (← merged entries) ++ own entries
    return first :: (← sources rest)
  | _ :: _ => .error .notYaml

end

end Node

/-- The value of the document that a text spells; a text without a document spells null. -/
def read (text : String) : Outcome Value := do
  match ← Node.ofTokens (Token.ofText text.toList) with
  | none => return .null
  | some root =>
    match root.value with
    | .ok value => return value
    | .error misfit => .error misfit.fault

end Stencil.Yaml
