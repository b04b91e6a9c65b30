import Stencil.Value.Basic

/-!
# Entries of a value

What a value that should be a map holds: a map its entries, and a sequence of pairs the entries
that the pairs make.
-/

namespace Stencil.Value

/-- The text of a single sign. -/
def ofSign : Text.Sign → Value
  | .char c => .text (String.singleton c)
  | .half offset => .halved ⟨[.half offset], rfl⟩

/-- The items of a value that has items; those of a map are its keys. -/
def items? : Value → Option (List Value)
  | .list items | .tuple items | .set items => some items
  | .text s => some (s.toList.map fun c => .text (String.singleton c))
  | .halved s => some (s.signs.map ofSign)
  | .bytes data => some (data.map fun byte => .int byte.toNat)
  | .map entries => some (entries.map (·.1))
  | _ => none

/-- The entry that the item at a position makes. -/
def entryOf (position : Nat) (item : Value) : Outcome (Value × Value) :=
  match item.items? with
  | none => .error (.itemNotEntry position)
  | some [key, value] =>
    match key.unhashable? with
    | some type => .error (.unhashable type)
    | none => .ok (key, value)
  | some parts => .error (.itemLength position parts.length)

/-- The entries that items make, the first of which is at a position. -/
def entriesFrom : (position : Nat) → List Value → Outcome (List (Value × Value))
  | _, [] => .ok []
  | position, item :: rest => do
    let entry ← entryOf position item
    return entry :: (← entriesFrom (position + 1) rest)

/-- The entries of a value that should be a map. -/
def entries (value : Value) : Outcome (List (Value × Value)) :=
  match value with
  | .map entries => .ok entries
  | other =>
    match other.items? with
    | some items => do
      let read ← entriesFrom 0 items
      return read.foldl (fun map (key, value) => setEntry key value map) []
    | none => .error (.noEntries other.qualifiedTypeName)

end Stencil.Value
