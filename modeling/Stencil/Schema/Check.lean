import Stencil.Value.Display

/-!
# Checking values against a schema

A check turns a value into data of a type or lists all problems that keep it from being such data,
in the order in which they are met. `Checked.and` puts checks of several parts together. Texts are
taken as they are shown; only where they must not be empty, and as names of entries that a record
keeps, are they read, and then texts that are not made of characters alone are refused.
-/

namespace Stencil

/-- Data of a type, or the problems of the value that should be such data. -/
abbrev Checked (α : Type) := Except (List Problem) α

namespace Checked

variable {α β : Type}

/-- A single problem at the place of the whole value. -/
def reject (complaint : Complaint) : Checked α :=
  .error [⟨[], complaint⟩]

/-- The same result with its problems placed inside a part. -/
def within (part : String) : Checked α → Checked α
  | .ok data => .ok data
  | .error problems =>
    .error (problems.map fun problem => { problem with place := part :: problem.place })

/-- A check of nothing. -/
def build (data : α) : Checked α :=
  .ok data

/-- One more part of the data; the problems of the part follow those before it. -/
def and : Checked (α → β) → Checked α → Checked β
  | .ok whole, .ok part => .ok (whole part)
  | .ok _, .error problems => .error problems
  | .error problems, .ok _ => .error problems
  | .error first, .error second => .error (first ++ second)

/-- The data of all checks, or the problems of all that reject. -/
def all : List (Checked α) → Checked (List α)
  | [] => .ok []
  | first :: rest => Checked.and (first.map List.cons) (all rest)

/-- The result as an outcome: problems are a fault. -/
def outcome : Checked α → Outcome α
  | .ok data => .ok data
  | .error problems => .error (.invalid problems)

end Checked

namespace Schema

variable {α : Type}

/-- A text; bytes count as the text they spell. -/
def text (value : Value) : Checked String :=
  match value with
  | .text s => .ok s
  | .halved s => .ok s.shown
  | .bytes data =>
    match Text.utf8Text data with
    | .ok chars => .ok (String.ofList chars)
    | .error _ => .reject .notUnicode
  | _ => .reject .notText

/-- A text of characters that is not empty. -/
def nonemptyText (value : Value) : Checked String :=
  match value with
  | .halved _ => .reject .notUnicode
  | _ => do
    let s ← text value
    if s.isEmpty then .reject .empty else return s

/-- A check that accepts null too, as no data. -/
def orNull (check : Value → Checked α) (value : Value) : Checked (Option α) :=
  match value with
  | .null => .ok none
  | other => (check other).map some

/-- A check that accepts every value as it is. -/
def any (value : Value) : Checked Value :=
  .ok value

/-- One of several choices, given by its name. -/
def choice (choices : List α) (name : α → String) (value : Value) : Checked α :=
  let found := match text value with
    | .ok s => choices.find? (name · == s)
    | .error _ => none
  match found with
  | some one => .ok one
  | none => .reject (.notAmong (choices.map name))

/-- The name of a key in the place of a problem. -/
def keyPlace (key : Value) : String :=
  match key with
  | .text s => s
  | .halved s => s.shown
  | .bool b => if b then "1" else "0"
  | other =>
    match other.inspect with
    | .ok shown => shown
    | .error _ => s!"<unprintable {other.typeName} object>"

/-- A key that is a text. -/
def mapKey (key : Value) : Checked String :=
  match text key with
  | .ok s => .ok s
  | .error problems => Checked.within (keyPlace key) (Checked.within "[key]" (.error problems))

/-- A map with text keys and items that a check accepts. -/
def fields (item : Value → Checked α) (value : Value) : Checked (Fields α) :=
  match value with
  | .map entries =>
    let entry (entry : Value × Value) : Checked (String × α) :=
      Checked.and ((mapKey entry.1).map Prod.mk) ((item entry.2).within (keyPlace entry.1))
    (Checked.all (entries.map entry)).map Fields.ofEntries
  | _ => .reject .notMap

/-- The keys of a map that are texts but not made of characters alone. -/
def halvedKeys (value : Value) : Checked (List Text.Halved) :=
  match value with
  | .map entries => .ok (entries.filterMap (·.1.halved?))
  | _ => .ok []

/-- A list of items that a check accepts; tuples and sets count as lists. -/
def items (item : Value → Checked α) (value : Value) : Checked (List α) :=
  match value with
  | .list items | .tuple items | .set items =>
    Checked.all (items.zipIdx.map fun (one, position) => (item one).within (toString position))
  | _ => .reject .notList

/-- The entries of a record of some name. -/
def record (name : String) (check : List (Value × Value) → Checked α) (value : Value) :
    Checked α :=
  match value with
  | .map entries => check entries
  | _ => .reject (.notRecord name)

/-- The first of several names that entries have, and its value. -/
def findName (names : List String) (entries : List (Value × Value)) : Option (String × Value) :=
  names.findSome? fun name => (Value.lookupText name entries).map (name, ·)

/-- The part of a record under the first of several names that it has. -/
def required (names : List String) (check : Value → Checked α) (entries : List (Value × Value)) :
    Checked α :=
  match findName names entries with
  | some (name, value) => (check value).within name
  | none => Checked.within (names.headD "") (.reject .missing)

/-- The part of a record under the first of several names that it has, or else a default. -/
def optional (names : List String) (fallback : α) (check : Value → Checked α)
    (entries : List (Value × Value)) : Checked α :=
  match findName names entries with
  | some (name, value) => (check value).within name
  | none => .ok fallback

/-- A record that keeps its further entries: their names are read before all else. -/
def keeping (entries : List (Value × Value)) (whole : Checked α) : Checked α :=
  if entries.any (·.1.halved?.isSome) then .reject .notUnicode else whole

/-- The names under which the parts of a record are found, given the names that each may have. -/
def usedNames (parts : List (List String)) (entries : List (Value × Value)) : List String :=
  parts.filterMap fun names => (findName names entries).map (·.1)

/-- The entries of a record besides its parts. -/
def extras (parts : List (List String)) (entries : List (Value × Value)) :
    Checked (Fields Value) :=
  let used := usedNames parts entries
  let entry (entry : Value × Value) : Checked (Option (String × Value)) :=
    match text entry.1 with
    | .ok name => .ok (if used.contains name then none else some (name, entry.2))
    | .error _ => Checked.within (keyPlace entry.1) (.reject .keyNotText)
  (Checked.all (entries.map entry)).map fun found => Fields.ofEntries (found.filterMap id)

end Schema
end Stencil
