import Stencil.Catalog.Definition

/-!
# Exported definitions

A definition is exported with a value that consists of the kinds of a data file only: dates and
moments become texts, bytes the text they spell, tuples and sets lists, and numbers that are not
finite null. Keys become texts.
-/

namespace Stencil

/-- An offset as an exported moment shows it: to the minute, and a letter for universal time. -/
def Calendar.Offset.exported (offset : Calendar.Offset) : List Char :=
  let seconds := offset.micros.tdiv 1000000
  if seconds = 0 then ['Z']
  else
    let minutes := seconds.natAbs / 60
    (if seconds < 0 then '-' else '+') :: Text.paddedText 2 (minutes / 60)
      ++ ':' :: Text.paddedText 2 (minutes % 60)

/-- The text of a moment in an export. -/
def Calendar.Moment.exported (moment : Calendar.Moment) : String :=
  String.ofList ({ moment with offset := none }.isoText
    ++ moment.offset.elim [] Calendar.Offset.exported)

/-- The text that bytes stand for in an export. -/
def exportedBytes (data : List UInt8) : Outcome String :=
  match Text.utf8Text data with
  | .ok chars => .ok (String.ofList chars)
  | .error error => .error (.encoding { error with span := 1, cause := .notText })

namespace Value

mutual

/-- The name of a key in an export. -/
def exportedKey : Value → Outcome String
  | .undefined => .error .unexportable
  | .text s => .ok s
  | .halved s => .ok s.shown
  | .bool b => .ok (truthText b)
  | .bytes data => exportedBytes data
  | .date d => .ok (String.ofList d.isoText)
  | .moment m => .ok m.exported
  | .tuple items => do return ",".intercalate (← exportedKeys items)
  | other => other.inspect

/-- The names of keys in an export, in their order. -/
def exportedKeys : List Value → Outcome (List String)
  | [] => .ok []
  | key :: rest => do
    let first ← exportedKey key
    return first :: (← exportedKeys rest)

end

mutual

/-- A value in an export, of which only some types are left. -/
def exported : Value → Outcome Value
  | .undefined => .error .unexportable
  | .null => .ok .null
  | .bool b => .ok (.bool b)
  | .int n => .ok (.int n)
  | .float x => .ok (if x.isFinite then .float x else .null)
  | .text s => .ok (.text s)
  | .halved s => .ok (.halved s)
  | .bytes data => do return .text (← exportedBytes data)
  | .date d => .ok (.text (String.ofList d.isoText))
  | .moment m => .ok (.text m.exported)
  | .list items | .tuple items | .set items => do return .list (← exportedItems items)
  | .map entries => do return .ofFields (Fields.ofEntries (← exportedEntries entries))

/-- Values in an export, in their order. -/
def exportedItems : List Value → Outcome (List Value)
  | [] => .ok []
  | item :: rest => do
    let first ← exported item
    return first :: (← exportedItems rest)

/-- The entries of a map as they are exported. -/
def exportedEntries : List (Value × Value) → Outcome (List (String × Value))
  | [] => .ok []
  | (key, item) :: rest => do
    let name ← exportedKey key
    let image ← exported item
    return (name, image) :: (← exportedEntries rest)

end

end Value

/-- A definition in an export, with its current value. -/
def Definition.exported (definition : Definition) : Outcome Value := do
  return .ofFields (definition.summary ++ [("value", ← definition.value.exported)])

end Stencil
