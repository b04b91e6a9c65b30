import Stencil.Binary64.Decimal
import Stencil.Value.Basic

/-!
# Display text

Two texts of a value. Its display text is what text transformations work on: numbers without
ornament, lists joined by commas, maps as a fixed word. Its label is how it shows as a key or as
part of a set, with quotes around inner texts and the names of types where they matter.
-/

namespace Stencil

/-- The digits of an integer; too long an integer is not written. -/
def integerText (n : Int) : Outcome String :=
  if Nat.pow 10 digitLimit ≤ n.natAbs then .error .longInteger else .ok (toString n)

/-- A number as it shows in text: whole numbers below `10 ^ 21` in full. -/
def Binary64.displayText (x : Binary64) : String :=
  match x with
  | .nan => "NaN"
  | .infinity negative => if negative then "-Infinity" else "Infinity"
  | .finite negative mantissa exponent _ =>
    if x.isWhole && x.magnitude < Nat.pow 10 21 * Binary64.unitsPerOne then toString x.truncate
    else String.ofList (Binary64.finiteText .shown negative mantissa exponent)

namespace Value

/-- The text of a truth value. -/
def truthText (b : Bool) : String :=
  if b then "true" else "false"

/-- An offset in days and seconds, as a label of a moment shows it. -/
def offsetLabel (offset : Calendar.Offset) : String :=
  let micros := offset.micros
  if micros = 0 then "datetime.timezone.utc"
  else
    let days := micros.fdiv Calendar.microsPerDay
    let rest := micros.fmod Calendar.microsPerDay
    let parts := (if days = 0 then [] else [s!"days={days}"])
      ++ (if rest / 1000000 = 0 then [] else [s!"seconds={rest / 1000000}"])
      ++ (if rest % 1000000 = 0 then [] else [s!"microseconds={rest % 1000000}"])
    let inner := ", ".intercalate parts
    s!"datetime.timezone(datetime.timedelta({inner}))"

/-- A moment as it shows inside a set or a tuple: its numbers, without trailing zeros. -/
def momentLabel (moment : Calendar.Moment) : String :=
  let date := moment.date
  let clock := moment.clock
  let numbers := [date.year, date.month, date.day, clock.hour, clock.minute]
    ++ (if clock.second = 0 ∧ clock.micro = 0 then [] else [clock.second])
    ++ (if clock.micro = 0 then [] else [clock.micro])
  let offset := moment.offset.elim [] fun offset => ["tzinfo=" ++ offsetLabel offset]
  let inner := ", ".intercalate (numbers.map toString ++ offset)
  s!"datetime.datetime({inner})"

mutual

/-- A value as it shows inside a set, a tuple or a list. -/
def inspect : Value → Outcome String
  | .undefined => .ok "undefined"
  | .null => .ok "None"
  | .bool b => .ok (if b then "True" else "False")
  | .int n => integerText n
  | .float x => .ok x.plainText
  | .text s => .ok (Text.quoted s)
  | .halved s => .ok s.quoted
  | .bytes data => .ok (Text.quotedBytes data)
  | .date d => .ok s!"datetime.date({d.year}, {d.month}, {d.day})"
  | .moment m => .ok (momentLabel m)
  | .list items => do
    let inner := ", ".intercalate (← inspectItems items)
    return s!"[{inner}]"
  | .tuple items => do
    let inner := ", ".intercalate (← inspectItems items)
    return if items.length = 1 then s!"({inner},)" else s!"({inner})"
  | .set items => do
    if items.isEmpty then return "set()"
    let inner := ", ".intercalate (← inspectItems items)
    return "\x7b" ++ inner ++ "\x7d"
  | .map entries => do
    let inner := ", ".intercalate (← inspectEntries entries)
    return "\x7b" ++ inner ++ "\x7d"

/-- Several values as they show inside a collection. -/
def inspectItems : List Value → Outcome (List String)
  | [] => .ok []
  | item :: rest => do
    let text ← inspect item
    return text :: (← inspectItems rest)

/-- The entries of a map as they show inside a collection. -/
def inspectEntries : List (Value × Value) → Outcome (List String)
  | [] => .ok []
  | (key, value) :: rest => do
    let keyText ← inspect key
    let valueText ← inspect value
    return s!"{keyText}: {valueText}" :: (← inspectEntries rest)

end

/-- A value as it shows on its own, as the name of a key. -/
def label : Value → Outcome String
  | .text s => .ok s
  | .halved s => .ok s.shown
  | .date d => .ok (String.ofList d.isoText)
  | .moment m => .ok (String.ofList (m.textWith ' '))
  | value => inspect value

mutual

/-- The text of a value in a template. -/
def display : Value → Outcome String
  | .undefined => .ok "undefined"
  | .null => .ok "null"
  | .bool b => .ok (truthText b)
  | .int n => integerText n
  | .float x => .ok x.displayText
  | .text s => .ok s
  | .halved s => .ok s.shown
  | .bytes data => .ok (",".intercalate (data.map fun byte => toString byte.toNat))
  | .date d => .ok (String.ofList d.isoText)
  | .moment m => .ok (String.ofList m.isoText)
  | .list items | .tuple items => do return ",".intercalate (← displayItems items)
  | .set items => label (.set items)
  | .map _ => .ok "[object Object]"

/-- The display texts of several values; an absent one is empty. -/
def displayItems : List Value → Outcome (List String)
  | [] => .ok []
  | item :: rest => do
    let text ← if item.isAbsent then pure "" else display item
    return text :: (← displayItems rest)

end

end Value
end Stencil
