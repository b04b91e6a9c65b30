import Stencil.Text.Digit
import Stencil.Text.CaseTable

/-!
# Letter case

Full case mappings: one character may become several, and the capital sigma becomes the final
form at the end of a word. A word ends where no cased letter follows; marks without effect on
case are looked through in both directions.
-/

namespace Stencil.Text

/-- The image of a code point under runs of single-character mappings. -/
def shiftBy (runs : List CaseRun) (code : Nat) : Nat :=
  match runs.find? fun (first, last, step, _) =>
      first ≤ code && code ≤ last && (code - first) % step == 0 with
  | some (_, _, _, shift) => (code + shift).toNat
  | none => code

/-- The image of a character under a table of runs and a table of expansions. -/
def mapCase (runs : List CaseRun) (expansions : List (Nat × List Nat)) (c : Char) : List Char :=
  match expansions.lookup c.toNat with
  | some codes => codes.map Char.ofNat
  | none => [Char.ofNat (shiftBy runs c.toNat)]

/-- A character in capitals, which may be several. -/
def upperChar (c : Char) : List Char :=
  if c.toNat < 0x80 then [c.toUpper] else mapCase upperRuns upperExpansions c

/-- A character in lower case, whatever stands around it. -/
def lowerChar (c : Char) : List Char :=
  if c.toNat < 0x80 then [c.toLower] else mapCase lowerRuns lowerExpansions c

/-- Whether a character is a letter that has case. -/
def isCased (c : Char) : Bool :=
  withinBounds casedBounds c.toNat

/-- Whether the case of a word looks through a character. -/
def isCaseNeutral (c : Char) : Bool :=
  withinBounds caseNeutralBounds c.toNat

/-- Whether the next character that matters to case is a cased letter. -/
def casedAhead (text : List Char) : Bool :=
  (text.dropWhile isCaseNeutral).head?.any isCased

/-- A text in lower case, where `afterCased` tells whether a cased letter precedes it. -/
def lowerAfter : (afterCased : Bool) → List Char → List Char
  | _, [] => []
  | afterCased, c :: rest =>
    let image :=
      if c.toNat = 0x3A3 then
        [Char.ofNat (if afterCased && !casedAhead rest then 0x3C2 else 0x3C3)]
      else lowerChar c
    image ++ lowerAfter (if isCaseNeutral c then afterCased else isCased c) rest

/-- A text in capitals. -/
def upper (text : List Char) : List Char :=
  text.flatMap upperChar

/-- A text in small letters. -/
def lower (text : List Char) : List Char :=
  lowerAfter false text

/-- A word with its first character in upper case and the others in lower case. -/
def capitalizeWord : List Char → List Char
  | [] => []
  | c :: rest => upperChar c ++ lower rest

/-- A text in small letters, as a string. -/
def lowered (text : String) : String :=
  String.ofList (lower text.toList)

end Stencil.Text
