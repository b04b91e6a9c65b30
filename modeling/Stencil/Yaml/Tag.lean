import Stencil.Binary64.Literal
import Stencil.Yaml.Timestamp

/-!
# Types of nodes

A node has the type that its tag names. A plain scalar without one has the type of the first form
that its text has: truth values, numbers, null, timestamps and two marks with a meaning in
mappings; all other texts are texts.
-/

namespace Stencil.Yaml

/-- The type of a node. -/
inductive Tag
  | null
  | bool
  | int
  | float
  | text
  | binary
  | timestamp
  /-- The key under which other mappings are merged into one. -/
  | merge
  /-- The key under which a mapping has the scalar that it stands for. -/
  | scalarKey
  | sequence
  | mapping
  | set
  /-- A sequence of mappings with one entry each. -/
  | pairs
  /-- A type that is not known. -/
  | unknown
  deriving DecidableEq, Repr

namespace Tag

/-- What the names of the known types begin with. -/
def standard : String :=
  "tag:yaml.org,2002:"

/-- The short names of the types that are known. -/
def names : List (String × Tag) :=
  [("null", .null), ("bool", .bool), ("int", .int), ("float", .float), ("str", .text),
    ("binary", .binary), ("timestamp", .timestamp), ("merge", .merge), ("value", .scalarKey),
    ("seq", .sequence), ("map", .mapping), ("set", .set), ("omap", .pairs), ("pairs", .pairs)]

/-- The type of a full name. -/
def ofName (name : String) : Tag :=
  ((names.map fun (short, tag) => (standard ++ short, tag)).lookup name).getD .unknown

/-- Whether values of a type are collections, which cannot be keys. -/
def isCollection : Tag → Bool
  | .sequence | .mapping | .set | .pairs => true
  | _ => false

/-- The texts of truth values in small letters. -/
def truthWords : List (String × Bool) :=
  [("yes", true), ("no", false), ("true", true), ("false", false), ("on", true), ("off", false)]

/-- A word in the three spellings that are recognised: small, with a capital, and in capitals. -/
def spellings (word : String) : List String :=
  [word,
    String.ofList (word.toList.take 1 |>.map Char.toUpper) ++ String.ofList (word.toList.drop 1),
    String.ofList (word.toList.map Char.toUpper)]

/-- Whether a text is one of several words in a recognised spelling. -/
def isWord (words : List String) (text : List Char) : Bool :=
  (words.flatMap spellings).contains (String.ofList text)

/-- Whether a text consists of digits and underscores. -/
def isGrouped (isDigit : Char → Bool) (text : List Char) : Bool :=
  text.all fun c => isDigit c || c == '_'

/-- Whether a text is a digit followed by digits and underscores. -/
def isDecimal (text : List Char) : Bool :=
  text.head?.any Char.isDigit && isGrouped Char.isDigit text

/-- Whether a text is a number below sixty. -/
def isSixtieth : List Char → Bool
  | [ones] => ones.isDigit
  | [tens, ones] => '0' ≤ tens && tens ≤ '5' && ones.isDigit
  | _ => false

/-- Whether a text is a number in base sixty, its places separated by colons. -/
def isSexagesimal (text : List Char) : Bool :=
  match text.splitOn ':' with
  | first :: next :: others => isDecimal first && (next :: others).all isSixtieth
  | _ => false

/-- Whether a text has the form of an integer. -/
def isInteger (text : List Char) : Bool :=
  match (NumberLiteral.takeSign text).2 with
  | [] => false
  | '0' :: 'b' :: digits => !digits.isEmpty && isGrouped (fun c => c == '0' || c == '1') digits
  | '0' :: 'x' :: digits => !digits.isEmpty && isGrouped (Text.hexValue? · |>.isSome) digits
  | '0' :: digits => isGrouped (fun c => '0' ≤ c && c ≤ '7') digits
  | unsigned => isDecimal unsigned || isSexagesimal unsigned

/-- Whether a text is empty or an exponent with a sign. -/
def isExponent : List Char → Bool
  | [] => true
  | mark :: sign :: digits =>
    (mark == 'e' || mark == 'E') && (sign == '+' || sign == '-')
      && !digits.isEmpty && digits.all Char.isDigit
  | _ => false

/-- Whether a text is digits and underscores and possibly an exponent. -/
def isFraction (text : List Char) : Bool :=
  isExponent (text.dropWhile fun c => c.isDigit || c == '_')

/-- Whether a text has the form of a number with a point. -/
def isFloat (text : List Char) : Bool :=
  let unsigned := (NumberLiteral.takeSign text).2
  let whole := unsigned.takeWhile (· != '.')
  match unsigned.dropWhile (· != '.') with
  | [] => false
  | _ :: fraction =>
    if whole.isEmpty then
      isWord ["inf"] fraction
        || (unsigned.length == text.length
          && (["nan", "NaN", "NAN"].contains (String.ofList fraction)
            || (fraction.head?.any Char.isDigit && isFraction fraction)))
    else
      (isDecimal whole && isFraction fraction)
        || (isSexagesimal whole && isGrouped Char.isDigit fraction)

/-- The type of a text by its form. -/
def ofForm (text : List Char) : Tag :=
  if isWord (truthWords.map (·.1)) text then .bool
  else if isFloat text then .float
  else if isInteger text then .int
  else if text = "<<".toList then .merge
  else if text.isEmpty || text = ['~'] || isWord ["null"] text then .null
  else if (Timestamp.read? text).any Timestamp.isPlain then .timestamp
  else if text = ['='] then .scalarKey
  else if text = ['!'] ∨ text = ['&'] ∨ text = ['*'] then .unknown
  else .text

/-- A text without a line feed at its end. -/
def dropFinalBreak (text : List Char) : List Char :=
  if text.getLast? = some '\n' ∧ 1 < text.length then text.dropLast else text

/-- The type of a scalar without a tag; a line feed at its end does not matter. -/
def ofPlainText (text : String) : Tag :=
  ofForm (dropFinalBreak text.toList)

end Tag
end Stencil.Yaml
