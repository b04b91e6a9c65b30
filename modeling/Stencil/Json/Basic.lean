import Stencil.Text.Digit

/-!
# JSON

Documents of the JSON format and their compact text. An integer is kept as a number; a literal
with a fraction or an exponent is kept as it is spelled. Objects keep the order of their members
and may repeat a name.
-/

namespace Stencil

/-- A JSON document. -/
inductive Json
  | null
  | bool (b : Bool)
  | int (n : Int)
  /-- A number literal with a fraction or an exponent. -/
  | literal (text : String)
  | text (s : String)
  | array (items : List Json)
  | object (members : List (String × Json))
  deriving Inhabited

namespace Json

/-- One character inside the quotes of a JSON text. -/
def escapeChar (c : Char) : List Char :=
  if c = '"' then ['\\', '"']
  else if c = '\\' then ['\\', '\\']
  else if c = '\n' then ['\\', 'n']
  else if c = '\r' then ['\\', 'r']
  else if c = '\t' then ['\\', 't']
  else if c = '\x08' then ['\\', 'b']
  else if c = '\x0c' then ['\\', 'f']
  else if c.toNat < 0x20 then '\\' :: 'u' :: Text.hexText 4 c.toNat
  else [c]

/-- A text between quotes, with the escapes that it needs. -/
def quote (s : String) : List Char :=
  '"' :: s.toList.flatMap escapeChar ++ ['"']

mutual

/-- The characters of a document. -/
def chars : Json → List Char
  | .null => "null".toList
  | .bool b => if b then "true".toList else "false".toList
  | .int n => (toString n).toList
  | .literal spelling => spelling.toList
  | .text s => quote s
  | .array items => '[' :: itemChars items ++ [']']
  | .object members => '{' :: memberChars members ++ ['}']

/-- The items of an array, separated by commas. -/
def itemChars : List Json → List Char
  | [] => []
  | [item] => chars item
  | item :: rest => chars item ++ ',' :: itemChars rest

/-- The members of an object, separated by commas. -/
def memberChars : List (String × Json) → List Char
  | [] => []
  | [(name, value)] => quote name ++ ':' :: chars value
  | (name, value) :: rest => quote name ++ ':' :: chars value ++ ',' :: memberChars rest

end

/-- The text of a document. -/
def render (document : Json) : String :=
  String.ofList document.chars

end Json
end Stencil
