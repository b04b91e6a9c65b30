import Stencil.Yaml.Block
import Stencil.Yaml.Plain
import Stencil.Yaml.Property
import Stencil.Yaml.Quoted

/-!
# Tokens of a document

A document is a sequence of tokens: scalars, the properties of nodes, and marks, some of which are
written and some of which indentation implies. A key is known as one only when the colon behind it
is reached, so its mark, and with it the beginning of a mapping, is put in front of tokens that are
there already. Where a text cannot be read the tokens end with the fault, behind the last token
that does not wait for such a colon. The main definition is `Token.ofText`.
-/

namespace Stencil.Yaml

/-- A token of a document. -/
inductive Token
  | streamEnd
  | directive (directive : Directive)
  | documentStart
  | documentEnd
  | blockSequenceStart
  | blockMappingStart
  | blockEnd
  | flowSequenceStart
  | flowSequenceEnd
  | flowMappingStart
  | flowMappingEnd
  | blockEntry
  | flowEntry
  | key
  | value
  | alias (name : String)
  | anchor (name : String)
  | tag (handle : Option String) (suffix : String)
  | scalar (text : String) (plain : Bool)
  /-- A quoted scalar that is not made of characters alone. -/
  | halved (text : Text.Halved)
  /-- The text cannot be read any further. -/
  | broken (fault : Fault)
  deriving DecidableEq, Repr

namespace Token

/-- A token that is a key if a colon follows on its line. -/
structure Candidate where
  /-- The number of brackets that are open around it. -/
  level : Nat
  /-- The number of tokens in front of it. -/
  place : Nat
  /-- Whether a colon has to follow because the indentation demands a key. -/
  required : Bool
  index : Nat
  line : Nat
  column : Nat

/-- What has been read of a document. -/
structure Reading where
  cursor : Cursor
  /-- The tokens, the last one first. -/
  tokens : List Token
  /-- The number of open brackets. -/
  level : Nat
  /-- The columns of the open block collections, the innermost first. -/
  indents : List Nat
  /-- Whether a key may begin here. -/
  keyAllowed : Bool
  /-- The tokens that may still turn out to be keys, at most one for each level. -/
  candidates : List Candidate
  ended : Bool

/-- How many characters a key may span. -/
def keyReach : Nat :=
  1024

namespace Reading

/-- The reading of a text before its first token. -/
def start (text : List Char) : Reading :=
  ⟨if text.head? = some '\uFEFF' then (Cursor.start text).forward else .start text,
    [], 0, [], true, [], false⟩

/-- A token more, with the place behind it. -/
def emit (reading : Reading) (token : Token) (cursor : Cursor) : Reading :=
  { reading with tokens := token :: reading.tokens, cursor }

/-- The reading behind a mark of one character, with its token. -/
def emitMark (reading : Reading) (token : Token) : Reading :=
  reading.emit token reading.cursor.forward

/-- Tokens put in front of those from a place on. -/
def insert (reading : Reading) (place : Nat) (tokens : List Token) : Reading :=
  let behind := reading.tokens.length - place
  { reading with
    tokens := reading.tokens.take behind ++ tokens.reverse ++ reading.tokens.drop behind }

/-- Whether a reading is inside brackets. -/
def inFlow (reading : Reading) : Bool :=
  reading.level != 0

/-- The least column at which the lines of a plain scalar may go on. -/
def leastColumn (reading : Reading) : Nat :=
  reading.indents.head?.elim 0 (· + 1)

/-- The reading without the candidate at the open level, which must not be a required key. -/
def dropCandidate (reading : Reading) : Outcome Reading :=
  if reading.candidates.any fun waiting => waiting.level == reading.level && waiting.required then
    .error .notYaml
  else .ok { reading with
    candidates := reading.candidates.filter (·.level != reading.level) }

/-- Whether a candidate is too far behind the place that was reached. -/
def isStale (reading : Reading) (waiting : Candidate) : Bool :=
  waiting.line != reading.cursor.line || waiting.index + keyReach < reading.cursor.index

/-- The reading without stale candidates, none of which must be a required key. -/
def dropStale (reading : Reading) : Outcome Reading :=
  if reading.candidates.any fun waiting => reading.isStale waiting && waiting.required then
    .error .notYaml
  else .ok { reading with candidates := reading.candidates.filter (!reading.isStale ·) }

/-- The reading with the next token as a candidate, where a key may begin. -/
def offerKey (reading : Reading) : Outcome Reading :=
  if reading.keyAllowed then do
    let cursor := reading.cursor
    let required := !reading.inFlow && reading.indents.head? == some cursor.column
    let waiting : Candidate :=
      ⟨reading.level, reading.tokens.length, required, cursor.index, cursor.line, cursor.column⟩
    let reading ← reading.dropCandidate
    return { reading with candidates := waiting :: reading.candidates }
  else .ok reading

/-- The reading with the block collections closed that are indented beyond some column, or with all
of them closed. -/
def closeBlocks (reading : Reading) (column : Option Nat) : Reading :=
  if reading.inFlow then reading
  else
    let beyond (indent : Nat) : Bool := column.all (· < indent)
    let closed := reading.indents.takeWhile beyond
    { reading with
      indents := reading.indents.drop closed.length
      tokens := closed.map (fun _ => .blockEnd) ++ reading.tokens }

/-- Whether a collection at a column is indented beyond the open ones. -/
def opensBlock (reading : Reading) (column : Nat) : Bool :=
  !reading.inFlow && reading.indents.head?.all (· < column)

/-- The reading with a collection opened at its place by the given mark, if it is indented beyond
the open ones. -/
def openBlock (reading : Reading) (mark : Token) : Reading :=
  let column := reading.cursor.column
  if reading.opensBlock column then
    { reading with indents := column :: reading.indents, tokens := mark :: reading.tokens }
  else reading

/-- The reading with the blanks and comments passed. A key may begin on a new line outside
brackets. -/
def skipGaps : (steps : Nat) → Reading → Reading
  | 0, reading => reading
  | steps + 1, reading =>
    let cursor := reading.cursor.skipSpaces.skipComment
    match cursor.takeBreak with
    | ([], _) => { reading with cursor }
    | (_, next) => skipGaps steps { reading with
        cursor := next
        keyAllowed := reading.keyAllowed || !reading.inFlow }

/-- A directive or a mark of a document's beginning or end. -/
def documentToken (reading : Reading) (take : Cursor → Outcome (Token × Cursor)) :
    Outcome Reading := do
  let reading ← (reading.closeBlocks none).dropCandidate
  let (token, stop) ← take reading.cursor
  return { reading.emit token stop with keyAllowed := false }

/-- The reading at the end of the text: all blocks are closed. -/
def endToken (reading : Reading) : Outcome Reading := do
  let reading ← (reading.closeBlocks none).dropCandidate
  return { reading.emit .streamEnd reading.cursor with
    keyAllowed := false, candidates := [], ended := true }

/-- The reading behind an opening bracket. -/
def openFlow (reading : Reading) (mark : Token) : Outcome Reading := do
  let reading ← reading.offerKey
  return { reading.emitMark mark with level := reading.level + 1, keyAllowed := true }

/-- The reading behind a closing bracket. -/
def closeFlow (reading : Reading) (mark : Token) : Outcome Reading := do
  let reading ← reading.dropCandidate
  return { reading.emitMark mark with level := reading.level - 1, keyAllowed := false }

/-- A comma between the entries of a collection in brackets. -/
def flowEntry (reading : Reading) : Outcome Reading := do
  let reading ← reading.dropCandidate
  return { reading.emitMark .flowEntry with keyAllowed := true }

/-- A hyphen in front of an entry of a sequence. -/
def blockEntry (reading : Reading) : Outcome Reading := do
  if !reading.inFlow && !reading.keyAllowed then .error .notYaml
  else
    let reading ← (reading.openBlock .blockSequenceStart).dropCandidate
    return { reading.emitMark .blockEntry with keyAllowed := true }

/-- A question mark in front of a key. -/
def keyMark (reading : Reading) : Outcome Reading := do
  if !reading.inFlow && !reading.keyAllowed then .error .notYaml
  else
    let reading ← (reading.openBlock .blockMappingStart).dropCandidate
    return { reading.emitMark .key with keyAllowed := !reading.inFlow }

/-- A colon behind a candidate, which thereby is a key. -/
def valueOfCandidate (reading : Reading) (waiting : Candidate) : Reading :=
  let opens := reading.opensBlock waiting.column
  let marks := if opens then [.blockMappingStart, .key] else [.key]
  let indents := if opens then waiting.column :: reading.indents else reading.indents
  { (reading.insert waiting.place marks).emitMark .value with
    indents
    keyAllowed := false
    candidates := reading.candidates.filter (·.level != reading.level) }

/-- The reading behind a colon, which may make a key of what was read before. -/
def valueMark (reading : Reading) : Outcome Reading := do
  match reading.candidates.find? (·.level == reading.level) with
  | some waiting => return reading.valueOfCandidate waiting
  | none =>
    if !reading.inFlow && !reading.keyAllowed then .error .notYaml
    else
      let reading ← (reading.openBlock .blockMappingStart).dropCandidate
      return { reading.emitMark .value with keyAllowed := !reading.inFlow }

/-- A token that may be a key or part of one, behind which no key may begin. -/
def keyPart (reading : Reading) (take : Cursor → Outcome (Token × Cursor)) : Outcome Reading := do
  let reading ← reading.offerKey
  let (token, stop) ← take reading.cursor
  return { reading.emit token stop with keyAllowed := false }

/-- The name of an anchor, made a token. -/
def anchorToken (make : String → Token) (cursor : Cursor) : Outcome (Token × Cursor) := do
  let (name, stop) ← Property.anchor cursor.forward
  return (make name, stop)

/-- The token of a tag. -/
def tagToken (cursor : Cursor) : Outcome (Token × Cursor) := do
  let (handle, suffix, stop) ← Property.tag cursor
  return (.tag handle suffix, stop)

/-- The token of a quoted scalar. -/
def ofSpelled : String ⊕ Text.Halved → Token
  | .inl text => .scalar text false
  | .inr text => .halved text

/-- The token of a scalar in quotes. -/
def quotedToken (quote : Char) (cursor : Cursor) : Outcome (Token × Cursor) := do
  let (signs, stop) ← Quoted.scalar quote cursor
  return (ofSpelled (Text.ofSigns signs), stop)

/-- A block scalar, behind which a key may begin. -/
def blockScalar (reading : Reading) (folded : Bool) : Outcome Reading := do
  let reading ← reading.dropCandidate
  let (text, stop) ← Block.scalar folded (max reading.leastColumn 1) reading.cursor
  return { reading.emit (.scalar (String.ofList text) false) stop with keyAllowed := true }

/-- A plain scalar, behind which a key may begin if a line ended. -/
def plainScalar (reading : Reading) : Outcome Reading := do
  let reading ← reading.offerKey
  let found := Plain.scalar reading.inFlow reading.leastColumn reading.cursor
  return { reading.emit (.scalar (String.ofList found.text) true) found.stop with
    keyAllowed := found.endedLine }

/-- Whether a plain scalar may begin with a character in front of another. -/
def beginsPlain (reading : Reading) (c : Char) (next : Option Char) : Bool :=
  !(isGap (some c) || "-?:,[]\x7b\x7d#&*!|>'\"%@`".toList.contains c)
    || (!isGap next && (c == '-' || (!reading.inFlow && (c == '?' || c == ':'))))

/-- The reading with the token that begins with a given character in front of another. -/
def takeMark (reading : Reading) (c : Char) (next : Option Char) : Outcome Reading :=
  let bare := reading.inFlow || isGap next
  if c = '[' then reading.openFlow .flowSequenceStart
  else if c = '{' then reading.openFlow .flowMappingStart
  else if c = ']' then reading.closeFlow .flowSequenceEnd
  else if c = '}' then reading.closeFlow .flowMappingEnd
  else if c = ',' then reading.flowEntry
  else if c = '-' && isGap next then reading.blockEntry
  else if c = '?' && bare then reading.keyMark
  else if c = ':' && bare then reading.valueMark
  else if c = '*' then reading.keyPart (anchorToken .alias)
  else if c = '&' then reading.keyPart (anchorToken .anchor)
  else if c = '!' then reading.keyPart tagToken
  else if c = '|' && !reading.inFlow then reading.blockScalar false
  else if c = '>' && !reading.inFlow then reading.blockScalar true
  else if c = '\'' ∨ c = '"' then reading.keyPart (quotedToken c)
  else if reading.beginsPlain c next then reading.plainScalar
  else .error .notYaml

/-- The reading with the next token, or with the next few where indentation implies some. -/
def advance (reading : Reading) : Outcome Reading := do
  let passed := skipGaps (reading.cursor.rest.length + 1) reading
  let reading ← passed.dropStale
  let reading := reading.closeBlocks (some reading.cursor.column)
  let cursor := reading.cursor
  match cursor.rest with
  | [] => reading.endToken
  | c :: rest =>
    if cursor.column = 0 && c = '%' then
      reading.documentToken fun cursor => do
        let (found, stop) ← Property.directive cursor
        return (.directive found, stop)
    else if cursor.column = 0 && cursor.startsMark "---" then
      reading.documentToken fun cursor => .ok (.documentStart, cursor.skip 3)
    else if cursor.column = 0 && cursor.startsMark "..." then
      reading.documentToken fun cursor => .ok (.documentEnd, cursor.skip 3)
    else reading.takeMark c rest.head?

/-- The tokens in order as far as none of them waits for a colon. -/
def settled (reading : Reading) : List Token :=
  reading.tokens.reverse.take
    ((reading.candidates.map (·.place)).foldl min reading.tokens.length)

/-- All tokens in order, the text read to its end or as far as it can be read. -/
def finish : (steps : Nat) → Reading → List Token
  | 0, reading => reading.tokens.reverse
  | steps + 1, reading =>
    if reading.ended then reading.tokens.reverse
    else match reading.dropStale with
      | .error fault => reading.settled ++ [.broken fault]
      | .ok reading =>
        match reading.advance with
        | .error fault => reading.settled ++ [.broken fault]
        | .ok next => finish steps next

end Reading

/-- Whether a character may stand in a document: no control characters besides the usual ones, and
no codes that are no characters. -/
def isAllowed (c : Char) : Bool :=
  let code := c.toNat
  code == 0x09 || code == 0x0A || code == 0x0D || (0x20 ≤ code && code ≤ 0x7E) || code == 0x85
    || (0xA0 ≤ code && code ≤ 0xFFFD) || 0x10000 ≤ code

/-- The tokens of a text. -/
def ofText (text : List Char) : List Token :=
  if text.all isAllowed then (Reading.start text).finish (text.length + 2)
  else [.broken .notYaml]

end Token
end Stencil.Yaml
