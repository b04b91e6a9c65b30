import Stencil.Fields
import Stencil.Yaml.Tag
import Stencil.Yaml.Token

/-!
# Nodes of a document

A document is a tree of scalars, sequences and mappings, each with its type. An alias stands for
the node that carries the anchor of its name and is replaced by it. A mapping that is merged into
itself by an alias gives itself its other entries; elsewhere inside its own node an alias is kept,
and such a node would hold itself and has no value. The main definition is `Node.ofTokens`, which
reads at most one document.
-/

namespace Stencil.Yaml

/-- A node of a document. -/
inductive Node
  | scalar (tag : Tag) (text : String)
  /-- A scalar that is not made of characters alone. -/
  | halved (tag : Tag) (text : Text.Halved)
  | sequence (tag : Tag) (items : List Node)
  | mapping (tag : Tag) (entries : List (Node × Node))
  /-- An alias of the given name inside the node that carries the anchor. -/
  | within (anchor : String)

namespace Node

/-- The node where a document has none: a scalar without text. -/
def absent : Node :=
  .scalar (.ofPlainText "") ""

/-- The type of a node. -/
def tag : Node → Tag
  | .scalar tag _ | .halved tag _ | .sequence tag _ | .mapping tag _ => tag
  | .within _ => .unknown

/-- A node, or a mapping of the given entries for an alias of the given name. -/
def standFor (anchor : String) (entries : List (Node × Node)) (node : Node) : Node :=
  match node with
  | .within name => if name = anchor then .mapping .mapping entries else node
  | _ => node

/-- What is merged into a mapping, with the mapping's other entries in place of aliases of it. -/
def tieSource (anchor : String) (others : List (Node × Node)) (node : Node) : Node :=
  match node with
  | .sequence tag items => .sequence tag (items.map (standFor anchor others))
  | _ => standFor anchor others node

/-- The rest of the entries of a mapping, which is merged into itself where an alias of its anchor
says so. The entries before them that stay are given. -/
def tieEntries (anchor : String) (before : List (Node × Node)) :
    List (Node × Node) → List (Node × Node)
  | [] => []
  | (name, node) :: rest =>
    if name.tag = .merge then
      let behind := tieEntries anchor before rest
      (name, tieSource anchor (before ++ behind) node) :: behind
    else (name, node) :: tieEntries anchor (before ++ [(name, node)]) rest

/-- A node that was read, merged into itself where an alias of its anchor says so. -/
def tied (anchor : Option String) (node : Node) : Node :=
  match anchor, node with
  | some name, .mapping tag entries => .mapping tag (tieEntries name [] entries)
  | _, _ => node

/-- The state of reading: the tokens that are left, the anchored nodes, of which those still being
read are not known, and the meanings of handles. -/
structure Reading where
  tokens : List Token
  anchors : Fields (Option Node)
  handles : Fields String

/-- A reader of a part of a document. -/
abbrev Reader := StateT Reading Outcome

/-- What the handles of tags stand for if no directive says otherwise. -/
def usualHandles : Fields String :=
  [("!", "!"), ("!!", Tag.standard)]

/-- The end of a reading that cannot go on. -/
def refuse {α : Type} : Reader α :=
  throw .notYaml

/-- The next token, which stays ahead. -/
def peek : Reader Token := do
  match (← get).tokens with
  | [] => refuse
  | .broken fault :: _ => throw fault
  | token :: _ => return token

/-- The reading behind the next token. -/
def pass : Reader Unit :=
  modify fun reading => { reading with tokens := reading.tokens.tail }

/-- The name of a tag: what its handle stands for, and the rest. -/
def tagName (handle : Option String) (suffix : String) : Reader String := do
  match handle with
  | none => return suffix
  | some name =>
    match (← get).handles.get? name with
    | some meaning => return meaning ++ suffix
    | none => refuse

/-- The anchor in front of a node, if there is one. -/
def takeAnchor : Reader (Option String) := do
  match ← peek with
  | .anchor name => pass; return some name
  | _ => return none

/-- The tag in front of a node, if there is one. -/
def takeTag : Reader (Option (Option String × String)) := do
  match ← peek with
  | .tag handle suffix => pass; return some (handle, suffix)
  | _ => return none

/-- The anchor and the full name of the tag in front of a node, in either order. -/
def takeProperties : Reader (Option String × Option String) := do
  let first ← takeAnchor
  let tag ← takeTag
  let second ← if first.isNone && tag.isSome then takeAnchor else pure none
  let name ← match tag with
    | some (handle, suffix) => some <$> tagName handle suffix
    | none => pure none
  return (first.or second, name)

/-- The type of a collection with a tag; without one, and with the tag that names no type, it is
the usual one. -/
def collectionTag (usual : Tag) (name : Option String) : Tag :=
  match name with
  | none | some "!" => usual
  | some name => .ofName name

/-- The type of a quoted scalar with a tag; without one, and with the tag that names no type, it is
a text. -/
def halvedTag (name : Option String) : Tag :=
  match name with
  | none | some "!" => .text
  | some name => .ofName name

/-- The type of a scalar with a tag. -/
def scalarTag (name : Option String) (plain : Bool) (text : String) : Tag :=
  match name with
  | none => if plain then .ofPlainText text else .text
  | some "!" => .ofPlainText text
  | some name => .ofName name

/-- The node that an alias names, which has to be known or still to be read. -/
def aliased (name : String) : Reader Node := do
  match (← get).anchors.get? name with
  | some (some node) => return node
  | some none => return .within name
  | none => refuse

/-- Makes an anchor known, whose node is still to be read. No name is used twice. -/
def openAnchor (anchor : Option String) : Reader Unit := do
  match anchor with
  | none => return ()
  | some name =>
    if (← get).anchors.has name then refuse
    else modify fun reading => { reading with anchors := reading.anchors.set name none }

/-- The node of an anchor is known from here on. -/
def closeAnchor (anchor : Option String) (node : Node) : Reader Unit := do
  match anchor with
  | none => return ()
  | some name =>
    modify fun reading => { reading with anchors := reading.anchors.set name (some node) }

/-- Goes on behind a token that has to follow. -/
def expect (token : Token → Bool) : Reader Unit := do
  if token (← peek) then pass else refuse

/-- Where a node stands, which decides what it may be. -/
inductive Position
  /-- In a collection in brackets. -/
  | flow
  /-- In a sequence, or alone. -/
  | block
  /-- In a mapping, where a sequence need not be indented. -/
  | entry
  deriving DecidableEq

/-- Whether a token ends an entry of a sequence without indentation. -/
def endsEntry : Token → Bool
  | .blockEntry | .key | .value | .blockEnd => true
  | _ => false

/-- Whether a token ends an item of an indented sequence. -/
def endsItem : Token → Bool
  | .blockEntry | .blockEnd => true
  | _ => false

/-- Whether a token ends a key or value of an indented mapping. -/
def endsBlockPart : Token → Bool
  | .key | .value | .blockEnd => true
  | _ => false

/-- Whether a token ends a part of a sequence in brackets. -/
def endsFlowItem : Token → Bool
  | .flowEntry | .flowSequenceEnd => true
  | _ => false

/-- Whether a token ends a part of a mapping in braces. -/
def endsFlowEntry : Token → Bool
  | .flowEntry | .flowMappingEnd => true
  | _ => false

/-- Whether a token is the mark of a value. -/
def isValueMark : Token → Bool
  | .value => true
  | _ => false

/-- Whether a token separates the parts of a collection in brackets. -/
def isComma : Token → Bool
  | .flowEntry => true
  | _ => false

/-- Whether a token ends a block. -/
def isBlockEnd : Token → Bool
  | .blockEnd => true
  | _ => false

mutual

/-- The node at the front of the tokens. Every step of reading passes a token or is one of two
steps before the next that does. -/
def read (position : Position) : (steps : Nat) → Reader Node
  | 0 => refuse
  | steps + 1 => do
    match ← peek with
    | .alias name => pass; aliased name
    | _ =>
      let (anchor, tag) ← takeProperties
      let next ← peek
      openAnchor anchor
      let node := (← readContent position (anchor.isSome || tag.isSome) tag next steps).tied anchor
      closeAnchor anchor node
      return node

/-- The content of a node that begins with a given token. A node with an anchor or a tag may have
none. -/
def readContent (position : Position) (mayBeAbsent : Bool) (tag : Option String) (next : Token) :
    (steps : Nat) → Reader Node
  | 0 => refuse
  | steps + 1 => do
    let sequence := Node.sequence (collectionTag .sequence tag)
    let mapping := Node.mapping (collectionTag .mapping tag)
    match next, position with
    | .scalar text plain, _ => pass; return .scalar (scalarTag tag plain text) text
    | .halved text, _ => pass; return .halved (halvedTag tag) text
    | .flowSequenceStart, _ => pass; sequence <$> readFlowItems true steps
    | .flowMappingStart, _ => pass; mapping <$> readFlowEntries true steps
    | .blockSequenceStart, .block => pass; sequence <$> readItems steps
    | .blockSequenceStart, .entry => pass; sequence <$> readItems steps
    | .blockMappingStart, .block => pass; mapping <$> readEntries steps
    | .blockMappingStart, .entry => pass; mapping <$> readEntries steps
    | .blockEntry, .entry => sequence <$> readBareItems steps
    | _, _ => if mayBeAbsent then return .scalar (scalarTag tag true "") "" else refuse

/-- The node at the front of the tokens, or the absent one before a token that ends it. -/
def readUnless (ends : Token → Bool) (position : Position) : (steps : Nat) → Reader Node
  | 0 => refuse
  | steps + 1 => do
    if ends (← peek) then return absent else read position steps

/-- The value of an entry, which is absent without its mark. -/
def readValue (ends : Token → Bool) (position : Position) : (steps : Nat) → Reader Node
  | 0 => refuse
  | steps + 1 => do
    if isValueMark (← peek) then
      pass
      readUnless ends position steps
    else return absent

/-- The items of a block that is a sequence. -/
def readItems : (steps : Nat) → Reader (List Node)
  | 0 => refuse
  | steps + 1 => do
    match ← peek with
    | .blockEntry =>
      pass
      let item ← readUnless endsItem .block steps
      return item :: (← readItems steps)
    | _ => expect isBlockEnd; return []

/-- The items of a sequence that is not indented; the next token that is no hyphen ends it. -/
def readBareItems : (steps : Nat) → Reader (List Node)
  | 0 => refuse
  | steps + 1 => do
    match ← peek with
    | .blockEntry =>
      pass
      let item ← readUnless endsEntry .block steps
      return item :: (← readBareItems steps)
    | _ => return []

/-- The entries of a block that is a mapping. -/
def readEntries : (steps : Nat) → Reader (List (Node × Node))
  | 0 => refuse
  | steps + 1 => do
    match ← peek with
    | .key =>
      pass
      let name ← readUnless endsBlockPart .entry steps
      let value ← readValue endsBlockPart .entry steps
      return (name, value) :: (← readEntries steps)
    | _ => expect isBlockEnd; return []

/-- The items of a sequence in brackets, commas between them. An item with the mark of a key is a
mapping of one entry. -/
def readFlowItems (first : Bool) : (steps : Nat) → Reader (List Node)
  | 0 => refuse
  | steps + 1 => do
    match ← peek with
    | .flowSequenceEnd => pass; return []
    | _ =>
      if !first then expect isComma
      match ← peek with
      | .flowSequenceEnd => pass; return []
      | .key =>
        pass
        let name ← readUnless (fun token => isValueMark token || endsFlowItem token) .flow steps
        let value ← readValue endsFlowItem .flow steps
        return .mapping .mapping [(name, value)] :: (← readFlowItems false steps)
      | _ =>
        let item ← read .flow steps
        return item :: (← readFlowItems false steps)

/-- The entries of a mapping in braces, commas between them. An entry without the mark of a key is
a key without a value. -/
def readFlowEntries (first : Bool) : (steps : Nat) → Reader (List (Node × Node))
  | 0 => refuse
  | steps + 1 => do
    match ← peek with
    | .flowMappingEnd => pass; return []
    | _ =>
      if !first then expect isComma
      match ← peek with
      | .flowMappingEnd => pass; return []
      | .key =>
        pass
        let name ← readUnless (fun token => isValueMark token || endsFlowEntry token) .flow steps
        let value ← readValue endsFlowEntry .flow steps
        return (name, value) :: (← readFlowEntries false steps)
      | _ =>
        let name ← read .flow steps
        return (name, absent) :: (← readFlowEntries false steps)

end

/-- A version that a directive asks for; there is at most one, and the first number is one. -/
def takeVersion (seen : Bool) (major : Nat) : Reader Unit :=
  if seen || major != 1 then refuse else pass

/-- A meaning of a handle; no handle is given two. -/
def takeHandle (name meaning : String) : Reader Unit := do
  if (← get).handles.has name then refuse
  else
    modify fun reading => { reading with handles := reading.handles.set name meaning }
    pass

/-- Reads directives; `versionSeen` tells whether there was one on the version. -/
def readDirectives (versionSeen : Bool) : (steps : Nat) → Reader Unit
  | 0 => refuse
  | steps + 1 => do
    match ← peek with
    | .directive (.version major) =>
      takeVersion versionSeen major
      readDirectives true steps
    | .directive (.handle name meaning) =>
      takeHandle name meaning
      readDirectives versionSeen steps
    | .directive .reserved => pass; readDirectives versionSeen steps
    | _ => return ()

/-- The reading behind the marks that end a document. -/
def passEnds : (steps : Nat) → Reader Unit
  | 0 => return ()
  | steps + 1 => do
    match ← peek with
    | .documentEnd => pass; passEnds steps
    | _ => return ()

/-- Whether a token ends a document. -/
def endsDocument : Token → Bool
  | .directive _ | .documentStart | .documentEnd | .streamEnd => true
  | _ => false

/-- The root of a document whose beginning is marked. -/
def readMarked (steps : Nat) : Reader Node := do
  modify fun reading => { reading with handles := [] }
  readDirectives false steps
  modify fun reading => { reading with handles := Fields.overlay usualHandles reading.handles }
  match ← peek with
  | .documentStart =>
    pass
    readUnless endsDocument .block steps
  | _ => refuse

/-- The root of the only document, or none if there is no document. -/
def readOnly (steps : Nat) : Reader (Option Node) := do
  let root ← match ← peek with
    | .streamEnd => return none
    | .directive _ | .documentStart => readMarked steps
    | _ => read .block steps
  passEnds steps
  match ← peek with
  | .streamEnd => return some root
  | _ =>
    let _ ← readMarked steps
    refuse

/-- The root of the document that tokens make up, or none if there is no document. -/
def ofTokens (tokens : List Token) : Outcome (Option Node) :=
  (readOnly (4 * tokens.length + 4)).run' ⟨tokens, [], usualHandles⟩

end Node
end Stencil.Yaml
