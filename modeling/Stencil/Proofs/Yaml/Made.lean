import Stencil.Proofs.Fields
import Stencil.Proofs.Outcome
import Stencil.Yaml.Node

/-!
# What nodes are made of

The scalars of a node spell scalars among the tokens that it is read from, or nothing. Without a tag
among the tokens a scalar has the type of its form, or is a text, and collections have the usual
types (`Node.made_of_ofTokens`). Reading stops only where the tokens are no document or cannot be
read themselves.
-/

namespace Stencil.Yaml

open Outcome

variable (tokens : List Token)

/-- Whether there are tags among tokens. -/
def HasTags : Prop :=
  ∃ handle suffix, .tag handle suffix ∈ tokens

/-- The text of a scalar among tokens, as it is shown, or that of a scalar that is left out. -/
def IsSpelled (text : String) : Prop :=
  text = "" ∨ (∃ plain, .scalar text plain ∈ tokens) ∨
    ∃ halved : Text.Halved, .halved halved ∈ tokens ∧ text = halved.shown

/-- The form of a scalar that is not quoted and has no tag. -/
def IsPlain (tag : Tag) (text : String) : Prop :=
  tag = .ofPlainText text ∧ (text = "" ∨ .scalar text true ∈ tokens)

namespace Node

/-- A node whose parts come from tokens. -/
inductive IsMade : Node → Prop
  | scalar {tag : Tag} {text : String} (spelled : IsSpelled tokens text)
    (form : tag = .text ∨ IsPlain tokens tag text ∨ HasTags tokens) : IsMade (.scalar tag text)
  | halved {tag : Tag} {text : Text.Halved} (spelled : .halved text ∈ tokens)
    (form : tag = .text ∨ HasTags tokens) : IsMade (.halved tag text)
  | sequence {tag : Tag} {items : List Node} (form : tag = .sequence ∨ HasTags tokens)
    (made : ∀ item ∈ items, IsMade item) : IsMade (.sequence tag items)
  | mapping {tag : Tag} {entries : List (Node × Node)} (form : tag = .mapping ∨ HasTags tokens)
    (names : ∀ entry ∈ entries, IsMade entry.1) (nodes : ∀ entry ∈ entries, IsMade entry.2) :
    IsMade (.mapping tag entries)
  | within {anchor : String} : IsMade (.within anchor)

/-- A state of reading in which the tokens that are left and the nodes that are known come from
tokens. -/
structure Reading.IsMade (reading : Reading) : Prop where
  left : ∀ token ∈ reading.tokens, token ∈ tokens
  known : ∀ name node, (name, some node) ∈ reading.anchors → Node.IsMade tokens node

/-- The faults with which reading nodes from tokens may end. -/
def Stops (fault : Fault) : Prop :=
  fault = .notYaml ∨ .broken fault ∈ tokens

variable {α β : Type}

/-- A reader that yields results of some kind. -/
def Yields (good : α → Prop) (reader : Reader α) : Prop :=
  ∀ reading : Reading, reading.IsMade tokens →
    Ends (fun found => good found.1 ∧ found.2.IsMade tokens) (Stops tokens) (reader reading)

variable {tokens}

section Steps

variable {good : α → Prop} {final : β → Prop}

theorem Yields.pure {result : α} (holds : good result) : Yields tokens good (pure result) :=
  fun _ made => ⟨holds, made⟩

theorem Yields.bind {reader : Reader α} {next : α → Reader β} (first : Yields tokens good reader)
    (goesOn : ∀ result, good result → Yields tokens final (next result)) :
    Yields tokens final (reader >>= next) :=
  fun reading made => Ends.bind (first reading made) fun (result, after) held =>
    goesOn result held.1 after held.2

theorem Yields.map {reader : Reader α} {image : α → β} (first : Yields tokens good reader)
    (images : ∀ result, good result → final (image result)) :
    Yields tokens final (image <$> reader) := by
  rw [map_eq_pure_bind]
  exact first.bind fun result holds => .pure (images result holds)

/-- A reader that goes on alike with a result of another one and without. -/
theorem Yields.branch {test : Prop} [Decidable test] {reader : Reader α} {next : α → Reader β}
    (other : α) (first : Yields tokens (fun _ => True) reader)
    (goesOn : ∀ result, Yields tokens final (next result)) :
    Yields tokens final (if test then reader >>= next else next other) := by
  split
  · exact first.bind fun result _ => goesOn result
  · exact goesOn other

/-- A refusal yields nothing. -/
theorem yields_refuse : Yields tokens good (refuse : Reader α) :=
  fun _ _ => .inl rfl

/-- The state of a reading comes from the tokens. -/
theorem yields_get : Yields tokens (Reading.IsMade tokens) (get : Reader Reading) :=
  fun _ made => ⟨made, made⟩

/-- A change of the state yields if it keeps the state made of the tokens. -/
theorem yields_modify {change : Reading → Reading}
    (keeps : ∀ reading : Reading, reading.IsMade tokens → (change reading).IsMade tokens) :
    Yields tokens (fun _ => True) (modify change : Reader PUnit) :=
  fun reading made => ⟨trivial, keeps reading made⟩

/-- The next token is one of the tokens. -/
theorem yields_peek : Yields tokens (· ∈ tokens) peek := by
  refine yields_get.bind fun reading made => ?_
  split
  · exact yields_refuse
  · rename_i fault rest left
    have member := made.left _ (left ▸ List.mem_cons_self)
    exact fun _ _ => .inr member
  · rename_i token rest left
    exact .pure (made.left _ (left ▸ List.mem_cons_self))

theorem yields_pass : Yields tokens (fun _ => True) pass :=
  yields_modify fun _ made =>
    ⟨fun token member => made.left token (List.mem_of_mem_tail member), made.known⟩

theorem yields_expect {test : Token → Bool} : Yields tokens (fun _ => True) (expect test) := by
  refine yields_peek.bind fun token _ => ?_
  split
  · exact yields_pass
  · exact yields_refuse

end Steps

/-- The name of a tag is looked up without reading. -/
theorem yields_tagName {handle : Option String} {suffix : String} :
    Yields tokens (fun _ => True) (tagName handle suffix) := by
  unfold tagName
  split
  · exact .pure trivial
  · refine yields_get.bind fun reading _ => ?_
    split
    · exact .pure trivial
    · exact yields_refuse

theorem yields_takeAnchor : Yields tokens (fun _ => True) takeAnchor := by
  refine yields_peek.bind fun token _ => ?_
  split
  · exact yields_pass.bind fun _ _ => .pure trivial
  · exact .pure trivial

/-- A tag is taken only from tokens that have tags. -/
theorem yields_takeTag : Yields tokens (fun tag => tag.isSome → HasTags tokens) takeTag := by
  refine yields_peek.bind fun token member => ?_
  split
  · exact yields_pass.bind fun _ _ => .pure fun _ => ⟨_, _, member⟩
  · exact .pure nofun

/-- The properties of a node have a tag only if the tokens do. -/
theorem yields_takeProperties :
    Yields tokens (fun found => found.2.isSome → HasTags tokens) takeProperties := by
  refine yields_takeAnchor.bind fun first _ => yields_takeTag.bind fun tag typed => ?_
  refine .branch none yields_takeAnchor fun second => ?_
  dsimp only
  split
  · refine Yields.bind (yields_tagName.map fun _ _ => trivial) fun name (_ : True) => ?_
    exact .pure fun _ => typed rfl
  · exact .pure nofun

/-- The type of a collection is the usual one if it has no tag. -/
theorem collectionTag_eq {usual : Tag} {name : Option String}
    (typed : name.isSome → HasTags tokens) :
    collectionTag usual name = usual ∨ HasTags tokens := by
  cases name with
  | none => exact .inl rfl
  | some name => exact .inr (typed rfl)

/-- A scalar without a tag is a text if it is quoted and has the type of its form if not. -/
theorem scalarTag_form {name : Option String} {plain : Bool} {text : String}
    (typed : name.isSome → HasTags tokens)
    (spelled : plain = true → text = "" ∨ .scalar text true ∈ tokens) :
    scalarTag name plain text = .text ∨ IsPlain tokens (scalarTag name plain text) text ∨
      HasTags tokens := by
  cases name with
  | none =>
    cases plain with
    | true => exact .inr (.inl ⟨rfl, spelled rfl⟩)
    | false => exact .inl rfl
  | some name => exact .inr (.inr (typed rfl))

/-- A node that is left out is made of nothing. -/
theorem isMade_absent : IsMade tokens absent :=
  .scalar (.inl rfl) (.inr (.inl ⟨rfl, .inl rfl⟩))

/-- A halved scalar without a tag is a text. -/
theorem halvedTag_form {name : Option String} (typed : name.isSome → HasTags tokens) :
    halvedTag name = .text ∨ HasTags tokens := by
  cases name with
  | none => exact .inl rfl
  | some name => exact .inr (typed rfl)

/-- An alias stands for a node that was made before. -/
theorem yields_aliased {name : String} : Yields tokens (IsMade tokens) (aliased name) := by
  refine yields_get.bind fun reading made => ?_
  split
  · rename_i node known
    exact .pure (made.known name node (Fields.mem_of_get? known))
  · exact .pure .within
  · exact yields_refuse

section Tied

variable {anchor : String} {entries before : List (Node × Node)} {node : Node}

/-- A mapping of entries that come from tokens comes from them. -/
theorem IsMade.ofEntries {tag : Tag} (form : tag = .mapping ∨ HasTags tokens)
    (made : ∀ entry ∈ entries, IsMade tokens entry.1 ∧ IsMade tokens entry.2) :
    IsMade tokens (.mapping tag entries) :=
  .mapping form (fun entry inside => (made entry inside).1)
    fun entry inside => (made entry inside).2

/-- A node in which an anchor stands for some entries is made of the same tokens. -/
theorem IsMade.standFor (made : IsMade tokens node)
    (others : ∀ entry ∈ entries, IsMade tokens entry.1 ∧ IsMade tokens entry.2) :
    IsMade tokens (node.standFor anchor entries) := by
  unfold Node.standFor
  split
  · split
    · exact .ofEntries (.inl rfl) others
    · exact made
  · exact made

/-- A source that is tied to its anchor is made of the same tokens. -/
theorem IsMade.tieSource (made : IsMade tokens node)
    (others : ∀ entry ∈ entries, IsMade tokens entry.1 ∧ IsMade tokens entry.2) :
    IsMade tokens (node.tieSource anchor entries) := by
  cases made with
  | sequence form items =>
    refine .sequence form fun item member => ?_
    obtain ⟨old, listed, rfl⟩ := List.mem_map.mp member
    exact (items old listed).standFor others
  | scalar spelled form => exact .scalar spelled form
  | halved spelled form => exact .halved spelled form
  | mapping form names nodes => exact .mapping form names nodes
  | within => exact IsMade.within.standFor others

/-- Merging a mapping into itself adds nothing that does not come from the tokens. -/
theorem made_tieEntries
    (first : ∀ entry ∈ before, IsMade tokens entry.1 ∧ IsMade tokens entry.2)
    (made : ∀ entry ∈ entries, IsMade tokens entry.1 ∧ IsMade tokens entry.2) :
    ∀ entry ∈ tieEntries anchor before entries, IsMade tokens entry.1 ∧ IsMade tokens entry.2 := by
  induction entries generalizing before with
  | nil => exact List.forall_mem_nil _
  | cons entry rest ih =>
    obtain ⟨here, others⟩ := List.forall_mem_cons.mp made
    rw [tieEntries]
    split
    · have behind := ih first others
      refine List.forall_mem_cons.mpr ⟨⟨here.1, here.2.tieSource ?_⟩, behind⟩
      exact List.forall_mem_append.mpr ⟨first, behind⟩
    · refine List.forall_mem_cons.mpr ⟨here, ih ?_ others⟩
      exact List.forall_mem_append.mpr ⟨first, List.forall_mem_singleton.mpr here⟩

/-- A node that is tied to its anchor is made of the same tokens. -/
theorem IsMade.tied {anchor : Option String} (made : IsMade tokens node) :
    IsMade tokens (node.tied anchor) := by
  unfold Node.tied
  split
  · cases made with
    | mapping form names nodes =>
      refine .ofEntries form (made_tieEntries (List.forall_mem_nil _) fun entry inside => ?_)
      exact ⟨names entry inside, nodes entry inside⟩
  · exact made

end Tied

/-- A state of reading in which one more name is known, of a node that comes from the tokens or is
still to be read. -/
theorem Reading.IsMade.set {reading : Reading} {name : String} {known : Option Node}
    (made : reading.IsMade tokens) (added : ∀ node, known = some node → Node.IsMade tokens node) :
    Reading.IsMade tokens { reading with anchors := reading.anchors.set name known } := by
  refine ⟨made.left, fun other node member => ?_⟩
  rcases Fields.mem_of_mem_set member with same | before
  · exact added node (Prod.mk.inj same).2.symm
  · exact made.known other node before

theorem yields_openAnchor {anchor : Option String} :
    Yields tokens (fun _ => True) (openAnchor anchor) := by
  unfold openAnchor
  split
  · exact .pure trivial
  · refine yields_get.bind fun reading _ => ?_
    split
    · exact yields_refuse
    · exact yields_modify fun _ made => made.set nofun

theorem yields_closeAnchor {anchor : Option String} {node : Node} (read : IsMade tokens node) :
    Yields tokens (fun _ => True) (closeAnchor anchor node) := by
  unfold closeAnchor
  split
  · exact .pure trivial
  · exact yields_modify fun _ made => made.set fun _ same => Option.some.inj same ▸ read

variable (tokens) in
/-- What readers of the parts of a document yield within a number of steps. -/
structure ReadsMade (steps : Nat) : Prop where
  node : ∀ position, Yields tokens (IsMade tokens) (read position steps)
  content : ∀ position mayBeAbsent tag next, (tag.isSome → HasTags tokens) → next ∈ tokens →
    Yields tokens (IsMade tokens) (readContent position mayBeAbsent tag next steps)
  orAbsent : ∀ ends position, Yields tokens (IsMade tokens) (readUnless ends position steps)
  value : ∀ ends position, Yields tokens (IsMade tokens) (readValue ends position steps)
  items : Yields tokens (∀ item ∈ ·, IsMade tokens item) (readItems steps)
  bareItems : Yields tokens (∀ item ∈ ·, IsMade tokens item) (readBareItems steps)
  entries : Yields tokens (∀ entry ∈ ·, IsMade tokens entry.1 ∧ IsMade tokens entry.2)
    (readEntries steps)
  flowItems : ∀ first, Yields tokens (∀ item ∈ ·, IsMade tokens item) (readFlowItems first steps)
  flowEntries : ∀ first, Yields tokens (∀ entry ∈ ·, IsMade tokens entry.1 ∧ IsMade tokens entry.2)
    (readFlowEntries first steps)

namespace ReadsMade

variable {steps : Nat} (below : ReadsMade tokens steps)

theorem zero : ReadsMade tokens 0 where
  node _ := yields_refuse
  content _ _ _ _ _ _ := yields_refuse
  orAbsent _ _ := yields_refuse
  value _ _ := yields_refuse
  items := yields_refuse
  bareItems := yields_refuse
  entries := yields_refuse
  flowItems _ := yields_refuse
  flowEntries _ := yields_refuse

include below

/-- A node is made of the tokens if what is below it is. -/
theorem node_succ (position : Position) :
    Yields tokens (IsMade tokens) (read position (steps + 1)) := by
  rw [read]
  refine yields_peek.bind fun first _ => ?_
  split
  · exact yields_pass.bind fun _ _ => yields_aliased
  · refine yields_takeProperties.bind fun (anchor, tag) typed => ?_
    refine yields_peek.bind fun next member => ?_
    refine yields_openAnchor.bind fun _ _ => ?_
    refine (below.content position _ tag next typed member).bind fun node made => ?_
    exact (yields_closeAnchor made.tied).bind fun _ _ => .pure made.tied

/-- The content of a node is made of the tokens if what is below it is. -/
theorem content_succ (position : Position) (mayBeAbsent : Bool) (tag : Option String) (next : Token)
    (typed : tag.isSome → HasTags tokens) (member : next ∈ tokens) :
    Yields tokens (IsMade tokens) (readContent position mayBeAbsent tag next (steps + 1)) := by
  have sequence (items : List Node) (made : ∀ item ∈ items, IsMade tokens item) :
      IsMade tokens (.sequence (collectionTag .sequence tag) items) :=
    .sequence (collectionTag_eq typed) made
  have mapping (entries : List (Node × Node))
      (made : ∀ entry ∈ entries, IsMade tokens entry.1 ∧ IsMade tokens entry.2) :
      IsMade tokens (.mapping (collectionTag .mapping tag) entries) :=
    .ofEntries (collectionTag_eq typed) made
  unfold readContent
  split
  · rename_i text plain
    refine yields_pass.bind fun _ _ => .pure (.scalar (.inr (.inl ⟨plain, member⟩)) ?_)
    exact scalarTag_form typed fun isPlain => .inr (isPlain ▸ member)
  · exact yields_pass.bind fun _ _ => .pure (.halved member (halvedTag_form typed))
  · exact yields_pass.bind fun _ _ => (below.flowItems true).map sequence
  · exact yields_pass.bind fun _ _ => (below.flowEntries true).map mapping
  · exact yields_pass.bind fun _ _ => below.items.map sequence
  · exact yields_pass.bind fun _ _ => below.items.map sequence
  · exact yields_pass.bind fun _ _ => below.entries.map mapping
  · exact yields_pass.bind fun _ _ => below.entries.map mapping
  · exact below.bareItems.map sequence
  · split
    · exact .pure (.scalar (.inl rfl) (scalarTag_form typed fun _ => .inl rfl))
    · exact yields_refuse

/-- A node that may be left out is made of the tokens if it is there. -/
theorem orAbsent_succ (ends : Token → Bool) (position : Position) :
    Yields tokens (IsMade tokens) (readUnless ends position (steps + 1)) := by
  rw [readUnless]
  refine yields_peek.bind fun token _ => ?_
  split
  · exact .pure isMade_absent
  · exact below.node position

/-- A value is made of the tokens if what is below it is. -/
theorem value_succ (ends : Token → Bool) (position : Position) :
    Yields tokens (IsMade tokens) (readValue ends position (steps + 1)) := by
  rw [readValue]
  refine yields_peek.bind fun token _ => ?_
  split
  · exact yields_pass.bind fun _ _ => below.orAbsent ends position
  · exact .pure isMade_absent

/-- The items of a sequence are made of the tokens. -/
theorem items_succ : Yields tokens (∀ item ∈ ·, IsMade tokens item) (readItems (steps + 1)) := by
  rw [readItems]
  refine yields_peek.bind fun token _ => ?_
  split
  · refine yields_pass.bind fun _ _ => (below.orAbsent endsItem .block).bind fun item made => ?_
    exact below.items.bind fun rest others => .pure (List.forall_mem_cons.mpr ⟨made, others⟩)
  · exact yields_expect.bind fun _ _ => .pure nofun

/-- The items of a sequence without indentation are made of the tokens. -/
theorem bareItems_succ :
    Yields tokens (∀ item ∈ ·, IsMade tokens item) (readBareItems (steps + 1)) := by
  rw [readBareItems]
  refine yields_peek.bind fun token _ => ?_
  split
  · refine yields_pass.bind fun _ _ => (below.orAbsent endsEntry .block).bind fun item made => ?_
    exact below.bareItems.bind fun rest others => .pure (List.forall_mem_cons.mpr ⟨made, others⟩)
  · exact .pure nofun

/-- The entries of a mapping are made of the tokens. -/
theorem entries_succ : Yields tokens (∀ entry ∈ ·, IsMade tokens entry.1 ∧ IsMade tokens entry.2)
    (readEntries (steps + 1)) := by
  rw [readEntries]
  refine yields_peek.bind fun token _ => ?_
  split
  · refine yields_pass.bind fun _ _ => (below.orAbsent _ .entry).bind fun name nameMade => ?_
    refine (below.value _ .entry).bind fun node made => ?_
    exact below.entries.bind fun rest others =>
      .pure (List.forall_mem_cons.mpr ⟨⟨nameMade, made⟩, others⟩)
  · exact yields_expect.bind fun _ _ => .pure nofun

/-- The items in brackets are made of the tokens. -/
theorem flowItems_succ (first : Bool) :
    Yields tokens (∀ item ∈ ·, IsMade tokens item) (readFlowItems first (steps + 1)) := by
  rw [readFlowItems]
  refine yields_peek.bind fun token _ => ?_
  split
  · exact yields_pass.bind fun _ _ => .pure nofun
  · refine .branch () yields_expect fun _ => yields_peek.bind fun token _ => ?_
    split
    · exact yields_pass.bind fun _ _ => .pure nofun
    · refine yields_pass.bind fun _ _ => (below.orAbsent _ .flow).bind fun name nameMade => ?_
      refine (below.value _ .flow).bind fun node made => ?_
      have pair : IsMade tokens (.mapping .mapping [(name, node)]) :=
        .mapping (.inl rfl) (List.forall_mem_singleton.mpr nameMade)
          (List.forall_mem_singleton.mpr made)
      exact (below.flowItems false).bind fun rest others =>
        .pure (List.forall_mem_cons.mpr ⟨pair, others⟩)
    · refine (below.node .flow).bind fun item made => ?_
      exact (below.flowItems false).bind fun rest others =>
        .pure (List.forall_mem_cons.mpr ⟨made, others⟩)

/-- The entries in braces are made of the tokens. -/
theorem flowEntries_succ (first : Bool) :
    Yields tokens (∀ entry ∈ ·, IsMade tokens entry.1 ∧ IsMade tokens entry.2)
      (readFlowEntries first (steps + 1)) := by
  rw [readFlowEntries]
  refine yields_peek.bind fun token _ => ?_
  split
  · exact yields_pass.bind fun _ _ => .pure nofun
  · refine .branch () yields_expect fun _ => yields_peek.bind fun token _ => ?_
    split
    · exact yields_pass.bind fun _ _ => .pure nofun
    · refine yields_pass.bind fun _ _ => (below.orAbsent _ .flow).bind fun name nameMade => ?_
      refine (below.value _ .flow).bind fun node made => ?_
      exact (below.flowEntries false).bind fun rest others =>
        .pure (List.forall_mem_cons.mpr ⟨⟨nameMade, made⟩, others⟩)
    · refine (below.node .flow).bind fun name made => ?_
      exact (below.flowEntries false).bind fun rest others =>
        .pure (List.forall_mem_cons.mpr ⟨⟨made, isMade_absent⟩, others⟩)

/-- One more step of reading yields what is made of the tokens. -/
theorem succ : ReadsMade tokens (steps + 1) where
  node := below.node_succ
  content := below.content_succ
  orAbsent := below.orAbsent_succ
  value := below.value_succ
  items := below.items_succ
  bareItems := below.bareItems_succ
  entries := below.entries_succ
  flowItems := below.flowItems_succ
  flowEntries := below.flowEntries_succ

end ReadsMade

end Node
end Stencil.Yaml
