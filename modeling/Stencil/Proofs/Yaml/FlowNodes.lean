import Stencil.Proofs.Outcome
import Stencil.Yaml.Node

/-!
# Nodes in brackets

How the nodes of collections in brackets are read from tokens without anchors and tags: one lemma
for each way in which a reader goes on. The state of reading differs afterwards only in the tokens
that are left.
-/

namespace Stencil.Yaml.Node

open Outcome

variable {α β : Type} {tokens rest : List Token} {anchors : Fields (Option Node)}
  {handles : Fields String} {steps : Nat}

/-- A reader takes tokens off the front and yields a result. -/
def Takes (reader : Reader α) (tokens rest : List Token) (result : α) : Prop :=
  ∀ anchors handles, reader ⟨tokens, anchors, handles⟩ = .ok (result, ⟨rest, anchors, handles⟩)

/-- A token that begins a node without properties. -/
def beginsNode : Token → Bool
  | .scalar _ _ | .flowSequenceStart | .flowMappingStart => true
  | _ => false

namespace Takes

variable {reader : Reader α} {next : α → Reader β} {between : List Token} {result : α} {last : β}

theorem pure (tokens : List Token) (result : α) : Takes (pure result) tokens tokens result :=
  fun _ _ => rfl

theorem bind (first : Takes reader tokens between result)
    (goesOn : Takes (next result) between rest last) :
    Takes (reader >>= next) tokens rest last := by
  intro anchors handles
  change reader _ >>= _ = _
  rw [first anchors handles]
  exact goesOn anchors handles

theorem map {image : α → β} (taken : Takes reader tokens rest result) :
    Takes (image <$> reader) tokens rest (image result) := by
  rw [map_eq_pure_bind]
  exact taken.bind (.pure rest (image result))

end Takes

/-- Whether a token is where the tokens break off. -/
def isBroken : Token → Bool
  | .broken _ => true
  | _ => false

/-- A look at the next token leaves it there. -/
theorem takes_peek (token : Token) (whole : isBroken token = false) :
    Takes peek (token :: rest) (token :: rest) token := by
  intro anchors handles
  cases token with
  | broken fault => cases whole
  | _ => rfl

/-- The next token can be passed. -/
theorem takes_pass {token : Token} : Takes pass (token :: rest) rest PUnit.unit :=
  fun _ _ => rfl

/-- A token that is expected is passed. -/
theorem takes_expect {test : Token → Bool} (token : Token) (whole : isBroken token = false)
    (passes : test token = true) : Takes (expect test) (token :: rest) rest PUnit.unit := by
  apply (takes_peek token whole).bind
  rw [if_pos passes]
  exact takes_pass

/-- A token that begins a node is not broken. -/
theorem isBroken_of_beginsNode {token : Token} (begins : beginsNode token = true) :
    isBroken token = false := by
  cases token with
  | broken fault => cases begins
  | _ => rfl

/-- A node without properties is its content. -/
theorem takes_read {token : Token} {position : Position} {node : Node}
    (begins : beginsNode token = true)
    (content : Takes (readContent position false none token steps) (token :: tokens) rest node) :
    Takes (read position (steps + 1)) (token :: tokens) rest node := by
  have seen : Takes peek (token :: tokens) (token :: tokens) token :=
    takes_peek token (isBroken_of_beginsNode begins)
  have noAnchor : Takes takeAnchor (token :: tokens) (token :: tokens) none := by
    apply seen.bind
    cases token with
    | anchor name => cases begins
    | _ => exact .pure _ none
  have noTag : Takes takeTag (token :: tokens) (token :: tokens) none := by
    apply seen.bind
    cases token with
    | tag handle suffix => cases begins
    | _ => exact .pure _ none
  have plain : Takes takeProperties (token :: tokens) (token :: tokens) (none, none) := by
    apply noAnchor.bind
    apply noTag.bind
    exact .pure _ _
  rw [read]
  apply seen.bind
  split
  · cases begins
  · apply plain.bind
    apply seen.bind
    apply Takes.bind (.pure _ PUnit.unit)
    apply content.bind
    apply Takes.bind (.pure _ PUnit.unit)
    exact .pure _ node

/-- A scalar without properties. -/
theorem takes_scalar {position : Position} (text : String) (plain : Bool) :
    Takes (read position (steps + 2)) (.scalar text plain :: rest) rest
      (.scalar (scalarTag none plain text) text) := by
  apply takes_read rfl
  rw [readContent]
  apply takes_pass.bind
  exact .pure rest _

/-- A sequence in brackets is read as its items are. -/
theorem takes_sequence {position : Position} {items : List Node}
    (inside : Takes (readFlowItems true steps) tokens rest items) :
    Takes (read position (steps + 2)) (.flowSequenceStart :: tokens) rest
      (.sequence .sequence items) := by
  apply takes_read rfl
  rw [readContent]
  exact takes_pass.bind inside.map

/-- A mapping in braces is read as its entries are. -/
theorem takes_mapping {position : Position} {entries : List (Node × Node)}
    (inside : Takes (readFlowEntries true steps) tokens rest entries) :
    Takes (read position (steps + 2)) (.flowMappingStart :: tokens) rest
      (.mapping .mapping entries) := by
  apply takes_read rfl
  rw [readContent]
  exact takes_pass.bind inside.map

theorem takes_flowItems_nil (first : Bool) :
    Takes (readFlowItems first (steps + 1)) (.flowSequenceEnd :: rest) rest [] := by
  rw [readFlowItems]
  apply (takes_peek .flowSequenceEnd rfl).bind
  exact takes_pass.bind (.pure rest [])

/-- The tokens of a part of a collection, with the comma in front of all parts but the first. -/
def withComma (first : Bool) (tokens : List Token) : List Token :=
  (if first then [] else [.flowEntry]) ++ tokens

/-- In front of a part there is its first token or a comma. -/
theorem exists_peek_withComma (first : Bool) {token : Token} (whole : isBroken token = false) :
    ∃ mark, (mark = token ∨ mark = .flowEntry) ∧
      Takes peek (withComma first (token :: tokens)) (withComma first (token :: tokens)) mark := by
  cases first with
  | true => exact ⟨token, .inl rfl, takes_peek token whole⟩
  | false => exact ⟨.flowEntry, .inr rfl, takes_peek .flowEntry rfl⟩

/-- The comma is passed where there is one. -/
theorem takes_withComma {first : Bool} {next : PUnit → Reader α} {result : α}
    (goesOn : Takes (next PUnit.unit) tokens rest result) :
    Takes (if (!first) = true then expect isComma >>= next else next PUnit.unit)
      (withComma first tokens) rest result := by
  cases first with
  | true => exact goesOn
  | false => exact (takes_expect .flowEntry rfl rfl).bind goesOn

/-- An item of a sequence in brackets and those behind it. -/
theorem takes_flowItems_cons {token : Token} {between : List Token} {item : Node}
    {items : List Node} (first : Bool) (begins : beginsNode token = true)
    (here : Takes (read .flow steps) (token :: tokens) between item)
    (behind : Takes (readFlowItems false steps) between rest items) :
    Takes (readFlowItems first (steps + 1)) (withComma first (token :: tokens)) rest
      (item :: items) := by
  have whole := isBroken_of_beginsNode begins
  obtain ⟨mark, front, seen⟩ := @exists_peek_withComma tokens first token whole
  rw [readFlowItems]
  apply seen.bind
  split
  · rcases front with rfl | same
    · cases begins
    · cases same
  · apply takes_withComma
    apply (takes_peek token whole).bind
    split
    · cases begins
    · cases begins
    · apply here.bind
      exact behind.bind (.pure rest _)

theorem takes_flowEntries_nil (first : Bool) :
    Takes (readFlowEntries first (steps + 1)) (.flowMappingEnd :: rest) rest [] := by
  rw [readFlowEntries]
  apply (takes_peek .flowMappingEnd rfl).bind
  exact takes_pass.bind (.pure rest [])

/-- A node that is not left out. -/
theorem takes_readUnless {token : Token} {ends : Token → Bool} {position : Position} {node : Node}
    (begins : beginsNode token = true) (stays : ends token = false)
    (here : Takes (read position steps) (token :: tokens) rest node) :
    Takes (readUnless ends position (steps + 1)) (token :: tokens) rest node := by
  rw [readUnless]
  apply (takes_peek token (isBroken_of_beginsNode begins)).bind
  rw [stays]
  exact here

/-- A value behind its mark. -/
theorem takes_readValue {token : Token} {ends : Token → Bool} {position : Position} {node : Node}
    (begins : beginsNode token = true) (stays : ends token = false)
    (here : Takes (read position steps) (token :: tokens) rest node) :
    Takes (readValue ends position (steps + 2)) (.value :: token :: tokens) rest node := by
  rw [readValue]
  apply (takes_peek .value rfl).bind
  exact takes_pass.bind (takes_readUnless begins stays here)

/-- An entry of a mapping in braces, its name in quotes, and those behind it. -/
theorem takes_flowEntries_cons {token : Token} {between : List Token} {name : String} {item : Node}
    {entries : List (Node × Node)} (first : Bool) (begins : beginsNode token = true)
    (here : Takes (read .flow steps) (token :: tokens) between item)
    (behind : Takes (readFlowEntries false (steps + 2)) between rest entries) (enough : 1 ≤ steps) :
    Takes (readFlowEntries first (steps + 3))
      (withComma first (.key :: .scalar name false :: .value :: token :: tokens)) rest
      ((.scalar .text name, item) :: entries) := by
  obtain ⟨fewer, same⟩ : ∃ fewer, steps + 1 = fewer + 2 := ⟨steps - 1, by omega⟩
  have named : Takes (readUnless (fun token => isValueMark token || endsFlowEntry token) .flow
      (steps + 2)) (.scalar name false :: .value :: token :: tokens) (.value :: token :: tokens)
      (.scalar .text name) := by
    refine takes_readUnless rfl rfl ?_
    rw [same]
    exact takes_scalar name false
  have stays : endsFlowEntry token = false := by
    cases token <;> first | rfl | cases begins
  obtain ⟨mark, front, seen⟩ := @exists_peek_withComma
    (.scalar name false :: .value :: token :: tokens) first .key rfl
  rw [readFlowEntries]
  apply seen.bind
  split
  · rcases front with same | same <;> cases same
  · apply takes_withComma
    apply (takes_peek .key rfl).bind
    apply takes_pass.bind
    apply named.bind
    apply (takes_readValue begins stays here).bind
    exact behind.bind (.pure rest _)

end Stencil.Yaml.Node
