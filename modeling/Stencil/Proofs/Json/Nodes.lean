import Stencil.Proofs.Json.Tokens
import Stencil.Proofs.Yaml.FlowNodes
import Stencil.Proofs.Yaml.Numeral
import Stencil.Yaml.Document

/-!
# Values of a written document

The tokens of a written value make up a node, and if the value is portable the node has the value
that was written (`Document.read_text`).
-/

namespace Stencil.Json

open Yaml Yaml.Node

mutual

/-- The node of a value. -/
def Written.node : Written → Node
  | .null => .scalar .null "null"
  | .bool b => .scalar .bool (if b then "true" else "false")
  | .number number =>
    .scalar (.ofPlainText (String.ofList number.chars)) (String.ofList number.chars)
  | .text pieces => .scalar .text (textOf pieces)
  | .array _ items => .sequence .sequence items.nodes
  | .object _ members => .mapping .mapping members.nodes

/-- The nodes of the items of an array. -/
def WrittenItems.nodes : WrittenItems → List Node
  | .nil => []
  | .cons _ item _ rest => item.node :: rest.nodes

/-- The nodes of the names and values of an object. -/
def WrittenMembers.nodes : WrittenMembers → List (Node × Node)
  | .nil => []
  | .cons _ name _ _ item _ rest => (.scalar .text (textOf name), item.node) :: rest.nodes

end

/-- The tokens of a written value begin a node. -/
theorem exists_tokens (written : Written) :
    ∃ token others, written.tokens = token :: others ∧ beginsNode token = true := by
  cases written <;> exact ⟨_, _, rfl, rfl⟩

theorem length_tokens_pos (written : Written) : 0 < written.tokens.length := by
  obtain ⟨token, others, same, -⟩ := exists_tokens written
  rw [same]
  exact Nat.succ_pos _

mutual

/-- The tokens of a value are read as its node. -/
theorem takes_written (written : Written) {position : Position} {steps : Nat}
    (rest : List Yaml.Token) (enough : 4 * written.tokens.length ≤ steps) :
    Takes (read position steps) (written.tokens ++ rest) rest written.node := by
  obtain ⟨fewer, rfl⟩ : ∃ fewer, steps = fewer + 2 := by
    have some := length_tokens_pos written
    exact ⟨steps - 2, by omega⟩
  cases written with
  | null => exact takes_scalar "null" true
  | bool b => cases b <;> exact takes_scalar _ true
  | number number => exact takes_scalar (String.ofList number.chars) true
  | text pieces => exact takes_scalar (textOf pieces) false
  | array gap items =>
    simp only [Written.tokens, List.length_append, List.length_cons, List.length_nil] at enough
    have inside := takes_items items true rest (show 4 * _ + 1 ≤ fewer by omega)
    rw [Written.tokens, List.append_assoc, List.cons_append]
    exact takes_sequence inside
  | object gap members =>
    simp only [Written.tokens, List.length_append, List.length_cons, List.length_nil] at enough
    have inside := takes_members members true rest (show 4 * _ + 1 ≤ fewer by omega)
    rw [Written.tokens, List.append_assoc, List.cons_append]
    exact takes_mapping inside

/-- The items of an array are read as their nodes. -/
theorem takes_items (items : WrittenItems) (first : Bool) {steps : Nat} (rest : List Yaml.Token)
    (enough : 4 * (items.tokens first).length + 1 ≤ steps) :
    Takes (readFlowItems first steps) (items.tokens first ++ .flowSequenceEnd :: rest) rest
      items.nodes := by
  obtain ⟨fewer, rfl⟩ : ∃ fewer, steps = fewer + 1 := ⟨steps - 1, by omega⟩
  cases items with
  | nil => exact takes_flowItems_nil first
  | cons before item after others =>
    simp only [WrittenItems.tokens, List.length_append] at enough
    have some := length_tokens_pos item
    obtain ⟨token, further, tokens, begins⟩ := exists_tokens item
    have here := @takes_written item .flow fewer (others.tokens false ++ .flowSequenceEnd :: rest)
      (by omega)
    have behind := @takes_items others false fewer rest (by omega)
    rw [tokens] at here
    rw [WrittenItems.tokens, tokens, List.append_assoc, List.append_assoc]
    exact takes_flowItems_cons first begins here behind

/-- The members of an object are read as the nodes of their names and values. -/
theorem takes_members (members : WrittenMembers) (first : Bool) {steps : Nat}
    (rest : List Yaml.Token) (enough : 4 * (members.tokens first).length + 1 ≤ steps) :
    Takes (readFlowEntries first steps) (members.tokens first ++ .flowMappingEnd :: rest) rest
      members.nodes := by
  cases members with
  | nil =>
    obtain ⟨fewer, rfl⟩ : ∃ fewer, steps = fewer + 1 := ⟨steps - 1, by omega⟩
    exact takes_flowEntries_nil first
  | cons before name beforeColon afterColon item after others =>
    simp only [WrittenMembers.tokens, List.length_append, List.length_cons] at enough
    have some := length_tokens_pos item
    obtain ⟨fewer, rfl⟩ : ∃ fewer, steps = fewer + 3 := ⟨steps - 3, by omega⟩
    obtain ⟨token, further, tokens, begins⟩ := exists_tokens item
    have here := @takes_written item .flow fewer (others.tokens false ++ .flowMappingEnd :: rest)
      (by omega)
    have behind := @takes_members others false (fewer + 2) rest (by omega)
    rw [tokens] at here
    have text : (commaTokens first ++ [.key, .scalar (textOf name) false, .value] ++ item.tokens ++
        others.tokens false) ++ .flowMappingEnd :: rest = commaTokens first ++ .key ::
          .scalar (textOf name) false :: .value :: token :: (further ++
            (others.tokens false ++ .flowMappingEnd :: rest)) := by
      simp [tokens]
    rw [WrittenMembers.tokens, text]
    exact takes_flowEntries_cons first begins here behind (by omega)

end

/-- The node of a document is that of the tokens of its value. -/
theorem ofTokens_written (written : Written) :
    Node.ofTokens (written.tokens ++ [.streamEnd]) = .ok (some written.node) := by
  obtain ⟨token, others, tokens, begins⟩ := exists_tokens written
  have whole : Takes (readOnly (4 * (written.tokens ++ [Yaml.Token.streamEnd]).length + 4))
      (written.tokens ++ [.streamEnd]) [.streamEnd] (some written.node) := by
    have here := @takes_written written .block
      (4 * (written.tokens ++ [Yaml.Token.streamEnd]).length + 4) [.streamEnd]
      (by rw [List.length_append]; omega)
    have seen : Takes peek (written.tokens ++ [.streamEnd]) (written.tokens ++ [.streamEnd])
        token := by
      rw [tokens]
      exact takes_peek token (isBroken_of_beginsNode begins)
    have final : Takes peek [.streamEnd] [.streamEnd] .streamEnd := takes_peek .streamEnd rfl
    rw [readOnly]
    apply seen.bind
    split
    · cases begins
    · cases begins
    · cases begins
    · apply here.bind
      rw [passEnds]
      exact (final.bind (.pure _ PUnit.unit)).bind (final.bind (.pure _ _))
  rw [Node.ofTokens]
  change Prod.fst <$> readOnly _ _ = _
  rw [whole]
  rfl

/-- What has no fault has its parts. -/
theorem all_map_ok {α : Type} (parts : List α) :
    Valued.all (parts.map Except.ok) = .ok parts := by
  induction parts with
  | nil => rfl
  | cons part rest ih =>
    rw [List.map_cons, Valued.all, ih]
    rfl

/-- The members of an object merge nothing. -/
theorem merged_nodes (members : WrittenMembers) : Node.merged members.nodes = .ok [] := by
  cases members with
  | nil => rw [WrittenMembers.nodes, Node.merged]
  | cons before name beforeColon afterColon item after others =>
    have text : ¬Tag.text = .merge := by decide
    rw [WrittenMembers.nodes, Node.merged]
    exact (if_neg text).trans (merged_nodes others)

mutual

/-- The node of a portable value has the value that is written. -/
theorem value_node (written : Written) (portable : written.isPortable = true) :
    written.node.value = .ok written.value := by
  cases written with
  | null =>
    rw [Written.node, Node.value]
    rfl
  | bool b =>
    rw [Written.node, Node.value]
    cases b <;> rfl
  | number number =>
    rw [Written.isPortable] at portable
    rw [Written.node, Node.value, Tag.isCollection_ofPlainText, Scalar.value_number portable]
    rfl
  | text pieces =>
    rw [Written.node, Node.value]
    rfl
  | array gap items =>
    rw [Written.isPortable, Bool.and_eq_true] at portable
    rw [Written.node, Node.value]
    simp only [values_nodes items portable.2, all_map_ok]
    rfl
  | object gap members =>
    rw [Written.isPortable, Bool.and_eq_true] at portable
    rw [Written.node, Node.value]
    simp only [Node.setEntries, merged_nodes, own_nodes members portable.2, List.nil_append,
      all_map_ok]
    rfl

/-- The nodes of portable items have the values of the items. -/
theorem values_nodes (items : WrittenItems) (portable : items.isPortable = true) :
    Node.values items.nodes = items.values.map Except.ok := by
  cases items with
  | nil =>
    rw [WrittenItems.nodes, Node.values]
    rfl
  | cons before item after others =>
    simp only [WrittenItems.isPortable, Bool.and_eq_true] at portable
    rw [WrittenItems.nodes, Node.values, value_node item portable.1.1.2,
      values_nodes others portable.2]
    rfl

/-- The nodes of portable members have the entries of the members. -/
theorem own_nodes (members : WrittenMembers) (portable : members.isPortable = true) :
    Node.own members.nodes = members.entries.map Except.ok := by
  cases members with
  | nil =>
    rw [WrittenMembers.nodes, Node.own]
    rfl
  | cons before name beforeColon afterColon item after others =>
    simp only [WrittenMembers.isPortable, Bool.and_eq_true] at portable
    rw [WrittenMembers.nodes, Node.own, if_neg nofun, value_node item portable.1.1.2,
      own_nodes others portable.2]
    rfl

end

/-- A legible document whose value is written in brackets is read as the value of its node. -/
theorem Document.read_node {document : Document} (legible : document.isLegible = true)
    (collection : document.root.isCollection = true) :
    Yaml.read document.text = match document.root.node.value with
      | .ok value => .ok value
      | .error misfit => .error misfit.fault := by
  rw [Yaml.read, ofText_text legible collection, ofTokens_written]
  rfl

/-- **A portable document** whose value is written in brackets is read as its value. -/
theorem Document.read_text {document : Document} (portable : document.isPortable = true)
    (collection : document.root.isCollection = true) :
    Yaml.read document.text = .ok document.root.value := by
  have root : document.root.isPortable = true := by
    simp only [isPortable, Bool.and_eq_true] at portable
    exact portable.1.2
  rw [read_node (isLegible_of_isPortable portable) collection, value_node document.root root]

end Stencil.Json
