import Stencil.Proofs.Yaml.Broken
import Stencil.Proofs.Yaml.Made
import Stencil.Yaml.Document

/-!
# Why a document has no value

Besides being no document, because a scalar of it has no value. Without tags that is a scalar whose
text has the form of a number or a timestamp and denotes none (`Yaml.blames_of_read`).
-/

namespace Stencil.Yaml

open Outcome

/-- The reasons for which a text that is a document cannot be read: an escape or a version that ends
its tokens, a scalar that has no value of the type of its form, or a scalar that has no value of a
type that a tag gives. -/
inductive Blames (tokens : List Token) (fault : Fault) : Prop
  | escape {code : Nat} (ends : .broken fault ∈ tokens) (large : 0x110000 ≤ code)
    (same : fault = .codePoint code)
  | version {digits : Nat} (ends : .broken fault ∈ tokens) (long : digitLimit < digits)
    (same : fault = .longNumeral digits)
  | plain {text : String} (scalar : .scalar text true ∈ tokens)
    (misfit : Scalar.value (.ofPlainText text) text = .error fault)
  | tagged {tag : Tag} {text : String} (tags : HasTags tokens) (spelled : IsSpelled tokens text)
    (misfit : Scalar.value tag text = .error fault)
  /-- A mapping stands where its tag asks for a timestamp. -/
  | untimely (tags : HasTags tokens) (same : fault = .notReadable "list")

/-- The faults with which reading a document ends. -/
def IsBlamed (tokens : List Token) (fault : Fault) : Prop :=
  fault = .notYaml ∨ Blames tokens fault

namespace Valued

variable {α β : Type} {bad : Fault → Prop}

/-- Something that, if it cannot be built, is kept from it by a fault of some kind. -/
def FailsBy (bad : Fault → Prop) (valued : Valued α) : Prop :=
  match valued with
  | .ok _ => True
  | .error misfit => bad misfit.fault

/-- An outcome that fails for a reason keeps what is built from it for that reason only. -/
theorem FailsBy.ofOutcome {outcome : Outcome α} (fails : Outcome.FailsBy bad outcome) :
    FailsBy bad (ofOutcome outcome) := by
  cases outcome with
  | ok data => trivial
  | error fault => exact fails

theorem FailsBy.inside {valued : Valued α} (fails : FailsBy bad valued) :
    FailsBy bad (inside valued) := by
  cases valued with
  | ok data => trivial
  | error misfit => exact fails

theorem FailsBy.map {valued : Valued α} (fails : FailsBy bad valued) (image : α → β) :
    FailsBy bad (valued.map image) := by
  cases valued with
  | ok data => trivial
  | error misfit => exact fails

theorem FailsBy.both {first : Valued α} {second : Valued β} (one : FailsBy bad first)
    (other : FailsBy bad second) : FailsBy bad (both first second) := by
  cases first with
  | ok data =>
    cases second with
    | ok more => trivial
    | error misfit => exact other
  | error early =>
    cases second with
    | ok more => exact one
    | error late =>
      change bad (if late.depth < early.depth then late else early).fault
      split
      · exact other
      · exact one

theorem FailsBy.all {list : List (Valued α)} (each : ∀ valued ∈ list, FailsBy bad valued) :
    FailsBy bad (all list) := by
  induction list with
  | nil => trivial
  | cons first rest ih =>
    obtain ⟨head, tail⟩ := List.forall_mem_cons.mp each
    exact (head.both (ih tail)).map _

end Valued

namespace Scalar

variable {tokens : List Token}

/-- A scalar without value is to blame, if its text and its type come from tokens. -/
theorem value_fails {tag : Tag} {text : String} (spelled : IsSpelled tokens text)
    (form : tag = .text ∨ IsPlain tokens tag text ∨ HasTags tokens) :
    Outcome.FailsBy (IsBlamed tokens) (Scalar.value tag text) := by
  cases found : Scalar.value tag text with
  | ok value => trivial
  | error fault =>
    obtain rfl | ⟨rfl, rfl | scalar⟩ | tags := form
    · cases found
    · have absent : Tag.ofPlainText "" = .null := by decide
      rw [absent] at found
      cases found
    · exact .inr (.plain scalar found)
    · exact .inr (.tagged tags spelled found)

end Scalar

namespace Node

variable {tokens : List Token}

mutual

/-- The text that a node stands for is spelled by a token. -/
theorem scalarText_ends : (node : Node) → IsMade tokens node →
    Ends (IsSpelled tokens) (IsBlamed tokens) node.scalarText
  | .scalar _ _, .scalar spelled _ => spelled
  | .halved _ text, .halved spelled _ => .inr (.inr ⟨text, spelled, rfl⟩)
  | .sequence _ _, _ | .within _, _ => .inl rfl
  | .mapping _ entries, .mapping _ _ nodes => entryText_ends entries nodes

/-- The text of an entry is spelled by a token. -/
theorem entryText_ends : (entries : List (Node × Node)) →
    (∀ entry ∈ entries, IsMade tokens entry.2) →
    Ends (IsSpelled tokens) (IsBlamed tokens) (entryText entries)
  | [], _ => .inl rfl
  | (name, node) :: rest, nodes => by
    obtain ⟨made, others⟩ := List.forall_mem_cons.mp nodes
    rw [entryText]
    split
    · exact scalarText_ends node made
    · exact entryText_ends rest others

end

/-- Where there are tags, whatever a node stands for is to blame if it has no value. -/
theorem scalarValue_fails {node : Node} (made : IsMade tokens node) (tags : HasTags tokens)
    (tag : Tag) : FailsBy (IsBlamed tokens) (scalarValue tag node) := by
  refine Ends.bind (scalarText_ends node made) fun text spelled => ?_
  split
  · exact .inr (.untimely tags rfl)
  · trivial
  · exact Scalar.value_fails spelled (.inr (.inr tags))

/-- A quoted scalar of other signs than characters has a value, unless a tag asks for another
type. -/
theorem halvedValue_fails {tag : Tag} {text : Text.Halved} (spelled : .halved text ∈ tokens)
    (form : tag = .text ∨ HasTags tokens) :
    FailsBy (IsBlamed tokens) (scalarValue tag (.halved tag text)) := by
  rcases form with rfl | tags
  · trivial
  · exact scalarValue_fails (.halved spelled (.inr tags)) tags tag

/-- A key without a value is to be blamed on a token. -/
theorem keyValue_fails {node : Node} (made : IsMade tokens node) :
    node.keyValue.FailsBy (IsBlamed tokens) := by
  unfold keyValue
  split
  · exact .inl rfl
  · rename_i single
    refine .ofOutcome ?_
    cases made with
    | scalar spelled form =>
      change FailsBy _ (Scalar.value _ _)
      split
      · exact Scalar.value_fails spelled (.inl rfl)
      · exact Scalar.value_fails spelled form
    | @halved tag text spelled form =>
      change FailsBy _ (scalarValue (if tag = .scalarKey then .text else tag) (.halved tag text))
      split
      · trivial
      · exact halvedValue_fails spelled form
    | within => exact .inl rfl
    | sequence form items =>
      rcases form with rfl | tags
      · exact absurd rfl single
      · exact scalarValue_fails (.sequence (.inr tags) items) tags _
    | mapping form names nodes =>
      rcases form with rfl | tags
      · exact absurd rfl single
      · exact scalarValue_fails (.mapping (.inr tags) names nodes) tags _

mutual

/-- A node without a value is to be blamed on a token. -/
theorem value_fails : (node : Node) → IsMade tokens node → node.value.FailsBy (IsBlamed tokens)
  | .scalar tag text, .scalar spelled form => by
    rw [value]
    split
    · exact .inl rfl
    · exact .ofOutcome (Scalar.value_fails spelled form)
  | .halved tag text, .halved spelled form => by
    rw [value]
    split
    · exact .inl rfl
    · exact .ofOutcome (halvedValue_fails spelled form)
  | .within _, _ => by
    rw [value]
    exact .inl rfl
  | .sequence tag items, .sequence form made => by
    unfold value
    split
    · exact .inside (.map (.all (values_fail items made)) _)
    · exact .inside (.map (.all (pairs_fail items made)) _)
    · exact .inl rfl
    · exact .inl rfl
    · exact .inl rfl
  | .mapping tag entries, .mapping form names nodes => by
    unfold value
    split
    · exact .inside (.map (setEntries_fails entries names nodes) _)
    · exact .inside (.map (setEntries_fails entries names nodes) _)
    · exact .inl rfl
    · exact .inl rfl
    · rcases form with rfl | tags
      · contradiction
      · exact .ofOutcome (scalarValue_fails (.mapping (.inr tags) names nodes) tags _)

/-- Each item without a value is to be blamed on a token. -/
theorem values_fail : (items : List Node) → (∀ item ∈ items, IsMade tokens item) →
    ∀ valued ∈ values items, valued.FailsBy (IsBlamed tokens)
  | [], _ => by
    rw [values]
    exact List.forall_mem_nil _
  | node :: rest, made => by
    obtain ⟨first, others⟩ := List.forall_mem_cons.mp made
    rw [values]
    exact List.forall_mem_cons.mpr ⟨value_fails node first, values_fail rest others⟩

/-- Each pair without a value is to be blamed on a token. -/
theorem pairs_fail : (items : List Node) → (∀ item ∈ items, IsMade tokens item) →
    ∀ valued ∈ pairs items, valued.FailsBy (IsBlamed tokens)
  | [], _ => by
    rw [pairs]
    exact List.forall_mem_nil _
  | .scalar _ _ :: rest, made | .halved _ _ :: rest, made | .within _ :: rest, made
  | .sequence _ _ :: rest, made | .mapping _ [] :: rest, made
  | .mapping _ (_ :: _ :: _) :: rest, made => by
    rw [pairs]
    · exact List.forall_mem_cons.mpr ⟨.inl rfl, pairs_fail rest (List.forall_mem_cons.mp made).2⟩
    · exact nofun
  | .mapping _ [(name, node)] :: rest, made => by
    obtain ⟨first, others⟩ := List.forall_mem_cons.mp made
    cases first with
    | mapping form names nodes =>
      rw [pairs]
      refine List.forall_mem_cons.mpr ⟨.map (.both ?_ ?_) _, pairs_fail rest others⟩
      · exact value_fails name (names _ List.mem_cons_self)
      · exact value_fails node (nodes _ List.mem_cons_self)

/-- The entries of a set without values are to be blamed on a token. -/
theorem setEntries_fails (entries : List (Node × Node))
    (names : ∀ entry ∈ entries, IsMade tokens entry.1)
    (nodes : ∀ entry ∈ entries, IsMade tokens entry.2) :
    (setEntries entries).FailsBy (IsBlamed tokens) := by
  have before := merged_ends entries nodes
  rw [setEntries]
  split
  · rename_i front taken
    rw [taken] at before
    refine .all fun valued member => ?_
    rcases List.mem_append.mp member with early | late
    · exact before valued early
    · exact own_fails entries names nodes valued late
  · rename_i fault taken
    rw [taken] at before
    exact before

/-- Each own entry without a value is to be blamed on a token. -/
theorem own_fails : (entries : List (Node × Node)) →
    (∀ entry ∈ entries, IsMade tokens entry.1) → (∀ entry ∈ entries, IsMade tokens entry.2) →
    ∀ valued ∈ own entries, valued.FailsBy (IsBlamed tokens)
  | [], _, _ => by
    rw [own]
    exact List.forall_mem_nil _
  | (name, node) :: rest, names, nodes => by
    obtain ⟨nameMade, otherNames⟩ := List.forall_mem_cons.mp names
    obtain ⟨made, others⟩ := List.forall_mem_cons.mp nodes
    rw [own]
    split
    · exact own_fails rest otherNames others
    · refine List.forall_mem_cons.mpr ⟨?_, own_fails rest otherNames others⟩
      exact (keyValue_fails nameMade).both (value_fails node made)

/-- Each merged entry without a value is to be blamed on a token. -/
theorem merged_ends : (entries : List (Node × Node)) → (∀ entry ∈ entries, IsMade tokens entry.2) →
    Ends (∀ valued ∈ ·, valued.FailsBy (IsBlamed tokens)) (IsBlamed tokens) (merged entries)
  | [], _ => by
    rw [merged]
    exact List.forall_mem_nil _
  | (name, node) :: rest, nodes => by
    obtain ⟨made, others⟩ := List.forall_mem_cons.mp nodes
    rw [merged]
    split
    · refine Ends.bind (source_ends node made) fun first early => ?_
      refine Ends.bind (merged_ends rest others) fun later late => ?_
      exact List.forall_mem_append.mpr ⟨early, late⟩
    · exact merged_ends rest others

/-- Each entry of a source without a value is to be blamed on a token. -/
theorem source_ends : (node : Node) → IsMade tokens node →
    Ends (∀ valued ∈ ·, valued.FailsBy (IsBlamed tokens)) (IsBlamed tokens) (source node)
  | .scalar _ _, _ | .halved _ _, _ | .within _, _ => by
    rw [source]
    exact .inl rfl
  | .sequence _ items, .sequence _ made => by
    rw [source]
    refine Ends.bind (sources_ends items made) fun groups each valued member => ?_
    obtain ⟨group, among, inside⟩ := List.mem_flatten.mp member
    exact each group (List.mem_reverse.mp among) valued inside
  | .mapping _ entries, .mapping _ names nodes => by
    rw [source]
    refine Ends.bind (merged_ends entries nodes) fun before early => ?_
    exact List.forall_mem_append.mpr ⟨early, own_fails entries names nodes⟩

/-- Each entry of several sources without a value is to be blamed on a token. -/
theorem sources_ends : (items : List Node) → (∀ item ∈ items, IsMade tokens item) →
    Ends (∀ group ∈ ·, ∀ valued ∈ group, valued.FailsBy (IsBlamed tokens)) (IsBlamed tokens)
      (sources items)
  | [], _ => by
    rw [sources]
    exact List.forall_mem_nil _
  | .scalar _ _ :: _, _ | .halved _ _ :: _, _ | .within _ :: _, _ | .sequence _ _ :: _, _ => by
    rw [sources]
    · exact .inl rfl
    · exact nofun
  | .mapping _ entries :: rest, made => by
    obtain ⟨first, others⟩ := List.forall_mem_cons.mp made
    cases first with
    | mapping form names nodes =>
      rw [sources]
      refine Ends.bind (merged_ends entries nodes) fun before early => ?_
      refine Ends.bind (sources_ends rest others) fun groups each => ?_
      exact List.forall_mem_cons.mpr
        ⟨List.forall_mem_append.mpr ⟨early, own_fails entries names nodes⟩, each⟩

end

end Node

end Stencil.Yaml
