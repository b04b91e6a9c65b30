import Stencil.Proofs.Template.Enclosed
import Stencil.Proofs.Template.Span

/-!
# Texts put together

The scan of a text goes from its front to its end, so what stands behind a text could make a hole of
its last characters. It does not if no hole of the two texts put together lies on both sides of the
place where they meet (`Token.IsClear`); then their tokens are those of the one and of the other
(`Token.tokens_append`). The main statement is `references_append`: so are their references, those
of the text behind moved by the length of the text in front.
-/

namespace Stencil

open Outcome

namespace Token

/-- Whether no hole that the scan takes from a text lies on both sides of a position. -/
def IsClear (text : List Char) (position : Nat) : Prop :=
  ∀ span ∈ spans 0 (tokens text), ¬ (span.1 < position ∧ position < span.2)

instance (text : List Char) (position : Nat) : Decidable (IsClear text position) :=
  inferInstanceAs (Decidable (∀ _ ∈ _, _))

/-- A text that begins with no hole begins with none when more follows, unless that makes a hole
that is longer than the text. -/
theorem hole?_append_eq_none {text back : List Char} (solid : hole? text = none)
    (short : ∀ body, hole? (text ++ back) = some body → (holeSource body).length ≤ text.length) :
    hole? (text ++ back) = none := by
  cases found : hole? (text ++ back) with
  | none => rfl
  | some body =>
    obtain ⟨behind, whole⟩ := eq_append_of_hole? found
    have inside : holeSource body <+: text := List.prefix_of_prefix_length_le
      ⟨behind, whole.symm⟩ (List.prefix_append _ _) (short body found)
    obtain ⟨left, rfl⟩ := inside
    rw [hole?_holeSource (enclosable_of_hole? found)] at solid
    cases solid

/-- The tokens of two texts put together are those of the one and of the other, if no hole lies on
both sides of the place where they meet. -/
theorem tokens_append {front back : List Char} (clear : IsClear (front ++ back) front.length) :
    tokens (front ++ back) = tokens front ++ tokens back := by
  suffices moved : ∀ position, (∀ span ∈ spans position (tokens (front ++ back)),
      ¬ (span.1 < position + front.length ∧ position + front.length < span.2)) →
        tokens (front ++ back) = tokens front ++ tokens back by
    exact moved 0 (by rwa [Nat.zero_add])
  clear clear
  induction front using tokens_induction with
  | nil => exact fun _ _ => rfl
  | char c rest solid ih =>
    intro position clear
    -- a hole that the longer text begins with would have to end in front of the other text
    have still : hole? (c :: rest ++ back) = none := by
      refine hole?_append_eq_none solid fun body found => ?_
      obtain ⟨behind, whole⟩ := eq_append_of_hole? found
      rw [whole] at found clear
      rw [tokens_hole found] at clear
      have apart := clear _ List.mem_cons_self
      rw [List.length_cons] at apart ⊢
      rw [length_holeSource]
      dsimp only at apart
      omega
    rw [List.cons_append] at still clear ⊢
    rw [tokens_cons still] at clear ⊢
    rw [tokens_cons solid, List.cons_append, ih (position + 1) fun span taken => ?_]
    have apart := clear span taken
    rwa [List.length_cons, Nat.add_comm rest.length, ← Nat.add_assoc] at apart
  | hole body rest found ih =>
    intro position clear
    have still := hole?_holeSource (enclosable_of_hole? found) (rest ++ back)
    rw [List.append_assoc, tokens_hole still] at clear ⊢
    rw [tokens_hole found, List.cons_append, ih (position + body.length + 4) fun span taken => ?_]
    have apart := clear span (List.mem_cons_of_mem _ taken)
    rwa [List.length_append, length_holeSource, ← Nat.add_assoc, ← Nat.add_assoc] at apart

/-- Where tokens end that begin at a position. -/
theorem le_of_mem_spans_source {position : Nat} {tokens : List Token} {span : Nat × Nat}
    (taken : span ∈ spans position tokens) :
    span.2 ≤ position + (tokens.flatMap source).length := by
  induction tokens generalizing position with
  | nil => cases taken
  | cons token rest ih =>
    rw [List.flatMap_cons, List.length_append, ← Nat.add_assoc]
    cases token with
    | char c => exact ih taken
    | hole body =>
      rw [source, length_holeSource, ← Nat.add_assoc]
      rcases List.mem_cons.mp taken with rfl | later
      · exact Nat.le_add_right _ _
      · exact ih later

end Token

namespace Reference

/-- The reference with its place in the text moved to the right. -/
def moved (distance : Nat) (reference : Reference) : Reference :=
  { reference with start := reference.start + distance, stop := reference.stop + distance }

/-- A hole spells the same reference further behind, moved. -/
theorem ofHole_moved (position distance : Nat) (body : List Char) :
    ofHole (position + distance) body =
      (do return (← ofHole position body).moved distance) := by
  have behind : position + distance + body.length + 4 = position + body.length + 4 + distance := by
    omega
  rw [ofHole, ofHole, behind]
  cases Path.parse (String.ofList ((piecesOf body).head?.getD [])) <;> rfl

/-- Tokens spell the same references further behind, moved. -/
theorem ofTokens_moved (position distance : Nat) (tokens : List Token) :
    ofTokens (position + distance) tokens =
      (do return (← ofTokens position tokens).map (moved distance)) := by
  induction tokens generalizing position with
  | nil => rfl
  | cons token rest ih =>
    cases token with
    | char c =>
      rw [ofTokens, ofTokens, Nat.add_right_comm]
      exact ih (position + 1)
    | hole body =>
      have behind : position + distance + body.length + 4 =
          position + body.length + 4 + distance := by omega
      rw [ofTokens, ofTokens, ofHole_moved, behind, ih]
      cases ofHole position body with
      | error fault => rfl
      | ok reference => cases ofTokens (position + body.length + 4) rest <;> rfl

theorem ofTokens_append (position : Nat) (front back : List Token) :
    ofTokens position (front ++ back) = (do
      let first ← ofTokens position front
      return first ++ (← ofTokens (position + (front.flatMap Token.source).length) back)) := by
  induction front generalizing position with
  | nil =>
    rw [List.nil_append, List.flatMap_nil, List.length_nil, Nat.add_zero, ofTokens, ok_bind]
    cases ofTokens position back <;> rfl
  | cons token rest ih =>
    rw [List.flatMap_cons, List.length_append, ← Nat.add_assoc, List.cons_append]
    cases token with
    | char c => exact ih (position + 1)
    | hole body =>
      rw [Token.source, Token.length_holeSource, ← Nat.add_assoc, ofTokens, ofTokens, ih]
      cases ofHole position body with
      | error fault => rfl
      | ok reference =>
        cases ofTokens (position + body.length + 4) rest with
        | error fault => rfl
        | ok others => cases ofTokens _ back <;> rfl

end Reference

section Texts

variable {front back : String}

/-- The tokens of two texts put together. -/
theorem tokens_toList_append (clear : Token.IsClear (front ++ back).toList front.length) :
    Token.tokens (front ++ back).toList =
      Token.tokens front.toList ++ Token.tokens back.toList := by
  rw [String.toList_append] at clear ⊢
  rw [← String.length_toList] at clear
  exact Token.tokens_append clear

/-- **The references of two texts put together** are those of the one and of the other, these moved
behind the first text, if no hole lies on both sides of the place where the texts meet. -/
theorem references_append (clear : Token.IsClear (front ++ back).toList front.length) :
    references (front ++ back) = (do
      let first ← references front
      return first ++ (← references back).map (Reference.moved front.length)) := by
  have width : ((Token.tokens front.toList).flatMap Token.source).length = front.length := by
    rw [Token.source_tokens, String.length_toList]
  rw [references, tokens_toList_append clear, Reference.ofTokens_append, width,
    Reference.ofTokens_moved 0 front.length]
  rw [references, references]
  cases Reference.ofTokens 0 (Token.tokens front.toList) with
  | error fault => rfl
  | ok first => cases Reference.ofTokens 0 (Token.tokens back.toList) <;> rfl

/-- No hole lies on both sides of a position if no reference that is found there does. -/
theorem isClear_iff {text : String} {found : List Reference} (reads : references text = .ok found)
    (position : Nat) : Token.IsClear text.toList position ↔
      ∀ reference ∈ found, ¬ (reference.start < position ∧ position < reference.stop) := by
  rw [Token.IsClear, ← Reference.spans_of_ofTokens reads, List.forall_mem_map]

end Texts
end Stencil
