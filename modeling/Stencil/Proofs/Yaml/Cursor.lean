import Stencil.Proofs.Text.Pieces
import Stencil.Yaml.Cursor

/-!
# Cursors behind a part of their text

What is left behind a part of the text at a cursor, and the place that is reached there: as many
characters further on, and on the same line unless one ends in the part.
-/

namespace Stencil.Yaml.Cursor

variable {cursor : Cursor} {front rest : List Char}

theorem skip_skip (first second : Nat) :
    (cursor.skip first).skip second = cursor.skip (first + second) := by
  induction first generalizing cursor with
  | zero => rw [Nat.zero_add, skip]
  | succ first ih => rw [Nat.add_right_comm, skip, skip, ih]

theorem forward_eq_skip : cursor.forward = cursor.skip 1 :=
  rfl

theorem rest_skip_append (left : cursor.rest = front ++ rest) :
    (cursor.skip front.length).rest = rest := by
  rw [rest_skip, left, List.drop_left]

theorem index_forward {c : Char} (left : cursor.rest = c :: rest) :
    cursor.forward.index = cursor.index + 1 := by
  rw [forward, left]
  dsimp only
  split
  · rfl
  · split <;> rfl

theorem line_forward {c : Char} (left : cursor.rest = c :: rest) (unbroken : isBreak c = false) :
    cursor.forward.line = cursor.line := by
  rw [forward, left]
  simp only [unbroken, Bool.false_and, Bool.false_eq_true, if_false]
  split <;> rfl

theorem index_skip (left : cursor.rest = front ++ rest) :
    (cursor.skip front.length).index = cursor.index + front.length := by
  induction front generalizing cursor with
  | nil => rfl
  | cons c front ih =>
    have behind : cursor.forward.rest = front ++ rest := by
      rw [rest_forward, left]
      rfl
    rw [List.length_cons, skip, ih behind, index_forward left]
    omega

theorem line_skip (left : cursor.rest = front ++ rest)
    (unbroken : ∀ c ∈ front, isBreak c = false) :
    (cursor.skip front.length).line = cursor.line := by
  induction front generalizing cursor with
  | nil => rfl
  | cons c front ih =>
    rw [List.forall_mem_cons] at unbroken
    have behind : cursor.forward.rest = front ++ rest := by
      rw [rest_forward, left]
      rfl
    rw [List.length_cons, skip, ih behind unbroken.2, line_forward left unbroken.1]

/-- The characters that pass a test are those in front of the first one that does not. -/
theorem run_append {test : Char → Bool} (left : cursor.rest = front ++ rest)
    (passes : ∀ c ∈ front, test c = true) (stops : ∀ c ∈ rest.head?, test c = false) :
    cursor.run test = front := by
  rw [run, left, (Text.span_append passes stops).1]

theorem skipWhile_append {test : Char → Bool} (left : cursor.rest = front ++ rest)
    (passes : ∀ c ∈ front, test c = true) (stops : ∀ c ∈ rest.head?, test c = false) :
    cursor.skipWhile test = cursor.skip front.length := by
  rw [skipWhile, run_append left passes stops]

end Stencil.Yaml.Cursor
