import Stencil.Proofs.Template.Span

/-!
# The braces that open a reference

Closing braces should end the hole that was opened last: behind the pair of braces that opens a
reference no other pair should begin (`Token.OpensLast`). None begins in the body, but the second
of the two braces may itself be the first of a pair, and the scan has taken the first pair by then.
So a reference opens last exactly if no third brace stands behind the two, and if one does, the
hole that opens last begins one character later (`references_opensLast_iff`).
-/

namespace Stencil

namespace Token

/-- No pair of opening braces begins behind a position and in front of the closing braces that end
at another. -/
def OpensLast (text : List Char) (start stop : Nat) : Prop :=
  ∀ p, start < p → p + 4 ≤ stop → ¬ OpensAt text p

namespace IsHole

variable {text : List Char} {start stop : Nat}

/-- The only pair of opening braces that may begin within a hole begins with the second brace. -/
theorem eq_succ_of_opensAt (hole : IsHole text start stop) {p : Nat} (behind : start < p)
    (inside : p + 4 ≤ stop) (opens : OpensAt text p) : p = start + 1 := by
  by_contra far
  apply hole.noOpening p _ _ opens
  · omega
  · omega

/-- A hole with a third brace behind the two that open it has a character more than these. -/
theorem room_of_third (hole : IsHole text start stop) (third : text[start + 2]? = some '{') :
    start + 5 ≤ stop := by
  have room := hole.room
  by_contra short
  have closes := hole.closes.1
  rw [show stop - 2 = start + 2 by omega, third] at closes
  cases closes

/-- A hole opens last if and only if no third brace follows its opening. -/
theorem opensLast_iff (hole : IsHole text start stop) :
    OpensLast text start stop ↔ text[start + 2]? ≠ some '{' := by
  constructor
  · intro last third
    have room := hole.room_of_third third
    apply last (start + 1)
    · omega
    · omega
    · exact ⟨hole.opens.2, third⟩
  · intro alone p behind inside opens
    have next := hole.eq_succ_of_opensAt behind inside opens
    rw [next] at opens
    exact alone opens.2

/-- With a third brace a hole begins at the second one too, and that one opens last. -/
theorem succ_of_third (hole : IsHole text start stop) (third : text[start + 2]? = some '{') :
    IsHole text (start + 1) stop ∧ OpensLast text (start + 1) stop := by
  have room := hole.room_of_third third
  have inner : IsHole text (start + 1) stop := {
    room := by omega
    opens := ⟨hole.opens.2, third⟩
    closes := hole.closes
    noClosing := fun p low high => hole.noClosing p (by omega) high
    noOpening := fun p low high => hole.noOpening p (by omega) high }
  refine ⟨inner, fun p behind inside opens => ?_⟩
  have same := hole.eq_succ_of_opensAt (by omega) inside opens
  omega

end IsHole
end Token

open Token

variable {text : String} {found : List Reference} {reference : Reference}

/-- **Which references open last.** No pair of opening braces begins behind the one that opens a
reference exactly if no third brace stands behind it. If one does, the reference begins one
character in front of the hole that opens last. -/
theorem references_opensLast_iff (read : references text = .ok found)
    (member : reference ∈ found) :
    (OpensLast text.toList reference.start reference.stop ↔
        text.toList[reference.start + 2]? ≠ some '{') ∧
      (¬ OpensLast text.toList reference.start reference.stop →
        IsHole text.toList (reference.start + 1) reference.stop ∧
          OpensLast text.toList (reference.start + 1) reference.stop) := by
  have hole := isHole_of_mem_references read member
  refine ⟨hole.opensLast_iff, fun early => ?_⟩
  rw [hole.opensLast_iff, ne_eq, not_not] at early
  exact hole.succ_of_third early

/-- A single brace at the front of a body opens nothing. -/
theorem references_opensLast_iff_single :
    let text := "\x7b " ++ braced " \x7ba"
    ∃ found, references text = .ok found ∧ found.map (·.start) = [2] ∧
      ∀ reference ∈ found, OpensLast text.toList reference.start reference.stop := by
  refine ⟨[_], rfl, rfl, fun reference member => ?_⟩
  apply (references_opensLast_iff rfl member).1.mpr
  rw [List.mem_singleton.mp member]
  decide

/-- Of three braces the first two open the reference, and the last two open a pair behind them. -/
theorem references_three_braces :
    let text := braced "\x7ba"
    ∃ found, references text = .ok found ∧
      ∃ reference ∈ found, ¬ OpensLast text.toList reference.start reference.stop := by
  refine ⟨[_], rfl, _, List.mem_singleton_self _, fun last => ?_⟩
  apply last 1
  · decide
  · decide
  · decide

end Stencil
