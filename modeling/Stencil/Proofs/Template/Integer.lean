import Stencil.Proofs.Binary64.Digits
import Stencil.Proofs.Template.Call

/-!
# Integers as arguments

A call with the digits of an integer as its argument is read back from its text
(`Step.parse_integer`), and a transformation that takes the argument for an integer is given the
number that the integer is rounded to (`Value.toInteger_integer`).
-/

namespace Stencil

open Text

namespace Step

variable {n : Int}

/-- No character of an integer is a quote. -/
theorem isQuote_of_mem_integer {c : Char} (member : c ∈ (toString n).toList) :
    isQuote c = false := by
  rw [isQuote, Bool.or_eq_false_iff, beq_eq_false_iff_ne, beq_eq_false_iff_ne]
  constructor
  · rintro rfl
    exact not_mem_integer (by decide) member
  · rintro rfl
    exact not_mem_integer (by decide) member

/-- An integer is not wrapped in quotes. -/
theorem not_isWrapped_integer (n : Int) : ¬IsWrapped (toString n).toList := by
  rintro ⟨quote, body, opens, spelled⟩
  rw [trim_integer] at spelled
  have member : quote ∈ (toString n).toList := spelled ▸ List.mem_cons_self
  rw [isQuote_of_mem_integer member] at opens
  cases opens

/-- An integer stands for itself as an argument. -/
theorem stand_integer (n : Int) : Stand [(toString n).toList] where
  apart := by
    refine .inl (.bare (fun c first => ?_) (not_mem_integer (by decide)))
    rw [trimStart_integer] at first
    exact isQuote_of_mem_integer (List.mem_of_mem_head? first)
  unwrapped := List.forall_mem_singleton.mpr (not_isWrapped_integer n)
  solid := by
    intro last single
    cases single
    exact fun c final => isBlank_of_mem_integer (List.mem_of_getLast? final)

/-- A call with the digits of an integer as its argument. -/
theorem isCall_integer {name : String} (identifier : Path.isIdentifier name.toList = true)
    (n : Int) : IsCall ⟨name, [toString n], ""⟩ where
  unwritten := rfl
  identifier := identifier
  noBar := List.forall_mem_singleton.mpr (not_mem_integer (by decide))
  enclosable := List.forall_mem_singleton.mpr {
    noClosing := not_mem_integer (by decide)
    noOpening := fun opening =>
      not_mem_integer (by decide) (opening.subset List.mem_cons_self) }

/-- A call with an integer is read as such. -/
theorem parse_integer {name : String} (identifier : Path.isIdentifier name.toList = true)
    (n : Int) : (parse (name ++ ":" ++ toString n)).name = name ∧
      (parse (name ++ ":" ++ toString n)).args = [toString n] := by
  have call := isCall_integer identifier n
  have written : render ⟨name, [toString n], ""⟩ = name ++ ":" ++ toString n := by
    rw [← String.toList_inj, call.toList_render]
    simp
  obtain ⟨named, args⟩ := call.parse_render
  rw [written] at named args
  exact ⟨named, args.mpr (stand_integer n)⟩

end Step

namespace Value

variable {n : Int}

/-- An argument of few digits is read as the number that its integer is rounded to. -/
theorem toInteger_integer {digits : Nat} (some : 0 < digits) (few : n.natAbs < Nat.pow 10 digits)
    (reach : digits ≤ 300) (fallback : Int) :
    (Value.text (toString n)).toInteger fallback = .ok (Binary64.ofInteger n).truncate := by
  have finite : (Binary64.ofInteger n).isFinite = true :=
    Binary64.isFinite_ofInteger_of_digits few reach
  have number : (Value.text (toString n)).toNumber = .ok (Binary64.ofInteger n) := by
    rw [← Binary64.ofDecimal_integer some few (by omega), ← leadingNumber_integer]
    rfl
  rw [toInteger, number]
  · rw [Outcome.ok_bind, finite]
    rfl
  · exact nofun
  · exact nofun
  · intro empty
    have void : (toString n).toList = [] := congrArg String.toList (Value.text.inj empty)
    exact toList_integer_ne_nil n void

end Value

end Stencil
