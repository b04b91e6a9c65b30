import Stencil.Proofs.Transform.Round

/-!
# Integers in transformations of numbers

A transformation of numbers turns an integer into a nearest number of the double format first, or
fails where there is none in range. So the number, its absolute value and what it is rounded to are
those of the integer exactly if the format holds the integer (`Builtin.keepsInteger_iff`).
-/

namespace Stencil

namespace Binary64

variable {x : Binary64} {n : Int}

/-- The size of a number is finite if and only if the number is. -/
theorem isFinite_abs (x : Binary64) : x.abs.isFinite = x.isFinite := by
  cases x <;> rfl

/-- The size of a number has the size of its value. -/
theorem toRat_abs (x : Binary64) : x.abs.toRat = |x.toRat| := by
  have plus : x.abs.isNegative = false := by cases x <;> rfl
  have size : x.abs.magnitude = x.magnitude := by cases x <;> rfl
  rw [toRat_eq, plus, size, abs_toRat]
  rfl

/-- A whole number is rounded to itself. -/
theorem rounded_zero (whole : x.toRat = n) : x.rounded 0 = x.toRat := by
  have itself : IsRounded x.toRat 0 x.toRat := {
    multiple := ⟨n, by rw [whole, pow_zero, div_one]⟩
    near := by
      rw [sub_self, abs_zero]
      positivity
    away := by
      rw [sub_self, abs_zero]
      norm_num }
  exact (isRounded_rounded 0 x).unique itself

end Binary64

namespace Value

variable {n : Int} {x : Binary64}

/-- The number of an integer, if there is one, is what the integer is rounded to. -/
theorem toNumber_int_eq_ok_iff :
    (Value.int n).toNumber = .ok x ↔ x.isFinite = true ∧ Binary64.ofInteger n = x := by
  rw [← Binary64.ofInt?_eq_some_iff, toNumber, integerNumber]
  cases Binary64.ofInt? n with
  | none => exact iff_of_false nofun nofun
  | some y => rw [Except.ok.injEq, Option.some_inj]

/-- An integer that the format holds counts as itself. -/
theorem toInteger_int (holds : Binary64.HoldsInteger n) (fallback : Int) :
    (Value.int n).toInteger fallback = .ok n := by
  obtain ⟨finite, whole⟩ := Binary64.toRat_ofInteger holds
  have number := toNumber_int_eq_ok_iff.mpr ⟨finite, rfl⟩
  change (toNumber (.int n) >>= fun x => .ok (if x.isFinite then x.truncate else fallback)) = _
  rw [number, Outcome.ok_bind, if_pos finite, Binary64.truncate_of_toRat whole]

end Value

namespace Builtin

variable {dateTemplate : String} {n : Int} {x : Binary64}

/-- A step takes an integer to a number that equals another one, without a report. -/
def TakesTo (dateTemplate : String) (step : Step) (n image : Int) : Prop :=
  ∃ x : Binary64, (registry dateTemplate).apply step (.int n) [] = (.float x, []) ∧
    x.sameInteger image = true

/-- An integer passes through the transformations of numbers as it is: it is a number that equals
it, which the number step gives, its absolute value is exact, and so is what it is rounded to
without places. -/
structure KeepsInteger (dateTemplate : String) (n : Int) : Prop where
  coerced : ∃ x : Binary64, (Value.int n).toNumber = .ok x ∧ x.sameInteger n = true
  number : TakesTo dateTemplate (Step.parse "number") n n
  abs : TakesTo dateTemplate (Step.parse "abs") n |n|
  round : TakesTo dateTemplate (Step.parse "round") n n
  roundToZero : TakesTo dateTemplate (roundStep 0) n n

/-- A step whose transformation gives a finite number of some integer value takes the integer there.
-/
theorem takesTo_of_run {step : Step} {transformation : Transformation} {image : Int}
    (found : (registry dateTemplate).get? step.name = some transformation)
    (taken : transformation.run (.int n) (step.args.map .text ++ []) = .ok (.float x))
    (finite : x.isFinite = true) (same : x.toRat = image) :
    TakesTo dateTemplate step n image := by
  refine ⟨x, ?_, (Binary64.sameInteger_iff image).mpr ⟨finite, same⟩⟩
  rw [Registry.apply, found]
  dsimp only
  rw [taken]

/-- A whole number rounded to no places keeps its value, below the rounding limit and beyond. -/
theorem exists_round_of_toRat {decimals : Value}
    (given : decimals.toInteger 0 = .ok ((0 : Nat) : Int))
    (number : (Value.int n).toNumber = .ok x) (finite : x.isFinite = true) (whole : x.toRat = n) :
    ∃ y : Binary64, round (.int n) decimals = .ok (.float y) ∧ y.isFinite = true ∧ y.toRat = n := by
  by_cases small : |x.toRat| < 10 ^ 21
  · have nearest : Binary64.IsNearest _ (x.rounded 0) := Binary64.isNearest_ofMultiple small
    rw [Binary64.rounded_zero whole] at nearest
    exact ⟨_, round_of_small given (by decide) number finite small, nearest.finite,
      (nearest.eq_of_eq finite rfl).trans whole⟩
  · exact ⟨x, round_of_large given (by decide) number small, finite, whole⟩

/-- An integer that the format holds is kept by the numeric steps. -/
theorem keepsInteger_of_holdsInteger (holds : Binary64.HoldsInteger n) :
    KeepsInteger dateTemplate n := by
  obtain ⟨finite, whole⟩ := Binary64.toRat_ofInteger holds
  have number := Value.toNumber_int_eq_ok_iff.mpr ⟨finite, rfl⟩
  exact {
    coerced := ⟨_, number, (Binary64.sameInteger_iff n).mpr ⟨finite, whole⟩⟩
    number := by
      refine takesTo_of_run rfl ?_ finite whole
      change (Value.int n).toNumber >>= _ = _
      rw [number, Outcome.ok_bind]
      rfl
    abs := by
      refine takesTo_of_run rfl ?_ ((Binary64.isFinite_abs _).trans finite) ?_
      · change (Value.int n).toNumber >>= _ = _
        rw [number, Outcome.ok_bind]
        rfl
      · rw [Binary64.toRat_abs, whole, Int.cast_abs]
    round := by
      have given := Value.toInteger_int (Binary64.holdsInteger_of_lt (n := 0) (by decide)) 0
      obtain ⟨y, rounds, itself, same⟩ := exists_round_of_toRat given number finite whole
      exact takesTo_of_run rfl rounds itself same
    roundToZero := by
      have given : (Value.text (toString (0 : Int))).toInteger 0 = .ok 0 :=
        toInteger_places (Nat.zero_le 100)
      obtain ⟨y, rounds, itself, same⟩ := exists_round_of_toRat given number finite whole
      refine ⟨y, ?_, (Binary64.sameInteger_iff n).mpr ⟨itself, same⟩⟩
      rw [apply_roundStep, rounds] }

/-- **Which integers pass as they are.** An integer passes through the transformations of numbers as
it is exactly if the format holds it: if it has at most fifty-three bits, zeros behind them aside,
and is in range. The number that any other integer is taken for, if it is one, is a nearest. -/
theorem keepsInteger_iff (dateTemplate : String) (n : Int) :
    (KeepsInteger dateTemplate n ↔ Binary64.HoldsInteger n) ∧
      ∀ x, (Value.int n).toNumber = .ok x → x.IsNearest n := by
  refine ⟨⟨fun keeps => ?_, keepsInteger_of_holdsInteger⟩, fun x number => ?_⟩
  · obtain ⟨x, -, same⟩ := keeps.coerced
    obtain ⟨finite, whole⟩ := (Binary64.sameInteger_iff n).mp same
    exact Binary64.holdsInteger_iff.mpr ⟨x, finite, whole⟩
  · obtain ⟨finite, rfl⟩ := Value.toNumber_int_eq_ok_iff.mp number
    exact Binary64.isNearest_ofInteger finite

/-- The least positive integer that the format skips, and the one in front of it. -/
theorem keepsInteger_iff_skipped :
    let x : Binary64 := .finite false 4503599627370496 1 (by decide)
    (Value.int 9007199254740993).toNumber = .ok x ∧ x.IsNearest (9007199254740993 : Int) ∧
      KeepsInteger defaultDateTemplate 9007199254740992 := by
  intro x
  have number : (Value.int 9007199254740993).toNumber = .ok x :=
    Value.toNumber_int_eq_ok_iff.mpr ⟨by decide +kernel, by decide +kernel⟩
  exact ⟨number, (keepsInteger_iff defaultDateTemplate 9007199254740993).2 x number,
    (keepsInteger_iff defaultDateTemplate 9007199254740992).1.mpr
      ⟨4503599627370496, 1, by decide, by decide, by decide⟩⟩

/-- An odd integer of fifty-four bits. -/
theorem not_keepsInteger_odd : ¬KeepsInteger defaultDateTemplate 9007199254740993 := by
  rintro ⟨⟨x, number, same⟩, -⟩
  obtain ⟨-, rfl⟩ := Value.toNumber_int_eq_ok_iff.mp number
  revert same
  decide +kernel

end Builtin

end Stencil
