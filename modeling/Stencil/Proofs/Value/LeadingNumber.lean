import Stencil.Proofs.Binary64.Literal
import Stencil.Proofs.Binary64.Tie
import Stencil.Proofs.Value.Integers
import Stencil.Value.Number

/-!
# The number in front of a display text

A value that is no number counts as the longest number literal at the front of its display text, and
as not a number if there is none (`Value.toNumber_longest`). What a literal denotes is its exact
decimal number, rounded to the double format (`NumberLiteral.Denotes`).
-/

namespace Stencil

open Outcome NumberLiteral

namespace NumberLiteral

/-- The number of the double format that a literal stands for. -/
inductive Denotes : NumberLiteral → Binary64 → Prop
  | infinity (negative : Bool) : Denotes (.infinity negative) (.infinity negative)
  | decimal {negative : Bool} {whole fraction : List Char} {exponent : Int} {number : Binary64}
    (rounded : Binary64.Rounds negative
      (Text.decimalNumber (whole ++ fraction) * 10 ^ (exponent - fraction.length)) number) :
    Denotes (.decimal negative whole fraction exponent) number

variable {literal : NumberLiteral} {text : List Char} {number other : Binary64}

/-- A literal denotes its value. -/
theorem denotes_value (literal : NumberLiteral) : literal.Denotes literal.value := by
  cases literal with
  | infinity negative => exact .infinity negative
  | decimal negative whole fraction exponent => exact .decimal (Binary64.rounds_ofDecimal ..)

/-- A literal denotes one number only. -/
theorem Denotes.unique (first : literal.Denotes number) (second : literal.Denotes other) :
    number = other := by
  cases first with
  | infinity =>
    cases second
    rfl
  | decimal rounded =>
    cases second with
    | decimal also => exact rounded.unique also

/-- No literal denotes what is no number. -/
theorem Denotes.ne_nan (denoted : literal.Denotes number) : number ≠ .nan := by
  rintro rfl
  cases denoted with
  | decimal rounded => cases rounded

/-- What a text counts as: the number that the longest literal at its front denotes, or not a number
if no literal stands there. -/
structure CountsAs (text : List Char) (number : Binary64) : Prop where
  nan_iff : number = .nan ↔ ∀ front literal, front <+: text → ¬Spells front literal
  longest : number ≠ .nan →
    ∃ front literal, IsLongest text front ∧ Spells front literal ∧ literal.Denotes number

/-- A text counts as one number only. -/
theorem CountsAs.unique (first : CountsAs text number) (second : CountsAs text other) :
    number = other := by
  by_cases none : number = .nan
  · rw [none, second.nan_iff.mpr (first.nan_iff.mp none)]
  · obtain ⟨front, literal, longest, spelled, denoted⟩ := first.longest none
    have found : other ≠ .nan := fun missing => none (first.nan_iff.mpr (second.nan_iff.mp missing))
    obtain ⟨also, spare, alsoLongest, alsoSpelled, alsoDenoted⟩ := second.longest found
    obtain rfl := longest.unique alsoLongest
    obtain rfl := spelled.unique alsoSpelled
    exact denoted.unique alsoDenoted

end NumberLiteral

namespace Value

variable {value : Value} {shown : String}

/-- A text counts as the literal that is scanned at its front, leading blanks aside. -/
theorem countsAs_leadingNumber (text : String) :
    CountsAs (Text.trimStart text.toList) (leadingNumber text) := by
  rw [leadingNumber]
  split
  · rename_i literal behind taken
    obtain ⟨front, -, longest, spelled⟩ := scan?_eq_some_iff.mp taken
    have denoted := denotes_value literal
    refine ⟨iff_of_false denoted.ne_nan fun none => ?_, fun _ =>
      ⟨front, literal, longest, spelled, denoted⟩⟩
    exact none front literal longest.starts spelled
  · rename_i none
    exact ⟨iff_of_true rfl (scan?_eq_none_iff.mp none), fun found => absurd rfl found⟩

mutual

/-- A value whose integers fit has a display text. -/
theorem display_succeeds (value : Value) (fits : value.integersFit = true) :
    Succeeds value.display := by
  cases value with
  | int n =>
    rw [integersFit, decide_eq_true_iff] at fits
    exact integerText_succeeds fits
  | list items => exact succeeds_map_iff.mpr (displayItems_succeeds items fits)
  | tuple items => exact succeeds_map_iff.mpr (displayItems_succeeds items fits)
  | set items => exact label_succeeds fits
  | _ => exact succeeds_ok _

/-- Items whose integers fit can be shown. -/
theorem displayItems_succeeds (items : List Value) (fits : integersFitIn items = true) :
    Succeeds (displayItems items) := by
  cases items with
  | nil => exact succeeds_ok _
  | cons item rest =>
    rw [integersFitIn, Bool.and_eq_true] at fits
    have others := displayItems_succeeds rest fits.2
    rw [displayItems]
    split
    · exact succeeds_map_iff.mpr others
    · obtain ⟨text, shown⟩ := display_succeeds item fits.1
      rw [shown]
      exact succeeds_map_iff.mpr others

end

/-- The number of a value that is none itself is the leading number of its text. -/
theorem toNumber_eq (other : value.isNumber = false) (displayed : value.display = .ok shown) :
    value.toNumber = .ok (leadingNumber shown) := by
  cases value with
  | int | float => cases other
  | _ => exact congrArg (· >>= fun text => pure (leadingNumber text)) displayed

/-- **Numeric coercion reads the longest literal.** A value that is no number and holds no integer
that is too long to be written has a display text and counts as a number: the one that the longest
literal at the front of that text denotes, leading blanks aside, and as not a number exactly if no
literal stands there. -/
theorem toNumber_longest (value : Value) (other : value.isNumber = false)
    (fits : value.integersFit = true) :
    ∃ shown, value.display = .ok shown ∧ Succeeds value.toNumber ∧
      ∀ number, value.toNumber = .ok number ↔ CountsAs (Text.trimStart shown.toList) number := by
  obtain ⟨shown, displayed⟩ := display_succeeds value fits
  have counts := countsAs_leadingNumber shown
  rw [toNumber_eq other displayed]
  refine ⟨shown, displayed, succeeds_ok _, fun number => ?_⟩
  rw [Except.ok.injEq]
  exact ⟨fun same => same ▸ counts, counts.unique⟩

/-- A literal that stops inside an exponent, with digits of two scripts and blanks in front. -/
theorem toNumber_longest_cut :
    let value : Value := .list [.text " \u00a0-1\u0662.5e+", .int 7]
    let number : Binary64 := .finite true 7036874417766400 (-49) (by decide)
    value.toNumber = .ok number ∧ CountsAs "-1\u0662.5e+,7".toList number := by
  intro value number
  have taken : value.toNumber = .ok number := by decide +kernel
  obtain ⟨shown, displayed, -, counts⟩ := toNumber_longest value rfl (by decide +kernel)
  have text : shown = " \u00a0-1\u0662.5e+,7" := by
    rw [show value.display = .ok " \u00a0-1\u0662.5e+,7" by decide +kernel] at displayed
    exact (Except.ok.inj displayed).symm
  have trimmed : Text.trimStart shown.toList = "-1\u0662.5e+,7".toList := by
    rw [text]
    decide +kernel
  refine ⟨taken, ?_⟩
  rw [← trimmed]
  exact (counts number).mp taken

end Value

end Stencil
