import Mathlib.Data.List.Basic
import Mathlib.Tactic.IntervalCases
import Stencil.Numeral
import Stencil.Proofs.Json.Written
import Stencil.Proofs.Text.Pieces
import Stencil.Text.Case

/-!
# Written numbers

The characters of a written number, and what is read from them: the digits of an integer as the
number that they denote, and a number with a point as the literal that it is.
-/

namespace Stencil

namespace Json

/-- A digit is one of the ten digits. -/
theorem mem_of_isDigit {c : Char} (digit : c.isDigit = true) : c ∈ "0123456789".toList := by
  have range : 48 ≤ c.val ∧ c.val ≤ 57 := by simpa [Char.isDigit] using digit
  have low : 48 ≤ c.toNat := range.1
  have high : c.toNat ≤ 57 := range.2
  rw [← Char.ofNat_toNat c]
  interval_cases c.toNat <;> decide

/-- A digit is different from every other kind of character. -/
theorem ne_of_isDigit {c mark : Char} (digit : c.isDigit = true) (other : mark.isDigit = false) :
    c ≠ mark := by
  intro same
  rw [same, other] at digit
  cases digit

/-- A text that begins with a digit has no sign in front. -/
theorem takeSign_of_head? {text : List Char} (begins : ∀ c ∈ text.head?, c.isDigit = true) :
    NumberLiteral.takeSign text = (false, text) := by
  cases text with
  | nil => rfl
  | cons c rest =>
    have minus : c ≠ '-' := ne_of_isDigit (begins c rfl) rfl
    have plus : c ≠ '+' := ne_of_isDigit (begins c rfl) rfl
    simp [NumberLiteral.takeSign, minus, plus]

namespace Exponent

variable (exponent : Exponent)

/-- The characters of an exponent are digits, signs and its mark. -/
theorem mem_chars {c : Char} (member : c ∈ exponent.chars) :
    c.isDigit = true ∨ c ∈ "+-eE".toList := by
  rcases List.mem_cons.mp member with rfl | member
  · rcases exponent.marked with same | same <;> rw [same] <;> decide
  · rcases List.mem_append.mp member with inSign | inDigits
    · rcases exponent.signed with same | same | same <;> rw [same] at inSign
      · cases inSign
      · rw [List.mem_singleton.mp inSign]
        decide
      · rw [List.mem_singleton.mp inSign]
        decide
    · exact .inl (exponent.decimal c inDigits)

/-- An exponent with a small mark. -/
def small : Exponent :=
  { exponent with mark := 'e', marked := .inl rfl }

end Exponent

namespace Number

variable (number : Number)

/-- The first digit of a number. -/
theorem exists_whole : ∃ c rest, number.whole = c :: rest ∧ c.isDigit = true := by
  cases given : number.whole with
  | nil => exact absurd given number.given
  | cons c rest => exact ⟨c, rest, rfl, number.decimal c (given ▸ List.mem_cons_self)⟩

/-- The characters of a number without its sign are digits, a point and those of an exponent. -/
theorem mem_unsignedChars {c : Char} (member : c ∈ number.unsignedChars) :
    c.isDigit = true ∨ c ∈ ".+-eE".toList := by
  rcases List.mem_append.mp member with front | inExponent
  · rcases List.mem_append.mp front with inWhole | inFraction
    · exact .inl (number.decimal c inWhole)
    · rw [fractionChars] at inFraction
      split at inFraction
      · cases inFraction
      · rcases List.mem_cons.mp inFraction with rfl | behind
        · exact .inr (by decide)
        · exact .inl (number.fractional c behind)
  · cases given : number.exponent with
    | none =>
      rw [given] at inExponent
      cases inExponent
    | some exponent =>
      rw [given] at inExponent
      exact (exponent.mem_chars inExponent).imp_right (List.mem_cons_of_mem '.')

/-- The characters that stand in numbers. -/
theorem mem_chars {c : Char} (member : c ∈ number.chars) : c ∈ "0123456789.+-eE".toList := by
  have unsigned (inside : c ∈ number.unsignedChars) : c ∈ "0123456789.+-eE".toList := by
    have digits : ∀ c ∈ "0123456789".toList, c ∈ "0123456789.+-eE".toList :=
      Text.forall_mem_of_all (by decide)
    have others : ∀ c ∈ ".+-eE".toList, c ∈ "0123456789.+-eE".toList :=
      Text.forall_mem_of_all (by decide)
    rcases number.mem_unsignedChars inside with digit | other
    · exact digits c (mem_of_isDigit digit)
    · exact others c other
  rw [chars] at member
  split at member
  · rcases List.mem_cons.mp member with rfl | inside
    · decide
    · exact unsigned inside
  · exact unsigned member

/-- A number begins with its sign or a digit. -/
theorem head?_chars : ∃ c ∈ "-0123456789".toList, number.chars.head? = some c := by
  obtain ⟨c, rest, whole, digit⟩ := number.exists_whole
  rw [chars]
  split
  · exact ⟨'-', by decide, rfl⟩
  · refine ⟨c, List.mem_cons_of_mem '-' (mem_of_isDigit digit), ?_⟩
    rw [unsignedChars, whole]
    rfl

/-- A number without its sign has no sign to take off. -/
theorem takeSign_unsignedChars :
    NumberLiteral.takeSign number.unsignedChars = (false, number.unsignedChars) := by
  obtain ⟨c, rest, whole, digit⟩ := number.exists_whole
  apply takeSign_of_head?
  intro first begins
  rw [unsignedChars, whole] at begins
  cases begins
  exact digit

/-- Taking the sign off a number leaves the number without its sign. -/
theorem takeSign_chars :
    NumberLiteral.takeSign number.chars = (number.negative, number.unsignedChars) := by
  rw [chars]
  split
  · rename_i negative
    rw [NumberLiteral.takeSign, negative]
  · rename_i positive
    rw [takeSign_unsignedChars, Bool.eq_false_of_not_eq_true positive]

/-- The characters of an integer are its digits. -/
theorem unsignedChars_of_isInteger (integer : number.isInteger = true) :
    number.unsignedChars = number.whole := by
  obtain ⟨fraction, exponent⟩ := Bool.and_eq_true_iff.mp integer
  rw [unsignedChars, fractionChars, if_pos (List.isEmpty_iff.mp fraction),
    Option.isNone_iff_eq_none.mp exponent]
  simp

/-- A portable number is an integer that is not too long, or it has a fraction and its exponent, if
it has one, has a sign. -/
theorem isPortable_cases (portable : number.isPortable = true) :
    (number.isInteger = true ∧ number.whole.length ≤ digitLimit) ∨
      (number.fraction ≠ [] ∧ number.exponent.all (!·.sign.isEmpty) = true) := by
  rw [isPortable] at portable
  by_cases noFraction : number.fraction.isEmpty = true
  · rw [if_pos noFraction, Bool.and_eq_true, decide_eq_true_iff] at portable
    exact .inl ⟨by rw [isInteger, noFraction, portable.1]; rfl, portable.2⟩
  · rw [if_neg noFraction] at portable
    exact .inr ⟨fun none => noFraction (List.isEmpty_iff.mpr none), portable⟩

/-- A number that is not portable is an integer that is too long, or its exponent lacks the point in
front or the sign. -/
theorem lacking_of_not_portable (other : ¬number.isPortable = true) :
    (number.isInteger = true ∧ digitLimit < number.whole.length) ∨
      ∃ exponent, number.exponent = some exponent ∧
        (number.fraction = [] ∨ exponent.sign = []) := by
  rw [isPortable] at other
  cases given : number.exponent with
  | none =>
    left
    by_cases noFraction : number.fraction.isEmpty = true
    · rw [if_pos noFraction, given] at other
      refine ⟨by rw [isInteger, noFraction, given]; rfl, ?_⟩
      simpa using other
    · rw [if_neg noFraction, given] at other
      exact absurd rfl other
  | some exponent =>
    right
    refine ⟨exponent, rfl, ?_⟩
    by_cases noFraction : number.fraction.isEmpty = true
    · exact .inl (List.isEmpty_iff.mp noFraction)
    · rw [if_neg noFraction, given, Option.all_some] at other
      exact .inr (by simpa using other)

/-- A number in small letters. -/
def small : Number :=
  { number with exponent := number.exponent.map Exponent.small }

/-- Digits have no lower case of their own. -/
theorem map_toLower_digits {digits : List Char} (decimal : ∀ c ∈ digits, c.isDigit = true) :
    digits.map Char.toLower = digits := by
  have same : ∀ c ∈ "0123456789".toList, c.toLower = c := Text.forall_mem_of_all (by decide)
  rw [List.map_congr_left fun c member => same c (mem_of_isDigit (decimal c member)), List.map_id']

/-- A number in lower case is the number with its mark in lower case. -/
theorem chars_small : number.small.chars = number.chars.map Char.toLower := by
  have fraction : number.fractionChars.map Char.toLower = number.fractionChars := by
    rw [fractionChars]
    split
    · rfl
    · rw [List.map_cons, map_toLower_digits number.fractional]
      rfl
  have exponent : (number.exponent.elim [] Exponent.chars).map Char.toLower =
      (number.exponent.map Exponent.small).elim [] Exponent.chars := by
    cases number.exponent with
    | none => rfl
    | some exponent =>
      have sign : exponent.sign.map Char.toLower = exponent.sign := by
        rcases exponent.signed with same | same | same <;> rw [same] <;> rfl
      have mark : exponent.mark.toLower = 'e' := by
        rcases exponent.marked with same | same <;> rw [same] <;> rfl
      simp [Exponent.chars, Exponent.small, sign, mark, map_toLower_digits exponent.decimal]
  have unsigned : number.unsignedChars.map Char.toLower = number.small.unsignedChars := by
    rw [unsignedChars, List.map_append, List.map_append, map_toLower_digits number.decimal,
      fraction, exponent]
    rfl
  rw [chars, chars]
  change (if number.negative then _ else _) = _
  split
  · rw [List.map_cons, unsigned]
    rfl
  · exact unsigned.symm

end Number
end Json

namespace Numeral

/-- A digit has the same value in base ten as in a decimal number. -/
theorem digitValue?_of_isDigit {c : Char} (digit : c.isDigit = true) :
    digitValue? 10 c = Text.decimalValue? c := by
  have small : ∀ c ∈ "0123456789".toList, digitValue? 10 c = Text.decimalValue? c :=
    Text.forall_mem_of_all (by decide)
  exact small c (Json.mem_of_isDigit digit)

/-- Digits of the decimal system denote the same number in the notation of base ten. -/
theorem natural_ten {digits : List Char} (decimal : ∀ c ∈ digits, c.isDigit = true) :
    natural 10 digits = Text.decimalNumber digits := by
  rw [natural, Text.decimalNumber]
  apply List.foldl_ext
  intro number c member
  rw [digitValue?_of_isDigit (decimal c member)]

/-- A run of digits is read as the number that it denotes, unless it is too long. -/
theorem read_digits {digits : List Char} (filled : digits ≠ [])
    (decimal : ∀ c ∈ digits, c.isDigit = true) :
    read 10 digits = if digitLimit < digits.length then .error (.longNumeral digits.length)
      else .ok (Text.decimalNumber digits) := by
  have solid (c : Char) (member : c ∈ digits) : Text.isBlank c = false := by
    have apart : ∀ c ∈ "0123456789".toList, Text.isBlank c = false :=
      Text.forall_mem_of_all (by decide)
    exact apart c (Json.mem_of_isDigit (decimal c member))
  have trimmed : Text.trim digits = digits := (Text.trim_eq_self_iff digits).mpr
    ⟨fun c first => solid c (List.mem_of_mem_head? first),
      fun c last => solid c (List.mem_of_getLast? last)⟩
  have unmarked : dropMark 10 digits = digits := by
    unfold dropMark
    split
    · exact if_neg nofun
    · rfl
  have whole : (digits.takeWhile fun c => (digitValue? 10 c).isSome) = digits := by
    refine List.takeWhile_eq_self_iff.mpr fun c member => ?_
    rw [digitValue?_of_isDigit (decimal c member), Text.decimalValue?_of_isDigit (decimal c member)]
    rfl
  rw [read, trimmed, Json.takeSign_of_head? fun c first => decimal c (List.mem_of_mem_head? first)]
  dsimp only
  rw [unmarked, whole, List.isEmpty_eq_false_iff.mpr filled, natural_ten decimal]
  by_cases long : digitLimit < digits.length
  · rw [if_pos long, if_pos ⟨rfl, long⟩]
  · rw [if_neg long, if_neg fun within => long within.2]
    simp

end Numeral

namespace Text

/-- A text of the first characters in small letters. -/
theorem lower_eq_map {text : List Char} (small : ∀ c ∈ text, c.toNat < 0x80) :
    lower text = text.map Char.toLower := by
  suffices same : ∀ after, lowerAfter after text = text.map Char.toLower from same false
  induction text with
  | nil => exact fun _ => rfl
  | cons c rest ih =>
    intro after
    rw [List.forall_mem_cons] at small
    have plain : c.toNat ≠ 0x3A3 := by omega
    rw [lowerAfter, if_neg plain, lowerChar, if_pos small.1, ih small.2]
    rfl

end Text

namespace Binary64

/-- The negation of a packed number is packed with the other sign. -/
theorem negate_pack (mantissa : Nat) (exponent : Int) :
    (pack false mantissa exponent).negate = pack true mantissa exponent := by
  rw [pack, pack]
  split <;> rfl

/-- The negation of a rounded ratio is the ratio rounded with the other sign. -/
theorem negate_ofRatio (num den : Nat) : (ofRatio false num den).negate = ofRatio true num den := by
  rw [ofRatio, ofRatio]
  split
  · exact negate_pack 0 (-1074)
  · dsimp only
    split
    · exact negate_pack _ _
    · exact negate_pack _ _

/-- The number opposite to a decimal one. -/
theorem negate_ofDecimal (digits : Nat) (exponent : Int) :
    (ofDecimal false digits exponent).negate = ofDecimal true digits exponent := by
  rw [ofDecimal, ofDecimal]
  dsimp only
  split
  · exact negate_pack 0 (-1074)
  · split
    · rfl
    · exact negate_ofRatio _ _

/-- A text without grouping marks loses none. -/
theorem dropGrouping?_eq_some {text : List Char} (none : '_' ∉ text) (afterDigit : Bool) :
    dropGrouping? afterDigit text = some text := by
  induction text generalizing afterDigit with
  | nil => rfl
  | cons c rest ih =>
    rw [List.mem_cons, not_or] at none
    rw [dropGrouping?, ih none.2]
    · rfl
    · exact fun same => none.1 same.symm

end Binary64

namespace NumberLiteral

open Json

variable {number : Number}

theorem takeDigits_append {digits rest : List Char} (decimal : ∀ c ∈ digits, c.isDigit = true)
    (stops : ∀ c ∈ rest.head?, Text.isDecimal c = false) :
    takeDigits (digits ++ rest) = (digits, rest) := by
  have passes (c : Char) (member : c ∈ digits) : Text.isDecimal c = true := by
    rw [Text.isDecimal, Text.decimalValue?_of_isDigit (decimal c member)]
    rfl
  obtain ⟨front, back⟩ := Text.span_append passes stops
  rw [takeDigits, front, back]

/-- The exponent of a number is read as its size. -/
theorem takeExponent_chars : takeExponent (number.exponent.elim [] Exponent.chars) =
    (number.exponent.elim 0 Exponent.number, []) := by
  cases number.exponent with
  | none => rfl
  | some exponent =>
    have taken := @takeDigits_append exponent.digits [] exponent.decimal (by simp)
    rw [List.append_nil] at taken
    have filled : exponent.digits.isEmpty = false := List.isEmpty_eq_false_iff.mpr exponent.given
    have signed : takeSign (exponent.sign ++ exponent.digits) =
        (decide (exponent.sign = ['-']), exponent.digits) := by
      rcases exponent.signed with same | same | same <;> rw [same]
      · exact takeSign_of_head? fun c first => exponent.decimal c (List.mem_of_mem_head? first)
      · rfl
      · rfl
    rw [Option.elim_some, Option.elim_some, Exponent.chars, List.cons_append, takeExponent,
      if_pos exponent.marked, signed]
    simp [taken, filled, Exponent.number]

/-- The literal that a number with a point is. -/
theorem ofText?_number (filled : number.fraction ≠ []) :
    ofText? number.unsignedChars = some (.decimal false number.whole number.fraction
      (number.exponent.elim 0 Exponent.number)) := by
  have mark : ∀ c ∈ (number.exponent.elim [] Exponent.chars).head?, Text.isDecimal c = false := by
    cases number.exponent with
    | none => simp
    | some exponent =>
      rintro c first
      cases first
      rcases exponent.marked with same | same <;> rw [same] <;> decide
  have point : ∀ c ∈ ('.' :: (number.fraction ++ number.exponent.elim [] Exponent.chars)).head?,
      Text.isDecimal c = false := by
    rintro c first
    cases first
    decide
  have unsigned : number.unsignedChars =
      number.whole ++ '.' :: (number.fraction ++ number.exponent.elim [] Exponent.chars) := by
    rw [Number.unsignedChars, Number.fractionChars, if_neg filled, List.append_assoc]
    rfl
  obtain ⟨c, rest, whole, -⟩ := number.exists_whole
  have mantissa : takeMantissa? number.unsignedChars =
      some (number.whole, number.fraction, number.exponent.elim [] Exponent.chars) := by
    rw [unsigned, takeMantissa?, takeDigits_append number.decimal point, whole]
    simp [takeDigits_append number.fractional mark]
  rw [ofText?, scanDecimal?, Number.takeSign_unsignedChars]
  simp [mantissa, takeExponent_chars]

end NumberLiteral

namespace Binary64

open Json

variable {number : Number}

/-- A number with a point is read without its sign as the literal that it is. -/
theorem read?_number (filled : number.fraction ≠ []) :
    read? number.unsignedChars = some (NumberLiteral.decimal false number.whole
      number.fraction (number.exponent.elim 0 Exponent.number)).value := by
  have inside (c : Char) (member : c ∈ number.unsignedChars) :
      Text.isBlank c = false ∧ c ≠ '_' := by
    have digits : ∀ c ∈ "0123456789".toList, Text.isBlank c = false ∧ c ≠ '_' :=
      Text.forall_mem_of_all (by decide)
    have marks : ∀ c ∈ ".+-eE".toList, Text.isBlank c = false ∧ c ≠ '_' :=
      Text.forall_mem_of_all (by decide)
    rcases number.mem_unsignedChars member with digit | mark
    · exact digits c (mem_of_isDigit digit)
    · exact marks c mark
  have trimmed : Text.trim number.unsignedChars = number.unsignedChars :=
    (Text.trim_eq_self_iff _).mpr ⟨fun c first => (inside c (List.mem_of_mem_head? first)).1,
      fun c last => (inside c (List.mem_of_getLast? last)).1⟩
  have plain : dropGrouping? false number.unsignedChars = some number.unsignedChars :=
    dropGrouping?_eq_some (fun member => (inside '_' member).2 rfl) false
  have noWord (word : String)
      (apart : word.toList.head?.any "0123456789".toList.contains = false) :
      String.ofList (number.unsignedChars.map Char.toLower) ≠ word := by
    rintro rfl
    obtain ⟨c, rest, whole, digit⟩ := number.exists_whole
    have same : ∀ c ∈ "0123456789".toList, c.toLower = c := Text.forall_mem_of_all (by decide)
    have member := mem_of_isDigit digit
    have first : (String.ofList (number.unsignedChars.map Char.toLower)).toList.head? = some c := by
      rw [@String.toList_ofList, Number.unsignedChars, whole, List.cons_append, List.cons_append,
        List.map_cons, List.head?_cons, same c member]
    rw [first, Option.any_some, List.contains_iff_mem.mpr member] at apart
    cases apart
  rw [read?, trimmed, Number.takeSign_unsignedChars]
  simp [plain, NumberLiteral.ofText?_number filled,
    noWord "inf" (by decide), noWord "infinity" (by decide), noWord "nan" (by decide)]

end Binary64
end Stencil
