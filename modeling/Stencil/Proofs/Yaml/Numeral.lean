import Stencil.Proofs.Json.Number
import Stencil.Proofs.Outcome
import Stencil.Yaml.Scalar

/-!
# Numbers of one format in the other

A portable number of a JSON document is a plain scalar of a YAML document that has the same value. A
number that is not portable is either too long for an integer or a text
(`Scalar.value_number_iff`).
-/

namespace Stencil

open Outcome

namespace Yaml.Tag

open Json

variable {number : Number}

/-- A number is no word of a kind that begins with a letter or a mark. -/
theorem isWord_number {words : List String} (apart : (words.flatMap spellings).all
      (fun word => !word.toList.head?.any "-0123456789".toList.contains) = true) :
    isWord words number.chars = false := by
  rw [isWord, Bool.eq_false_iff]
  intro listed
  obtain ⟨c, start, first⟩ := number.head?_chars
  have other := List.all_eq_true.mp apart _ (List.contains_iff_mem.mp listed)
  have same : (String.ofList number.chars).toList.head? = some c :=
    (congrArg List.head? String.toList_ofList).trans first
  rw [same, Option.any_some, List.contains_iff_mem.mpr start] at other
  cases other

/-- The whole part of a number has decimal digits. -/
theorem isDecimal_whole : isDecimal number.whole = true := by
  obtain ⟨c, rest, whole, digit⟩ := number.exists_whole
  rw [isDecimal, isGrouped, Bool.and_eq_true, List.all_eq_true]
  refine ⟨by rw [whole]; exact digit, fun c member => ?_⟩
  rw [number.decimal c member]
  rfl

/-- An integer has not the form of a fraction. -/
theorem isFloat_of_isInteger (integer : number.isInteger = true) :
    isFloat number.chars = false := by
  have none : number.whole.dropWhile (· != '.') = [] := by
    apply List.dropWhile_eq_nil_iff.mpr
    intro c member
    exact bne_iff_ne.mpr (ne_of_isDigit (number.decimal c member) rfl)
  rw [isFloat, Number.takeSign_chars, number.unsignedChars_of_isInteger integer, none]

/-- An integer has the form of an integer. -/
theorem isInteger_of_isInteger (integer : number.isInteger = true) :
    isInteger number.chars = true := by
  obtain ⟨c, rest, whole, digit⟩ := number.exists_whole
  have decimal := @isDecimal_whole number
  rw [isInteger, Number.takeSign_chars, number.unsignedChars_of_isInteger integer]
  by_cases zero : c = '0'
  · rw [number.short (by rw [whole, zero]; rfl)]
    rfl
  · rw [whole] at decimal ⊢
    simp [zero, decimal]

/-- The exponent of a number, or nothing. -/
theorem isExponent_chars (signed : number.exponent.all (!·.sign.isEmpty) = true) :
    isExponent (number.exponent.elim [] Exponent.chars) = true := by
  cases given : number.exponent with
  | none => rfl
  | some exponent =>
    rw [given, Option.all_some, Bool.not_eq_true', List.isEmpty_eq_false_iff] at signed
    have digits : exponent.digits.all Char.isDigit = true :=
      List.all_eq_true.mpr exponent.decimal
    have filled : exponent.digits.isEmpty = false := List.isEmpty_eq_false_iff.mpr exponent.given
    rw [Option.elim_some, Exponent.chars]
    rcases exponent.signed with sign | sign | sign
    · exact absurd sign signed
    all_goals
      rw [sign]
      rcases exponent.marked with mark | mark <;> simp [isExponent, mark, digits, filled]

/-- A fraction with a signed exponent has the form of one. -/
theorem isFraction_chars (signed : number.exponent.all (!·.sign.isEmpty) = true) :
    isFraction (number.fraction ++ number.exponent.elim [] Exponent.chars) = true := by
  have stop : (number.exponent.elim [] Exponent.chars).dropWhile (fun c => c.isDigit || c == '_') =
      number.exponent.elim [] Exponent.chars := by
    cases number.exponent with
    | none => rfl
    | some exponent =>
      rcases exponent.marked with mark | mark <;> simp [Exponent.chars, mark]
  rw [isFraction, List.dropWhile_append_of_pos, stop]
  · exact isExponent_chars signed
  · intro c member
    rw [number.fractional c member]
    rfl

/-- The digits in front of the point of a number, and what stands behind them. -/
theorem span_point (filled : number.fraction ≠ []) :
    number.unsignedChars.takeWhile (· != '.') = number.whole ∧
      number.unsignedChars.dropWhile (· != '.') =
        '.' :: (number.fraction ++ number.exponent.elim [] Exponent.chars) := by
  have noPoint (c : Char) (member : c ∈ number.whole) : (c != '.') = true :=
    bne_iff_ne.mpr (ne_of_isDigit (number.decimal c member) rfl)
  have unsigned : number.unsignedChars =
      number.whole ++ '.' :: (number.fraction ++ number.exponent.elim [] Exponent.chars) := by
    rw [Number.unsignedChars, Number.fractionChars, if_neg filled, List.append_assoc]
    rfl
  rw [unsigned]
  refine Text.span_append noPoint fun c first => ?_
  cases first
  decide

/-- A number with a fraction, and a sign in its exponent, has the form of a fraction. -/
theorem isFloat_of_fraction (filled : number.fraction ≠ [])
    (signed : number.exponent.all (!·.sign.isEmpty) = true) : isFloat number.chars = true := by
  obtain ⟨front, back⟩ := span_point filled
  have given : number.whole.isEmpty = false := List.isEmpty_eq_false_iff.mpr number.given
  rw [isFloat, Number.takeSign_chars, front, back]
  simp [given, isDecimal_whole, isFraction_chars signed]

/-- A number has no final line break to drop. -/
theorem dropFinalBreak_number : dropFinalBreak number.chars = number.chars := by
  have noBreak : ∀ c ∈ "0123456789.+-eE".toList, c ≠ '\n' := Text.forall_mem_of_all (by decide)
  refine if_neg fun ⟨last, _⟩ => ?_
  exact noBreak '\n' (number.mem_chars (List.mem_of_getLast? last)) rfl

/-- The text of an integer has the type of integers. -/
theorem ofPlainText_integer (integer : number.isInteger = true) :
    ofPlainText (String.ofList number.chars) = .int := by
  rw [ofPlainText, String.toList_ofList, dropFinalBreak_number, ofForm, isWord_number (by decide),
    isFloat_of_isInteger integer, isInteger_of_isInteger integer]
  rfl

/-- The text of a number with a fraction, and a sign in its exponent, has the type of fractions. -/
theorem ofPlainText_fraction (filled : number.fraction ≠ [])
    (signed : number.exponent.all (!·.sign.isEmpty) = true) :
    ofPlainText (String.ofList number.chars) = .float := by
  rw [ofPlainText, String.toList_ofList, dropFinalBreak_number, ofForm, isWord_number (by decide),
    isFloat_of_fraction filled signed]
  rfl

/-- A text without a colon has one place only. -/
theorem isSexagesimal_of_not_mem {text : List Char} (noColon : ':' ∉ text) :
    isSexagesimal text = false := by
  rw [isSexagesimal, List.splitOn_eq_singleton noColon]

section Lacking

/-! A number whose exponent lacks the point in front or the sign. -/

variable {exponent : Exponent}

/-- The mark of an exponent is no digit. -/
theorem mark_not_digit (exponent : Exponent) : exponent.mark.isDigit = false := by
  rcases exponent.marked with mark | mark <;> rw [mark] <;> rfl

/-- The mark of an exponent is one of the characters of the number. -/
theorem mark_mem_unsignedChars (given : number.exponent = some exponent) :
    exponent.mark ∈ number.unsignedChars := by
  rw [Number.unsignedChars, given]
  exact List.mem_append_right _ List.mem_cons_self

/-- Letters other than the mark of the exponent do not stand in a number. -/
theorem not_mem_unsignedChars (number : Number) {c : Char} (other : c ∉ "0123456789.+-eE".toList) :
    c ∉ number.unsignedChars := by
  intro member
  apply other
  have whole : number.chars = '-' :: number.unsignedChars ∨
      number.chars = number.unsignedChars := by
    rw [Number.chars]
    cases number.negative
    · exact .inr rfl
    · exact .inl rfl
  rcases whole with same | same
  · exact number.mem_chars (same ▸ List.mem_cons_of_mem _ member)
  · exact number.mem_chars (same ▸ member)

/-- A number with an exponent has not the form of an integer. -/
theorem isInteger_of_exponent (given : number.exponent = some exponent) :
    isInteger number.chars = false := by
  have mark := mark_mem_unsignedChars given
  have noDigit := mark_not_digit exponent
  have apart : exponent.mark ≠ '0' ∧ exponent.mark ≠ '_' ∧
      ('0' ≤ exponent.mark && exponent.mark ≤ '7') = false := by
    rcases exponent.marked with mark | mark <;> rw [mark] <;> decide
  rw [isInteger, Number.takeSign_chars]
  dsimp only
  split
  · rfl
  · rename_i digits unsigned
    have letter : 'b' ∉ number.unsignedChars := not_mem_unsignedChars number (by decide)
    rw [unsigned] at letter
    exact absurd (List.mem_cons_of_mem _ List.mem_cons_self) letter
  · rename_i digits unsigned
    have letter : 'x' ∉ number.unsignedChars := not_mem_unsignedChars number (by decide)
    rw [unsigned] at letter
    exact absurd (List.mem_cons_of_mem _ List.mem_cons_self) letter
  · rename_i digits _ _ unsigned
    rw [unsigned] at mark
    have inside : exponent.mark ∈ digits := (List.mem_cons.mp mark).resolve_left apart.1
    rw [isGrouped, List.all_eq_false]
    exact ⟨_, inside, by simp [apart.2]⟩
  · have noColon : ':' ∉ number.unsignedChars := not_mem_unsignedChars number (by decide)
    rw [isSexagesimal_of_not_mem noColon, Bool.or_false, isDecimal, isGrouped,
      Bool.and_eq_false_iff, List.all_eq_false]
    exact .inr ⟨_, mark, by simp [noDigit, apart.2.1]⟩

/-- A fraction with an exponent without a sign has not the form of one. -/
theorem isFraction_unsigned (unsigned : exponent.sign = []) :
    isFraction (number.fraction ++ exponent.chars) = false := by
  have stop : exponent.chars.dropWhile (fun c => c.isDigit || c == '_') = exponent.chars := by
    rcases exponent.marked with mark | mark <;> simp [Exponent.chars, mark]
  rw [isFraction, List.dropWhile_append_of_pos, stop, Exponent.chars, unsigned]
  · cases digits : exponent.digits with
    | nil => exact absurd digits exponent.given
    | cons c rest =>
      have digit : c.isDigit = true := exponent.decimal c (digits ▸ List.mem_cons_self)
      have plus : c ≠ '+' := ne_of_isDigit digit rfl
      have minus : c ≠ '-' := ne_of_isDigit digit rfl
      simp [isExponent, plus, minus]
  · intro c member
    rw [number.fractional c member]
    rfl

/-- A number whose exponent lacks a fraction in front, or a sign, has not the form of a fraction. -/
theorem isFloat_of_lacking (given : number.exponent = some exponent)
    (lacking : number.fraction = [] ∨ exponent.sign = []) : isFloat number.chars = false := by
  rw [isFloat, Number.takeSign_chars]
  by_cases filled : number.fraction = []
  · have digits (c : Char) (digit : c.isDigit = true) : (c != '.') = true :=
      bne_iff_ne.mpr (ne_of_isDigit digit rfl)
    have marks : ∀ c ∈ "+-eE".toList, (c != '.') = true := Text.forall_mem_of_all (by decide)
    have none : number.unsignedChars.dropWhile (· != '.') = [] := by
      apply List.dropWhile_eq_nil_iff.mpr
      intro c member
      rw [Number.unsignedChars, Number.fractionChars, if_pos filled, List.append_nil, given,
        Option.elim_some, List.mem_append] at member
      rcases member with digit | inExponent
      · exact digits c (number.decimal c digit)
      · rcases exponent.mem_chars inExponent with digit | mark
        · exact digits c digit
        · exact marks c mark
    rw [none]
  · obtain ⟨front, back⟩ := span_point filled
    have noColon : ':' ∉ number.whole := fun member =>
      not_mem_unsignedChars number (by decide)
        (List.mem_append_left _ (List.mem_append_left _ member))
    have unsigned := @isFraction_unsigned number _ (lacking.resolve_left filled)
    rw [front, back, given, Option.elim_some]
    simp [number.given, unsigned, isSexagesimal_of_not_mem noColon]

end Lacking

end Yaml.Tag

namespace Yaml.Timestamp

/-- What is taken from the front of a text are digits. -/
theorem takeDigits?_eq_some {least most : Nat} {text digits rest : List Char}
    (taken : takeDigits? least most text = some (digits, rest)) :
    text = digits ++ rest ∧ least ≤ digits.length ∧ ∀ c ∈ digits, c.isDigit = true := by
  rw [takeDigits?] at taken
  split at taken
  · rename_i enough
    cases taken
    have front : (text.take most).takeWhile Char.isDigit <+: text :=
      (List.takeWhile_prefix _).trans (List.take_prefix most text)
    exact ⟨(List.prefix_iff_eq_append.mp front).symm, enough,
      fun c member => List.mem_takeWhile_imp member⟩
  · cases taken

/-- A mark that was dropped stood in front. -/
theorem dropMark?_eq_some {mark : Char} {text rest : List Char}
    (dropped : dropMark? mark text = some rest) : text = mark :: rest := by
  cases text with
  | nil => cases dropped
  | cons c others =>
    rw [dropMark?.eq_def] at dropped
    dsimp only at dropped
    split at dropped
    · rename_i same
      cases dropped
      rw [same]
    · cases dropped

/-- A timestamp begins with digits and a hyphen. -/
theorem exists_hyphen {text : List Char} {timestamp : Timestamp}
    (read : read? text = some timestamp) : ∃ digits rest, text = digits ++ '-' :: rest ∧
      digits ≠ [] ∧ ∀ c ∈ digits, c.isDigit = true := by
  rw [read?, Option.bind_eq_bind, Option.bind_eq_some_iff] at read
  obtain ⟨⟨year, behind⟩, taken, read⟩ := read
  obtain ⟨whole, four, decimal⟩ := takeDigits?_eq_some taken
  dsimp only at read
  rw [Option.bind_eq_bind, Option.bind_eq_some_iff] at read
  obtain ⟨rest, hyphen, -⟩ := read
  rw [dropMark?_eq_some hyphen] at whole
  exact ⟨year, rest, whole, List.ne_nil_of_length_pos (by omega), decimal⟩

/-- A number with an exponent is no timestamp: no hyphen stands behind its first digits. -/
theorem read?_number {number : Json.Number} {exponent : Json.Exponent}
    (given : number.exponent = some exponent) : read? number.chars = none := by
  apply Option.eq_none_iff_forall_ne_some.mpr
  intro timestamp read
  obtain ⟨digits, rest, same, filled, decimal⟩ := exists_hyphen read
  have positive : number.negative = false := by
    apply Bool.eq_false_of_not_eq_true
    intro negative
    rw [Json.Number.chars, if_pos negative] at same
    cases digits with
    | nil => exact filled rfl
    | cons digit others =>
      rw [List.cons_append, List.cons.injEq] at same
      exact Json.ne_of_isDigit (decimal digit List.mem_cons_self) rfl same.1.symm
  have behind := congrArg (List.dropWhile Char.isDigit) same
  rw [Json.Number.chars, positive, if_neg Bool.false_ne_true, Json.Number.unsignedChars,
    List.append_assoc, List.dropWhile_append_of_pos number.decimal,
    List.dropWhile_append_of_pos decimal, Json.Number.fractionChars, given] at behind
  by_cases whole : number.fraction = []
  · rcases exponent.marked with mark | mark <;> simp [whole, Json.Exponent.chars, mark] at behind
  · simp [whole] at behind

end Yaml.Timestamp

namespace Yaml.Tag

open Json

/-- A plain scalar is no collection by its form. -/
theorem isCollection_ofPlainText (text : String) : (ofPlainText text).isCollection = false := by
  rw [ofPlainText, ofForm]
  split_ifs <;> rfl

variable {number : Number}

/-- A number whose exponent lacks the point in front or the sign is a text by its form. -/
theorem ofPlainText_lacking {exponent : Exponent} (given : number.exponent = some exponent)
    (lacking : number.fraction = [] ∨ exponent.sign = []) :
    ofPlainText (String.ofList number.chars) = .text := by
  obtain ⟨c, start, first⟩ := number.head?_chars
  have apart (text : List Char)
      (other : text.head?.all (fun c => !"-0123456789".toList.contains c)) :
      number.chars ≠ text := by
    intro same
    rw [← same, first, Option.all_some, List.contains_iff_mem.mpr start] at other
    cases other
  rw [ofPlainText, String.toList_ofList, dropFinalBreak_number, ofForm, isWord_number (by decide),
    isFloat_of_lacking given lacking, isInteger_of_exponent given, isWord_number (by decide),
    Timestamp.read?_number given]
  simp [apart]

end Yaml.Tag

namespace Yaml.Scalar

open Json

variable {number : Number}

/-- A number has no underscores to drop. -/
theorem filter_number : number.chars.filter (· != '_') = number.chars := by
  have apart : ∀ c ∈ "0123456789.+-eE".toList, (c != '_') = true :=
    Text.forall_mem_of_all (by decide)
  exact List.filter_eq_self.mpr fun c member => apart c (number.mem_chars member)

/-- The sign of a number is taken off. -/
theorem takeSign_number : takeSign number.chars = .ok (number.negative, number.unsignedChars) := by
  obtain ⟨c, -, first⟩ := number.head?_chars
  have filled : number.chars.isEmpty = false := by
    rw [List.isEmpty_eq_false_iff]
    intro nothing
    rw [nothing] at first
    cases first
  rw [takeSign, filled, Number.takeSign_chars]
  rfl

/-- An integer has its value, unless it is too long. -/
theorem integer_number (integer : number.isInteger = true) :
    Scalar.integer number.chars =
      if digitLimit < number.whole.length then .error (.longNumeral number.whole.length)
      else .ok (if number.negative then -(Text.decimalNumber number.whole : Int)
        else Text.decimalNumber number.whole) := by
  obtain ⟨c, rest, given, digit⟩ := number.exists_whole
  rw [Scalar.integer, filter_number, takeSign_number, ok_bind,
    number.unsignedChars_of_isInteger integer]
  by_cases zero : c = '0'
  · have single : number.whole = ['0'] := number.short (by rw [given, zero]; rfl)
    rw [single]
    rfl
  · have noColon : ':' ∉ c :: rest := by
      intro member
      rw [← given] at member
      exact ne_of_isDigit (number.decimal ':' member) rfl rfl
    have read := Numeral.read_digits number.given number.decimal
    rw [given] at read ⊢
    by_cases long : digitLimit < (c :: rest).length
    · rw [if_pos long] at read ⊢
      simp [zero, not_or.mp (List.mem_cons.not.mp noColon), read]
    · rw [if_neg long] at read ⊢
      simp [zero, not_or.mp (List.mem_cons.not.mp noColon), read]

/-- A number with a point has its value. -/
theorem float_number (filled : number.fraction ≠ []) :
    Scalar.float number.chars = .ok (NumberLiteral.decimal number.negative number.whole
      number.fraction (number.exponent.elim 0 Exponent.number)).value := by
  have ascii (c : Char) (member : c ∈ number.chars) : c.toNat < 0x80 := by
    have all : ∀ c ∈ "0123456789.+-eE".toList, c.toNat < 0x80 := Text.forall_mem_of_all (by decide)
    exact all c (number.mem_chars member)
  have exponent : number.small.exponent.elim 0 Exponent.number =
      number.exponent.elim 0 Exponent.number := by
    rw [Number.small]
    cases number.exponent <;> rfl
  have read : Binary64.read? number.small.unsignedChars = some (NumberLiteral.decimal false
      number.whole number.fraction (number.exponent.elim 0 Exponent.number)).value := by
    rw [← exponent]
    exact @Binary64.read?_number number.small filled
  have noName (word : List Char) (begins : word.head? = some '.') :
      number.small.unsignedChars ≠ word := by
    rintro rfl
    obtain ⟨c, rest, whole, digit⟩ := number.small.exists_whole
    rw [Number.unsignedChars, whole] at begins
    cases begins
    cases digit
  have noColon : ':' ∉ number.small.unsignedChars := by
    have apart : ∀ c ∈ ".+-eE".toList, c ≠ ':' := Text.forall_mem_of_all (by decide)
    intro member
    rcases number.small.mem_unsignedChars member with digit | mark
    · cases digit
    · exact apart ':' mark rfl
  rw [Scalar.float, filter_number, Text.lower_eq_map ascii, ← number.chars_small, takeSign_number,
    ok_bind]
  dsimp only
  rw [if_neg (noName ".inf".toList rfl), if_neg (noName ".nan".toList rfl),
    if_neg (by rwa [List.contains_iff_mem]), decimal, read]
  change (Except.ok (if number.negative then _ else _) : Outcome Binary64) = _
  split
  · rename_i negative
    rw [negative]
    exact congrArg Except.ok (Binary64.negate_ofDecimal _ _)
  · rename_i positive
    rw [Bool.eq_false_of_not_eq_true positive]

/-- A portable number has its value as a plain scalar. -/
theorem value_number (portable : number.isPortable = true) :
    Scalar.value (.ofPlainText (String.ofList number.chars)) (String.ofList number.chars) =
      .ok number.value := by
  rw [Number.value]
  rcases number.isPortable_cases portable with ⟨integer, fits⟩ | ⟨filled, signed⟩
  · rw [Tag.ofPlainText_integer integer, Scalar.value, String.toList_ofList,
      integer_number integer, if_neg (Nat.not_lt.mpr fits), if_pos integer]
    rfl
  · have notInteger : ¬number.isInteger = true := fun integer =>
      filled (List.isEmpty_iff.mp (Bool.and_eq_true_iff.mp integer).1)
    rw [Tag.ofPlainText_fraction filled signed, Scalar.value, String.toList_ofList,
      float_number filled, if_neg notInteger]
    rfl

/-- A number that is not portable has no value as a plain scalar, or is a text. -/
theorem value_number_of_not_portable (other : ¬number.isPortable = true) :
    Scalar.value (.ofPlainText (String.ofList number.chars)) (String.ofList number.chars) =
        .error (.longNumeral number.whole.length) ∨
      Scalar.value (.ofPlainText (String.ofList number.chars)) (String.ofList number.chars) =
        .ok (.text (String.ofList number.chars)) := by
  rcases number.lacking_of_not_portable other with ⟨integer, long⟩ | ⟨exponent, given, lacking⟩
  · left
    rw [Tag.ofPlainText_integer integer, Scalar.value, String.toList_ofList,
      integer_number integer, if_pos long]
    rfl
  · right
    rw [Tag.ofPlainText_lacking given lacking, Scalar.value]

end Yaml.Scalar
end Stencil
