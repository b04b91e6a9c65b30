import Stencil.Proofs.Binary64.Decimal
import Stencil.Proofs.Binary64.Integer
import Stencil.Proofs.Json.Compact
import Stencil.Value.Number

/-!
# Integers read from their digits

The digits of an integer are read as the number that it is rounded to
(`Value.leadingNumber_integer`, `Binary64.read?_integer`). If this number shows as the same digits,
then it is the integer (`Binary64.toRat_of_displayText`): a number that is too large to show in full
shows with a point or an exponent.
-/

namespace Stencil

open Text

section Text

/-- An integer is written as a hyphen, if it is negative, and the digits of its size. -/
theorem toList_integer (n : Int) : (toString n).toList =
    if n < 0 then '-' :: decimalText n.natAbs else decimalText n.natAbs := by
  rw [← Json.Number.chars_ofInt, Json.Number.chars, Json.Number.unsignedChars_of_isInteger _ rfl]
  exact if_congr decide_eq_true_iff rfl rfl

/-- The text of an integer has digits and hyphens only. -/
theorem isDigit_of_mem_integer {n : Int} {c : Char} (member : c ∈ (toString n).toList) :
    c.isDigit = true ∨ c = '-' := by
  rw [toList_integer] at member
  split at member
  · rcases List.mem_cons.mp member with minus | inside
    · exact .inr minus
    · exact .inl (isDigit_of_mem_decimalText inside)
  · exact .inl (isDigit_of_mem_decimalText member)

/-- A character that is neither a digit nor a hyphen stands in no integer. -/
theorem not_mem_integer {n : Int} {c : Char} (foreign : ¬(c.isDigit = true ∨ c = '-')) :
    c ∉ (toString n).toList :=
  fun member => foreign (isDigit_of_mem_integer member)

theorem toList_integer_ne_nil (n : Int) : (toString n).toList ≠ [] := by
  rw [toList_integer]
  split
  · exact List.cons_ne_nil _ _
  · exact decimalText_ne_nil n.natAbs

/-- No character of an integer is blank. -/
theorem isBlank_of_mem_integer {n : Int} {c : Char} (member : c ∈ (toString n).toList) :
    isBlank c = false := by
  rcases isDigit_of_mem_integer member with digit | rfl
  · exact isBlank_of_isDecimal (isDecimal_of_isDigit digit)
  · decide

/-- Trimming the front of an integer changes nothing. -/
theorem trimStart_integer (n : Int) : trimStart (toString n).toList = (toString n).toList :=
  (trimStart_eq_self_iff _).mpr fun _ first =>
    isBlank_of_mem_integer (List.mem_of_mem_head? first)

/-- Trimming an integer changes nothing. -/
theorem trim_integer (n : Int) : trim (toString n).toList = (toString n).toList :=
  (trim_eq_self_iff _).mpr ⟨fun _ first => isBlank_of_mem_integer (List.mem_of_mem_head? first),
    fun _ last => isBlank_of_mem_integer (List.mem_of_getLast? last)⟩

end Text

section Read

/-- The sign of an integer is taken off its text, and its digits remain. -/
theorem NumberLiteral.takeSign_integer (n : Int) :
    takeSign (toString n).toList = (decide (n < 0), decimalText n.natAbs) := by
  rw [← Json.Number.chars_ofInt, Json.Number.takeSign_chars,
    Json.Number.unsignedChars_of_isInteger _ rfl]
  rfl

/-- The digits of an integer are a literal without a point and an exponent. -/
theorem NumberLiteral.scanDecimal?_integer (n : Int) : scanDecimal? (toString n).toList =
    some (.decimal (decide (n < 0)) (decimalText n.natAbs) [] 0, []) := by
  have taken := @takeDigits_append (decimalText n.natAbs) [] (fun _ => isDigit_of_mem_decimalText)
    (by simp)
  obtain ⟨first, rest, given⟩ := List.exists_cons_of_ne_nil (decimalText_ne_nil n.natAbs)
  rw [List.append_nil, given] at taken
  rw [scanDecimal?, takeSign_integer, given]
  simp [takeMantissa?, taken, takeExponent]

/-- The literal of an integer stands for the number nearest to that integer. -/
theorem NumberLiteral.value_integer (n : Int) :
    (NumberLiteral.decimal (decide (n < 0)) (decimalText n.natAbs) [] 0).value =
      .ofDecimal (n < 0) n.natAbs 0 := by
  rw [value, List.append_nil, decimalNumber_decimalText]
  rfl

/-- The text of an integer is read as the literal of its digits. -/
theorem NumberLiteral.ofText?_integer (n : Int) : ofText? (toString n).toList =
    some (.decimal (decide (n < 0)) (decimalText n.natAbs) [] 0) := by
  rw [ofText?, scanDecimal?_integer]

/-- The number in front of the digits of an integer. -/
theorem Value.leadingNumber_integer (n : Int) :
    leadingNumber (toString n) = .ofDecimal (n < 0) n.natAbs 0 := by
  have noWord : "Infinity".toList.isPrefixOf (decimalText n.natAbs) = false := by
    rw [Bool.eq_false_iff]
    intro begins
    obtain ⟨rest, spelled⟩ := List.isPrefixOf_iff_prefix.mp begins
    have member : 'I' ∈ decimalText n.natAbs :=
      spelled ▸ List.mem_append_left rest (by decide : 'I' ∈ "Infinity".toList)
    cases isDigit_of_mem_decimalText member
  rw [leadingNumber, trimStart_integer, NumberLiteral.scan?, NumberLiteral.takeSign_integer]
  dsimp only
  rw [noWord, if_neg Bool.false_ne_true, NumberLiteral.scanDecimal?_integer]
  exact NumberLiteral.value_integer n

/-- The number that the digits of an integer spell in a data file. -/
theorem Binary64.read?_integer (n : Int) :
    read? (toString n).toList = some (.ofDecimal (n < 0) n.natAbs 0) := by
  have ungrouped : dropGrouping? false (toString n).toList = some (toString n).toList := by
    exact dropGrouping?_eq_some (not_mem_integer (by decide)) false
  have noWord (word : String) (letter : word.toList.head?.any (!·.isDigit) = true) :
      String.ofList ((decimalText n.natAbs).map Char.toLower) ≠ word := by
    rintro rfl
    obtain ⟨first, rest, given⟩ := List.exists_cons_of_ne_nil (decimalText_ne_nil n.natAbs)
    have digits : (decimalText n.natAbs).map Char.toLower = decimalText n.natAbs :=
      Json.Number.map_toLower_digits fun _ => isDigit_of_mem_decimalText
    have digit : first.isDigit = true :=
      isDigit_of_mem_decimalText (given ▸ List.mem_cons_self)
    rw [String.toList_ofList, digits, given, List.head?_cons, Option.any_some, digit] at letter
    cases letter
  rw [read?, trim_integer, NumberLiteral.takeSign_integer]
  simp only [noWord "inf" (by decide), noWord "infinity" (by decide), noWord "nan" (by decide),
    or_self, if_false, ungrouped, Option.bind_eq_bind, Option.bind_some,
    NumberLiteral.ofText?_integer]
  rw [NumberLiteral.value_integer]
  rfl

/-- An integer of few digits is read as the number that it is rounded to. -/
theorem Binary64.ofDecimal_integer {n : Int} {digits : Nat} (some : 0 < digits)
    (few : n.natAbs < Nat.pow 10 digits) (reach : digits ≤ 400) :
    ofDecimal (n < 0) n.natAbs 0 = ofInteger n := by
  have short : (decimalText n.natAbs).length ≤ digits := (length_decimalText_le_iff some).mpr few
  rw [ofDecimal]
  dsimp only
  by_cases zero : n.natAbs = 0
  · rw [if_pos (.inl zero), ofInteger, zero, ofRatio_zero]
  · rw [if_neg (by omega), if_neg (by omega)]
    simp [ofInteger, scaleDown]

end Read

section Shown

/-- Digits with neither a point nor an exponent among them are no more than the layout shows in
full. -/
theorem NumberLayout.length_write_le {layout : NumberLayout} {number : Decimal}
    (noPoint : '.' ∉ layout.write number) (noExponent : 'e' ∉ layout.write number) :
    (layout.write number).length ≤ (layout.positionalTo + 1).toNat + layout.wholeMark.length := by
  rw [write] at noPoint noExponent ⊢
  split_ifs at noPoint noExponent ⊢ with full
  · rw [positional] at noPoint ⊢
    dsimp only at noPoint ⊢
    split_ifs at noPoint ⊢ with small whole
    · exact absurd (by simp) noPoint
    · rw [List.length_append, List.length_append, List.length_replicate]
      omega
    · exact absurd (by simp) noPoint
  · exact absurd (by simp [scientific]) noExponent

/-- Integers of different digits are different. -/
theorem eq_of_toString_eq {n other : Int} (same : toString n = toString other) : n = other := by
  have read := NumberLiteral.takeSign_integer n
  rw [same, NumberLiteral.takeSign_integer, Prod.mk.injEq, decide_eq_decide] at read
  have size := congrArg decimalNumber read.2
  rw [decimalNumber_decimalText, decimalNumber_decimalText] at size
  omega

namespace Binary64

/-- A number that shows with neither a point nor an exponent has few digits, unless it is a whole
one that is shown in full. -/
theorem length_finiteText_le {negative : Bool} {mantissa : Nat} {exponent : Int}
    (digits : ∀ c ∈ finiteText .shown negative mantissa exponent, c.isDigit = true ∨ c = '-') :
    (finiteText .shown negative mantissa exponent).length ≤ 17 := by
  have foreign {c : Char} (other : ¬(c.isDigit = true ∨ c = '-')) :
      c ∉ finiteText .shown negative mantissa exponent := fun member => other (digits c member)
  have body : ∀ text : List Char, '.' ∉ text → 'e' ∉ text →
      text = (if mantissa = 0 then '0' :: NumberLayout.shown.wholeMark
        else NumberLayout.shown.write (shortest mantissa exponent)) → text.length ≤ 16 := by
    rintro text noPoint noExponent rfl
    split_ifs at noPoint noExponent ⊢
    · decide
    · exact NumberLayout.length_write_le noPoint noExponent
  have noPoint := foreign (c := '.') (by decide)
  have noExponent := foreign (c := 'e') (by decide)
  rw [finiteText] at noPoint noExponent ⊢
  split at noPoint
  · rw [if_pos ‹_›] at noExponent ⊢
    rw [List.mem_cons, not_or] at noPoint noExponent
    exact Nat.succ_le_succ (body _ noPoint.2 noExponent.2 rfl)
  · rw [if_neg ‹_›] at noExponent ⊢
    exact (body _ noPoint noExponent rfl).trans (by decide)

/-- The digits of the size of an integer are no more than the characters of its text. -/
theorem length_decimalText_natAbs_le (n : Int) :
    (decimalText n.natAbs).length ≤ (toString n).toList.length := by
  rw [toList_integer]
  split
  · exact Nat.le_succ _
  · exact le_rfl

/-- An integer of few digits is rounded to a whole number that is shown in full. -/
theorem ofInteger_of_few {n : Int} (few : n.natAbs < Nat.pow 10 17) :
    (ofInteger n).isWhole = true ∧
      (ofInteger n).magnitude < Nat.pow 10 21 * unitsPerOne := by
  have finite : (ofInteger n).isFinite = true :=
    isFinite_ofInteger_of_digits few (by decide)
  obtain ⟨whole, same⟩ := exists_toRat_ofInteger finite
  refine ⟨isWhole_of_toRat finite same, (magnitude_lt_iff _).mpr ?_⟩
  have size : |(n : ℚ)| < (Nat.pow 10 17 : Nat) := by
    rw [← Int.cast_abs, ← Nat.cast_natAbs]
    exact Nat.cast_lt.mpr few
  calc
    |(ofInteger n).toRat| ≤ 2 * |(n : ℚ)| := (isNearest_ofInteger finite).abs_toRat_le
    _ < 2 * (Nat.pow 10 17 : Nat) := by linarith
    _ < (Nat.pow 10 21 : Nat) := by norm_num

/-- **A number that shows as the digits it was read from is the integer that they spell.** -/
theorem toRat_of_displayText {n : Int}
    (shown : (ofDecimal (n < 0) n.natAbs 0).displayText = toString n) :
    (ofDecimal (n < 0) n.natAbs 0).isFinite = true ∧
      (ofDecimal (n < 0) n.natAbs 0).toRat = n := by
  have noWord {word : String} (letter : word.toList.any (fun c => !c.isDigit && c != '-') = true) :
      word ≠ toString n := by
    rintro rfl
    obtain ⟨c, member, foreign⟩ := List.any_eq_true.mp letter
    rw [Bool.and_eq_true, Bool.not_eq_true', bne_iff_ne] at foreign
    refine not_mem_integer ?_ member
    rw [foreign.1]
    exact fun other => foreign.2 (other.resolve_left Bool.false_ne_true)
  generalize number : ofDecimal (n < 0) n.natAbs 0 = x at shown ⊢
  match x with
  | .nan => exact absurd shown (noWord (by decide))
  | .infinity negative => cases negative <;> exact absurd shown (noWord (by decide))
  | .finite negative mantissa exponent canonical =>
    refine ⟨rfl, ?_⟩
    rw [displayText] at shown
    split_ifs at shown with full
    · rw [Bool.and_eq_true] at full
      rw [toRat_of_isWhole full.1, eq_of_toString_eq shown]
    · -- the digits that are not those of a whole number shown in full are few
      have chars : finiteText .shown negative mantissa exponent = (toString n).toList := by
        rw [← shown, String.toList_ofList]
      have short := length_finiteText_le fun c (member : c ∈ finiteText .shown _ _ _) =>
        isDigit_of_mem_integer (chars ▸ member)
      rw [chars] at short
      have few : n.natAbs < Nat.pow 10 17 := (length_decimalText_le_iff (by decide)).mp
        ((length_decimalText_natAbs_le n).trans short)
      rw [ofDecimal_integer (by decide) few (by decide)] at number
      obtain ⟨whole, small⟩ := ofInteger_of_few few
      rw [number] at whole small
      exact absurd (by rw [whole, decide_eq_true small]; rfl) full

end Binary64

end Shown

end Stencil
