import Mathlib.Tactic.SplitIfs
import Stencil.Binary64.Literal
import Stencil.Proofs.Text.Pieces

/-!
# The longest number literal

What is a number literal (`NumberLiteral.Spells`), part by part: a sign, the digits around a point
and an exponent. The scanner takes one off the front of a text exactly if there is one, and then the
longest (`NumberLiteral.scan?_eq_none_iff`, `NumberLiteral.scan?_eq_some_iff`): a part that is taken
further than another reading of the text takes it leaves less of the text for the next part, and
nothing that such a reading needs.
-/

namespace Stencil.NumberLiteral

open Text

/-- A sign in front of a number, and whether it is a minus. -/
inductive SpellsSign : List Char → Bool → Prop
  | none : SpellsSign [] false
  | plus : SpellsSign ['+'] false
  | minus : SpellsSign ['-'] true

/-- Decimal digits of any script, one or more. -/
structure IsDigits (text : List Char) : Prop where
  filled : text ≠ []
  decimal : ∀ c ∈ text, isDecimal c = true

/-- Digits with a point behind, between or in front of them, or without one: the digits in front of
the point and those behind it. -/
inductive SpellsMantissa : (text whole fraction : List Char) → Prop
  | whole {digits : List Char} (given : IsDigits digits) : SpellsMantissa digits digits []
  | point {whole fraction : List Char} (given : IsDigits whole)
    (decimal : ∀ c ∈ fraction, isDecimal c = true) :
    SpellsMantissa (whole ++ '.' :: fraction) whole fraction
  | fraction {digits : List Char} (given : IsDigits digits) :
    SpellsMantissa ('.' :: digits) [] digits

/-- An exponent, or nothing. -/
inductive SpellsExponent : List Char → Int → Prop
  | none : SpellsExponent [] 0
  | marked {mark : Char} {sign digits : List Char} {negative : Bool}
    (marks : mark = 'e' ∨ mark = 'E') (signed : SpellsSign sign negative)
    (given : IsDigits digits) :
    SpellsExponent (mark :: (sign ++ digits))
      (if negative then -(decimalNumber digits : Int) else decimalNumber digits)

/-- What a number literal is. -/
inductive Spells : List Char → NumberLiteral → Prop
  | infinity {sign : List Char} {negative : Bool} (signed : SpellsSign sign negative) :
    Spells (sign ++ "Infinity".toList) (.infinity negative)
  | decimal {sign mantissa whole fraction exponent : List Char} {negative : Bool} {size : Int}
    (signed : SpellsSign sign negative) (digits : SpellsMantissa mantissa whole fraction)
    (scaled : SpellsExponent exponent size) :
    Spells (sign ++ (mantissa ++ exponent)) (.decimal negative whole fraction size)

/-- A literal at the front of a text that no other one is longer than. -/
structure IsLongest (text front : List Char) : Prop where
  literal : ∃ literal, Spells front literal
  starts : front <+: text
  longest : ∀ other literal, Spells other literal → other <+: text → other.length ≤ front.length

section Digits

variable {digits rest text : List Char}

/-- Digits at the front of a text are taken, and so are those that follow them. -/
theorem takeDigits_of_decimal (decimal : ∀ c ∈ digits, isDecimal c = true) (rest : List Char) :
    takeDigits (digits ++ rest) = (digits ++ (takeDigits rest).1, (takeDigits rest).2) := by
  rw [takeDigits, List.takeWhile_append_of_pos decimal, List.dropWhile_append_of_pos decimal]
  rfl

/-- No digits are taken where none begins. -/
theorem takeDigits_of_stop (stop : ∀ c ∈ rest.head?, isDecimal c = false) :
    takeDigits rest = ([], rest) := by
  cases rest with
  | nil => rfl
  | cons c others => simp [takeDigits, stop c rfl]

/-- The digits at the front of a text, and the rest. -/
theorem of_takeDigits (taken : takeDigits text = (digits, rest)) :
    text = digits ++ rest ∧ ∀ c ∈ digits, isDecimal c = true := by
  cases taken
  exact ⟨List.takeWhile_append_dropWhile.symm, fun c => List.mem_takeWhile_imp⟩

/-- What remains behind the taken digits is an end of the text. -/
theorem takeDigits_suffix (text : List Char) : (takeDigits text).2 <:+ text :=
  List.dropWhile_suffix _

/-- The taken digits are all of them: what remains begins with no digit. -/
theorem takeDigits_stops (text : List Char) :
    ∀ c ∈ (takeDigits text).2.head?, isDecimal c = false := by
  intro c first
  have stops := List.head?_dropWhile_not isDecimal text
  rwa [show (text.dropWhile isDecimal).head? = some c from first] at stops

theorem IsDigits.append (given : IsDigits digits) {more : List Char}
    (decimal : ∀ c ∈ more, isDecimal c = true) : IsDigits (digits ++ more) where
  filled := List.append_ne_nil_of_left_ne_nil given.filled more
  decimal c member := (List.mem_append.mp member).elim (given.decimal c) (decimal c)

/-- Digits begin with a character that is neither a sign nor a mark. -/
theorem IsDigits.exists_head (given : IsDigits digits) :
    ∃ c rest, digits = c :: rest ∧ isDecimal c = true := by
  obtain ⟨c, rest, rfl⟩ := List.exists_cons_of_ne_nil given.filled
  exact ⟨c, rest, rfl, given.decimal c List.mem_cons_self⟩

end Digits

section Sign

variable {sign body : List Char} {negative : Bool}

theorem takeSign_append (signed : SpellsSign sign negative)
    (bare : ∀ c ∈ body.head?, c ≠ '-' ∧ c ≠ '+') : takeSign (sign ++ body) = (negative, body) := by
  cases signed with
  | none =>
    rw [List.nil_append]
    unfold takeSign
    split
    · exact absurd rfl (bare '-' rfl).1
    · exact absurd rfl (bare '+' rfl).2
    · rfl
  | plus => rfl
  | minus => rfl

/-- Every text begins with the sign that is taken off it. -/
theorem exists_spellsSign (text : List Char) :
    ∃ sign, SpellsSign sign (takeSign text).1 ∧ text = sign ++ (takeSign text).2 := by
  unfold takeSign
  split
  · exact ⟨['-'], .minus, rfl⟩
  · exact ⟨['+'], .plus, rfl⟩
  · exact ⟨[], .none, rfl⟩

end Sign

section Mantissa

variable {text front whole fraction digits rest behind : List Char}

/-- No digits are taken in front of a point. -/
theorem takeDigits_point (rest : List Char) : takeDigits ('.' :: rest) = ([], '.' :: rest) :=
  takeDigits_of_stop (by rintro c first; cases first; decide)

/-- Digits and a point are the mantissa together with the digits behind the point. -/
theorem takeMantissa?_point (given : IsDigits whole) (rest : List Char) :
    takeMantissa? (whole ++ '.' :: rest) = some (whole, takeDigits rest) := by
  obtain ⟨c, others, rfl, -⟩ := given.exists_head
  have taken := takeDigits_of_decimal given.decimal ('.' :: rest)
  rw [takeDigits_point, List.append_nil] at taken
  simp only [takeMantissa?, taken]

/-- Digits without a point behind them are the mantissa on their own. -/
theorem takeMantissa?_whole (given : IsDigits whole) (stop : ∀ c ∈ rest.head?, isDecimal c = false)
    (noPoint : '.' ∉ rest.head?) : takeMantissa? (whole ++ rest) = some (whole, [], rest) := by
  obtain ⟨c, others, rfl, -⟩ := given.exists_head
  have taken := takeDigits_of_decimal given.decimal rest
  rw [takeDigits_of_stop stop, List.append_nil] at taken
  cases rest with
  | nil => simp only [takeMantissa?, taken]
  | cons mark behind =>
    have other : mark ≠ '.' := fun same => noPoint (by rw [same]; rfl)
    simp only [takeMantissa?, taken]
    split <;> simp_all

/-- A point with digits behind it is a mantissa without a whole part. -/
theorem takeMantissa?_fraction (given : IsDigits digits) (rest : List Char) :
    takeMantissa? ('.' :: (digits ++ rest)) = some ([], takeDigits (digits ++ rest)) := by
  obtain ⟨c, others, rfl, -⟩ := given.exists_head
  simp only [takeMantissa?, takeDigits_point, takeDigits_of_decimal given.decimal]
  rfl

/-- A mantissa begins with a digit or with a point. -/
theorem SpellsMantissa.exists_head (spelled : SpellsMantissa front whole fraction) :
    ∃ c rest, front = c :: rest ∧ (isDecimal c = true ∨ c = '.') := by
  cases spelled with
  | whole given =>
    obtain ⟨c, rest, rfl, decimal⟩ := given.exists_head
    exact ⟨c, rest, rfl, .inl decimal⟩
  | point given =>
    obtain ⟨c, rest, rfl, decimal⟩ := given.exists_head
    exact ⟨c, rest ++ '.' :: fraction, rfl, .inl decimal⟩
  | fraction given => exact ⟨'.', fraction, rfl, .inr rfl⟩

/-- How a mantissa is taken. -/
theorem takeMantissa?_cases (taken : takeMantissa? text = some (whole, fraction, behind)) :
    (∃ rest, takeDigits text = ([], '.' :: rest) ∧ takeDigits rest = (fraction, behind) ∧
      fraction ≠ [] ∧ whole = []) ∨
    (∃ rest, takeDigits text = (whole, '.' :: rest) ∧ takeDigits rest = (fraction, behind) ∧
      whole ≠ []) ∨
    (takeDigits text = (whole, behind) ∧ whole ≠ [] ∧ fraction = []) := by
  rw [takeMantissa?] at taken
  split at taken
  · rename_i rest found
    split at taken
    · cases taken
    · rename_i digits after filled more
      cases taken
      exact .inl ⟨rest, found, more, filled, rfl⟩
  · cases taken
  · rename_i rest filled found
    cases taken
    exact .inr (.inl ⟨rest, found, rfl, filled⟩)
  · rename_i filled _ found
    cases taken
    exact .inr (.inr ⟨found, filled, rfl⟩)

/-- What is taken for a mantissa is one. -/
theorem spellsMantissa_of_taken (taken : takeMantissa? text = some (whole, fraction, behind)) :
    ∃ front, text = front ++ behind ∧ SpellsMantissa front whole fraction := by
  rcases takeMantissa?_cases taken with ⟨rest, found, more, filled, rfl⟩ |
    ⟨rest, found, more, filled⟩ | ⟨found, filled, rfl⟩
  · obtain ⟨rfl, -⟩ := of_takeDigits found
    obtain ⟨rfl, decimal⟩ := of_takeDigits more
    exact ⟨'.' :: fraction, rfl, .fraction ⟨filled, decimal⟩⟩
  · obtain ⟨rfl, given⟩ := of_takeDigits found
    obtain ⟨rfl, decimal⟩ := of_takeDigits more
    exact ⟨whole ++ '.' :: fraction, by simp, .point ⟨filled, given⟩ decimal⟩
  · obtain ⟨rfl, given⟩ := of_takeDigits found
    exact ⟨whole, rfl, .whole ⟨filled, given⟩⟩

/-- A mantissa that neither a digit nor a point follows is taken as it is. -/
theorem takeMantissa?_append (spelled : SpellsMantissa front whole fraction)
    (stop : ∀ c ∈ rest.head?, isDecimal c = false) (noPoint : '.' ∉ rest.head?) :
    takeMantissa? (front ++ rest) = some (whole, fraction, rest) := by
  have taken {digits : List Char} (decimal : ∀ c ∈ digits, isDecimal c = true) :
      takeDigits (digits ++ rest) = (digits, rest) := by
    rw [takeDigits_of_decimal decimal, takeDigits_of_stop stop, List.append_nil]
  cases spelled with
  | whole given => exact takeMantissa?_whole given stop noPoint
  | point given decimal =>
    rw [List.append_assoc, List.cons_append, takeMantissa?_point given, taken decimal]
  | fraction given =>
    rw [List.cons_append, takeMantissa?_fraction given, taken given.decimal]

/-- In front of a text at whose front a mantissa stands, one is taken that leaves no more. -/
theorem exists_takeMantissa? (spelled : SpellsMantissa front whole fraction) (rest : List Char) :
    ∃ taken, takeMantissa? (front ++ rest) = some taken ∧ taken.2.2 <:+ rest := by
  have suffix {digits : List Char} (decimal : ∀ c ∈ digits, isDecimal c = true) :
      (takeDigits (digits ++ rest)).2 <:+ rest := by
    rw [takeDigits_of_decimal decimal]
    exact takeDigits_suffix rest
  cases spelled with
  | whole given =>
    obtain ⟨more, after, taken⟩ : ∃ more after, takeDigits rest = (more, after) := ⟨_, _, rfl⟩
    have stops := takeDigits_stops rest
    rw [taken] at stops
    obtain ⟨rfl, decimal⟩ := of_takeDigits taken
    rw [← List.append_assoc]
    by_cases point : '.' ∈ after.head?
    · obtain ⟨others, rfl⟩ := List.head?_eq_some_iff.mp point
      rw [takeMantissa?_point (given.append decimal)]
      exact ⟨_, rfl, (takeDigits_suffix others).trans
        ((List.suffix_cons '.' others).trans (List.suffix_append more _))⟩
    · rw [takeMantissa?_whole (given.append decimal) stops point]
      exact ⟨_, rfl, List.suffix_append _ _⟩
  | point given decimal =>
    rw [List.append_assoc, List.cons_append, takeMantissa?_point given]
    exact ⟨_, rfl, suffix decimal⟩
  | fraction given =>
    rw [List.cons_append, takeMantissa?_fraction given]
    exact ⟨_, rfl, suffix given.decimal⟩

end Mantissa

section Exponent

variable {text front sign digits rest : List Char} {mark : Char} {negative : Bool} {size : Int}

/-- Digits begin with no sign. -/
theorem IsDigits.bare (given : IsDigits digits) (rest : List Char) :
    ∀ c ∈ (digits ++ rest).head?, c ≠ '-' ∧ c ≠ '+' := by
  obtain ⟨first, others, rfl, decimal⟩ := given.exists_head
  rintro c begins
  cases begins
  constructor <;> (rintro rfl; exact absurd decimal (by decide))

/-- An exponent begins with neither a digit nor a point. -/
theorem SpellsExponent.stops (spelled : SpellsExponent front size) (rest : List Char)
    (ends : front = [] → rest = []) :
    (∀ c ∈ (front ++ rest).head?, isDecimal c = false) ∧ '.' ∉ (front ++ rest).head? := by
  cases spelled with
  | none => simp [ends rfl]
  | marked marks => rcases marks with rfl | rfl <;> simp <;> decide

/-- An exponent is read with all the digits behind it. -/
theorem takeExponent_marked (marks : mark = 'e' ∨ mark = 'E') (signed : SpellsSign sign negative)
    (given : IsDigits digits) (rest : List Char) :
    takeExponent (mark :: (sign ++ digits) ++ rest) =
      (if negative then -(decimalNumber (digits ++ (takeDigits rest).1) : Int)
        else decimalNumber (digits ++ (takeDigits rest).1), (takeDigits rest).2) := by
  have filled : (digits ++ (takeDigits rest).1).isEmpty = false :=
    List.isEmpty_eq_false_iff.mpr (List.append_ne_nil_of_left_ne_nil given.filled _)
  rw [List.cons_append, List.append_assoc, takeExponent, if_pos marks]
  simp only [takeSign_append signed (given.bare rest), takeDigits_of_decimal given.decimal, filled]
  rfl

/-- What is taken for an exponent is one, or nothing is taken. -/
theorem spellsExponent_takeExponent (text : List Char) :
    ∃ front, text = front ++ (takeExponent text).2 ∧
      SpellsExponent front (takeExponent text).1 := by
  cases text with
  | nil => exact ⟨[], rfl, .none⟩
  | cons mark rest =>
    by_cases marks : mark = 'e' ∨ mark = 'E'
    · obtain ⟨sign, signed, split⟩ := exists_spellsSign rest
      obtain ⟨digits, after, taken⟩ :
          ∃ digits after, takeDigits (takeSign rest).2 = (digits, after) := ⟨_, _, rfl⟩
      obtain ⟨spelled, decimal⟩ := of_takeDigits taken
      rw [takeExponent, if_pos marks]
      simp only [taken]
      cases digits with
      | nil => exact ⟨[], rfl, .none⟩
      | cons c others =>
        refine ⟨mark :: (sign ++ c :: others), ?_,
          .marked marks signed ⟨List.cons_ne_nil _ _, decimal⟩⟩
        rw [spelled, ← List.append_assoc] at split
        exact congrArg (mark :: ·) split
    · rw [takeExponent, if_neg marks]
      exact ⟨[], rfl, .none⟩

/-- In front of a text at whose front an exponent stands, one is taken that leaves no more. -/
theorem takeExponent_suffix (spelled : SpellsExponent front size) (rest : List Char) :
    (takeExponent (front ++ rest)).2 <:+ rest := by
  cases spelled with
  | none =>
    obtain ⟨taken, split, -⟩ := spellsExponent_takeExponent rest
    exact ⟨taken, split.symm⟩
  | marked marks signed given =>
    rw [takeExponent_marked marks signed given]
    exact takeDigits_suffix rest

/-- A spelled exponent is read as its size, and nothing remains. -/
theorem takeExponent_of_spells (spelled : SpellsExponent front size) :
    takeExponent front = (size, []) := by
  cases spelled with
  | none => rfl
  | marked marks signed given =>
    have taken := takeExponent_marked marks signed given []
    rwa [List.append_nil, show takeDigits [] = ([], []) from rfl, List.append_nil] at taken

end Exponent

section Scan

variable {text front behind rest : List Char} {literal other : NumberLiteral}

/-- A decimal literal is taken sign, mantissa and exponent in turn. -/
theorem scanDecimal?_eq (text : List Char) : scanDecimal? text =
    (takeMantissa? (takeSign text).2).map fun taken =>
      (.decimal (takeSign text).1 taken.1 taken.2.1 (takeExponent taken.2.2).1,
        (takeExponent taken.2.2).2) := by
  rw [scanDecimal?]
  dsimp only
  cases takeMantissa? (takeSign text).2 <;> rfl

/-- What is taken for a decimal literal is one. -/
theorem spells_of_scanDecimal? (taken : scanDecimal? text = some (literal, behind)) :
    ∃ front, text = front ++ behind ∧ Spells front literal := by
  obtain ⟨sign, signed, split⟩ := exists_spellsSign text
  rw [scanDecimal?_eq, Option.map_eq_some_iff] at taken
  obtain ⟨⟨whole, fraction, rest⟩, mantissa, made⟩ := taken
  rw [Prod.mk.injEq] at made
  obtain ⟨rfl, rfl⟩ := made
  obtain ⟨digits, unsigned, spelled⟩ := spellsMantissa_of_taken mantissa
  obtain ⟨exponent, after, scaled⟩ := spellsExponent_takeExponent rest
  refine ⟨sign ++ (digits ++ exponent), ?_, .decimal signed spelled scaled⟩
  rw [List.append_assoc, List.append_assoc, ← after, ← unsigned, ← split]

/-- What is taken for a literal is one. -/
theorem spells_of_scan? (taken : scan? text = some (literal, behind)) :
    ∃ front, text = front ++ behind ∧ Spells front literal := by
  obtain ⟨sign, signed, split⟩ := exists_spellsSign text
  rw [scan?] at taken
  dsimp only at taken
  split_ifs at taken with word
  · cases taken
    obtain ⟨after, spelled⟩ := List.isPrefixOf_iff_prefix.mp word
    refine ⟨sign ++ "Infinity".toList, ?_, .infinity signed⟩
    rw [← spelled, List.drop_left, List.append_assoc, spelled, ← split]
  · exact spells_of_scanDecimal? taken

/-- Behind a sign, a mantissa is taken for what it is. -/
theorem scan?_of_mantissa {sign mantissa whole fraction : List Char} {negative : Bool}
    (signed : SpellsSign sign negative) (digits : SpellsMantissa mantissa whole fraction)
    (rest : List Char) : scan? (sign ++ (mantissa ++ rest)) =
      (takeMantissa? (mantissa ++ rest)).map fun taken =>
        (.decimal negative taken.1 taken.2.1 (takeExponent taken.2.2).1,
          (takeExponent taken.2.2).2) := by
  have bare : ∀ c ∈ (mantissa ++ rest).head?, c ≠ '-' ∧ c ≠ '+' ∧ c ≠ 'I' := by
    obtain ⟨first, others, rfl, decimal⟩ := digits.exists_head
    rintro c begins
    cases begins
    refine ⟨?_, ?_, ?_⟩ <;> (rintro rfl; exact absurd decimal (by decide))
  have noWord : "Infinity".toList.isPrefixOf (mantissa ++ rest) = false := by
    rw [Bool.eq_false_iff]
    intro word
    obtain ⟨after, spelled⟩ := List.isPrefixOf_iff_prefix.mp word
    rw [← spelled] at bare
    exact (bare 'I' rfl).2.2 rfl
  have taken := takeSign_append signed fun c first => ⟨(bare c first).1, (bare c first).2.1⟩
  rw [scan?, taken]
  dsimp only
  rw [noWord, if_neg Bool.false_ne_true, scanDecimal?_eq, taken]

/-- A spelled infinity is read, whatever stands behind it. -/
theorem scan?_infinity {sign : List Char} {negative : Bool} (signed : SpellsSign sign negative)
    (rest : List Char) :
    scan? (sign ++ ("Infinity".toList ++ rest)) = some (.infinity negative, rest) := by
  have taken : takeSign (sign ++ ("Infinity".toList ++ rest)) =
      (negative, "Infinity".toList ++ rest) :=
    takeSign_append signed (by rintro c first; cases first; decide)
  rw [scan?, taken]
  dsimp only
  rw [List.isPrefixOf_iff_prefix.mpr (List.prefix_append _ _), if_pos rfl, List.drop_left]

/-- In front of a text at whose front a literal stands, one is taken that leaves no more. -/
theorem exists_scan? (spelled : Spells front literal) (rest : List Char) :
    ∃ taken, scan? (front ++ rest) = some taken ∧ taken.2 <:+ rest := by
  cases spelled with
  | infinity signed =>
    rw [List.append_assoc, scan?_infinity signed]
    exact ⟨_, rfl, List.suffix_rfl⟩
  | decimal signed digits scaled =>
    rw [List.append_assoc, List.append_assoc, scan?_of_mantissa signed digits]
    cases scaled with
    | none =>
      obtain ⟨⟨whole, fraction, after⟩, taken, suffix⟩ := exists_takeMantissa? digits rest
      rw [List.nil_append, taken]
      exact ⟨_, rfl, (takeExponent_suffix .none after).trans suffix⟩
    | marked marks inner given =>
      -- the mark of the exponent ends the digits
      have scaled := SpellsExponent.marked marks inner given
      have stops := scaled.stops rest nofun
      rw [takeMantissa?_append digits stops.1 stops.2]
      exact ⟨_, rfl, takeExponent_suffix scaled rest⟩

/-- A literal is taken as the whole text that it is. -/
theorem scan?_of_spells (spelled : Spells front literal) : scan? front = some (literal, []) := by
  cases spelled with
  | infinity signed =>
    have taken := scan?_infinity signed []
    rwa [List.append_nil] at taken
  | decimal signed digits scaled =>
    obtain ⟨stop, noPoint⟩ := scaled.stops [] fun _ => rfl
    rw [List.append_nil] at stop noPoint
    rw [scan?_of_mantissa signed digits, takeMantissa?_append digits stop noPoint, Option.map_some,
      takeExponent_of_spells scaled]

/-- A text spells one literal at most. -/
theorem Spells.unique (spelled : Spells front literal) (also : Spells front other) :
    literal = other := by
  have same := (scan?_of_spells spelled).symm.trans (scan?_of_spells also)
  exact congrArg Prod.fst (Option.some.inj same)

/-- A text has only one longest literal in front. -/
theorem IsLongest.unique {other : List Char} (first : IsLongest text front)
    (second : IsLongest text other) : front = other := by
  obtain ⟨literal, spelled⟩ := first.literal
  obtain ⟨spare, also⟩ := second.literal
  exact (List.prefix_of_prefix_length_le first.starts second.starts
    (second.longest front literal spelled first.starts)).eq_of_length_le
      (first.longest other spare also second.starts)

/-- **A literal is taken exactly if it is the longest one at the front of a text.** -/
theorem scan?_eq_some_iff : scan? text = some (literal, behind) ↔
    ∃ front, text = front ++ behind ∧ IsLongest text front ∧ Spells front literal := by
  constructor
  · intro taken
    obtain ⟨front, rfl, spelled⟩ := spells_of_scan? taken
    refine ⟨front, rfl, ⟨⟨literal, spelled⟩, List.prefix_append _ _, ?_⟩, spelled⟩
    rintro other spare also ⟨rest, split⟩
    obtain ⟨found, again, suffix⟩ := exists_scan? also rest
    rw [split, taken] at again
    cases again
    have total := congrArg List.length split
    rw [List.length_append, List.length_append] at total
    have less : behind.length ≤ rest.length := suffix.length_le
    omega
  · rintro ⟨front, rfl, longest, spelled⟩
    obtain ⟨⟨found, after⟩, taken, suffix⟩ := exists_scan? spelled behind
    obtain ⟨other, split, also⟩ := spells_of_scan? taken
    have short := longest.longest other found also ⟨after, split.symm⟩
    have less : after.length ≤ behind.length := suffix.length_le
    obtain ⟨rfl, rfl⟩ := List.append_inj' split (by
      have total := congrArg List.length split
      rw [List.length_append, List.length_append] at total
      omega)
    rw [taken, also.unique spelled]

/-- No literal is read if and only if the text begins with none. -/
theorem scan?_eq_none_iff :
    scan? text = none ↔ ∀ front literal, front <+: text → ¬Spells front literal := by
  constructor
  · rintro none front literal ⟨rest, rfl⟩ spelled
    obtain ⟨taken, found, -⟩ := exists_scan? spelled rest
    rw [none] at found
    cases found
  · intro foreign
    rw [Option.eq_none_iff_forall_ne_some]
    rintro ⟨literal, behind⟩ taken
    obtain ⟨front, rfl, spelled⟩ := spells_of_scan? taken
    exact foreign front literal (List.prefix_append _ _) spelled

end Scan

end Stencil.NumberLiteral
