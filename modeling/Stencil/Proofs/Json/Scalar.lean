import Stencil.Proofs.Json.Number

/-!
# Written texts and numbers are read

A text in quotes is read up to its closing quote, whatever escapes it is written with
(`Json.takeText?_quoted`), and a number up to what ends it (`Json.takeNumber?_append`). There is a
lemma for each kind of part in front of what may follow it.
-/

namespace Stencil.Json

/-- What a number is read as. -/
def Number.json (number : Number) : Json :=
  if number.isInteger then
    let size : Int := Text.decimalNumber number.whole
    .int (if number.negative then -size else size)
  else .literal (String.ofList number.chars)

section Text

variable {rest : List Char}

/-- The four digits of a unit are read as the unit. -/
theorem takeUnit?_digits (unit : Unit16) (rest : List Char) :
    takeUnit? (unit.digits ++ rest) = some (unit.number, rest) := by
  obtain ⟨digits, four, hex⟩ := unit
  obtain ⟨a, b, c, d, rfl⟩ : ∃ a b c d, digits = [a, b, c, d] := by
    match digits, four with
    | [a, b, c, d], _ => exact ⟨a, b, c, d, rfl⟩
  simp only [List.forall_mem_cons, Option.isSome_iff_exists] at hex
  obtain ⟨⟨first, isFirst⟩, ⟨second, isSecond⟩, ⟨third, isThird⟩, ⟨fourth, isFourth⟩, -⟩ := hex
  have same : (first * 16 + second) * 256 + (third * 16 + fourth) =
      (((0 * 16 + first) * 16 + second) * 16 + third) * 16 + fourth := by omega
  simp [takeUnit?, Unit16.number, isFirst, isSecond, isThird, isFourth, same]

/-- A part of a text is read as the character that it stands for. -/
theorem takeText?_piece (piece : Piece) (steps : Nat) (rest : List Char) :
    takeText? (steps + 1) (piece.chars ++ rest) =
      (takeText? steps rest).map fun taken => (piece.meaning :: taken.1, taken.2) := by
  cases piece with
  | bare c free =>
    obtain ⟨visible, noQuote, noEscape⟩ := free
    have plain : ¬(c.toNat < 0x20 ∨ c = '\\') := by
      rintro (control | escape)
      · omega
      · exact noEscape escape
    rw [Piece.chars, List.singleton_append, takeText?, if_neg plain]
    · cases takeText? steps rest <;> rfl
    · exact noQuote
    · exact fun _ same _ => noEscape same
    · exact fun _ _ same _ => noEscape same
  | escape letter meaning known =>
    have noUnit : letter ≠ 'u' := by
      rintro rfl
      cases known
    rw [Piece.chars, List.cons_append, List.singleton_append, takeText?, known]
    · cases takeText? steps rest <;> rfl
    · exact noUnit
  | code unit whole =>
    have noHigh : ¬(0xD800 ≤ unit.number ∧ unit.number < 0xDC00) := by omega
    have noLow : ¬(0xDC00 ≤ unit.number ∧ unit.number < 0xE000) := by omega
    rw [Piece.chars, List.cons_append, List.cons_append, takeText?]
    simp only [takeUnit?_digits, Option.bind_eq_bind, Option.bind_some, if_neg noHigh,
      if_neg noLow]
    cases takeText? steps rest <;> rfl
  | pair high low first second =>
    have text : (Piece.pair high low first second).chars ++ rest =
        '\\' :: 'u' :: (high.digits ++ '\\' :: 'u' :: (low.digits ++ rest)) := by
      simp [Piece.chars]
    rw [text, takeText?]
    simp only [takeUnit?_digits, Option.bind_eq_bind, Option.bind_some, if_pos first,
      if_pos second]
    cases takeText? steps rest <;> rfl

/-- A text in quotes is read up to its closing quote. -/
theorem takeText?_pieces {pieces : List Piece} {steps : Nat} (enough : pieces.length < steps)
    (rest : List Char) : takeText? steps (pieces.flatMap Piece.chars ++ '"' :: rest) =
      some (pieces.map Piece.meaning, rest) := by
  obtain ⟨fewer, rfl⟩ : ∃ fewer, steps = fewer + 1 := ⟨steps - 1, by omega⟩
  induction pieces generalizing fewer with
  | nil => rfl
  | cons piece others ih =>
    rw [List.length_cons] at enough
    obtain ⟨less, rfl⟩ : ∃ less, fewer = less + 1 := ⟨fewer - 1, by omega⟩
    rw [List.flatMap_cons, List.append_assoc, takeText?_piece, ih less (by omega)]
    rfl

/-- Each piece of a text has at least one character. -/
theorem length_le_flatMap_chars (pieces : List Piece) :
    pieces.length ≤ (pieces.flatMap Piece.chars).length := by
  induction pieces with
  | nil => exact Nat.le_refl 0
  | cons piece rest ih =>
    have some : 0 < piece.chars.length := by cases piece <;> exact Nat.succ_pos _
    rw [List.flatMap_cons, List.length_append, List.length_cons]
    omega

/-- The text between quotes is read from what stands behind the opening quote. -/
theorem takeText?_quoted (pieces : List Piece) (rest : List Char) :
    takeText? ((pieces.flatMap Piece.chars ++ '"' :: rest).length + 1)
      (pieces.flatMap Piece.chars ++ '"' :: rest) = some (pieces.map Piece.meaning, rest) := by
  apply takeText?_pieces
  have few := length_le_flatMap_chars pieces
  rw [List.length_append]
  omega

end Text

section Number

variable {rest : List Char}

/-- A text that does not go on with a digit, a point or an exponent. -/
def EndsNumber (rest : List Char) : Prop :=
  ∀ c ∈ rest.head?, c.isDigit = false ∧ c ≠ '.' ∧ c ≠ 'e' ∧ c ≠ 'E'

theorem takeDigits_append {digits : List Char} (decimal : ∀ c ∈ digits, c.isDigit = true)
    (stops : ∀ c ∈ rest.head?, c.isDigit = false) :
    takeDigits (digits ++ rest) = (digits, rest) := by
  obtain ⟨front, back⟩ := Text.span_append decimal stops
  rw [takeDigits, front, back]

/-- A mark with digits behind it is taken whole. -/
theorem takeTail?_append {digits : List Char} (mark : List Char) (filled : digits ≠ [])
    (decimal : ∀ c ∈ digits, c.isDigit = true) (stops : ∀ c ∈ rest.head?, c.isDigit = false) :
    takeTail? mark (digits ++ rest) = some (mark ++ digits, rest) := by
  rw [takeTail?, takeDigits_append decimal stops]
  obtain ⟨c, others, rfl⟩ := List.exists_cons_of_ne_nil filled
  rfl

theorem takeFraction?_append (number : Number) (stops : ∀ c ∈ rest.head?, c.isDigit = false)
    (noPoint : ∀ c ∈ rest.head?, c ≠ '.') :
    takeFraction? (number.fractionChars ++ rest) = some (number.fractionChars, rest) := by
  rw [Number.fractionChars]
  split_ifs with empty
  · rw [List.nil_append, takeFraction?.eq_def]
    split
    · rename_i behind
      exact absurd rfl (noPoint '.' rfl)
    · rfl
  · exact takeTail?_append ['.'] empty number.fractional stops

theorem takeExponent?_append (exponent : Option Exponent) (ends : EndsNumber rest) :
    takeExponent? (exponent.elim [] Exponent.chars ++ rest) =
      some (exponent.elim [] Exponent.chars, rest) := by
  have stops : ∀ c ∈ rest.head?, c.isDigit = false := fun c first => (ends c first).1
  cases exponent with
  | none =>
    rw [Option.elim_none, List.nil_append]
    cases rest with
    | nil => rfl
    | cons c others =>
      obtain ⟨-, -, noSmall, noLarge⟩ := ends c rfl
      simp [takeExponent?, noSmall, noLarge]
  | some exponent =>
    have tail (mark : List Char) :=
      takeTail?_append mark exponent.given exponent.decimal stops
    rw [Option.elim_some, Exponent.chars]
    rcases exponent.signed with same | same | same <;> rw [same]
    · obtain ⟨c, others, digits⟩ := List.exists_cons_of_ne_nil exponent.given
      have first : c.isDigit = true := exponent.decimal c (digits ▸ List.mem_cons_self)
      have text : exponent.mark :: [] ++ exponent.digits ++ rest =
          exponent.mark :: (exponent.digits ++ rest) := by simp
      rw [text, takeExponent?, if_pos exponent.marked]
      · exact tail [exponent.mark]
      · intro behind begins
        rw [digits, List.cons_append, List.cons.injEq] at begins
        exact ne_of_isDigit first (by decide) begins.1
      · intro behind begins
        rw [digits, List.cons_append, List.cons.injEq] at begins
        exact ne_of_isDigit first (by decide) begins.1
    · have text : exponent.mark :: ['+'] ++ exponent.digits ++ rest =
          exponent.mark :: '+' :: (exponent.digits ++ rest) := by simp
      rw [text, takeExponent?, if_pos exponent.marked]
      exact tail [exponent.mark, '+']
    · have text : exponent.mark :: ['-'] ++ exponent.digits ++ rest =
          exponent.mark :: '-' :: (exponent.digits ++ rest) := by simp
      rw [text, takeExponent?, if_pos exponent.marked]
      exact tail [exponent.mark, '-']

/-- An exponent, or what ends a number, goes on neither with a digit nor with a point. -/
theorem head?_exponent_append (exponent : Option Exponent) (ends : EndsNumber rest) :
    ∀ c ∈ (exponent.elim [] Exponent.chars ++ rest).head?, c.isDigit = false ∧ c ≠ '.' := by
  intro c first
  cases exponent with
  | none =>
    obtain ⟨noDigit, noPoint, -⟩ := ends c first
    exact ⟨noDigit, noPoint⟩
  | some exponent =>
    cases first
    rcases exponent.marked with same | same <;> rw [same] <;> decide

theorem head?_fraction_append (number : Number) (ends : EndsNumber rest) :
    ∀ c ∈ (number.fractionChars ++ (number.exponent.elim [] Exponent.chars ++ rest)).head?,
      c.isDigit = false := by
  intro c first
  rw [Number.fractionChars] at first
  split_ifs at first
  · exact (head?_exponent_append number.exponent ends c first).1
  · cases first
    decide

/-- A number is an integer if nothing follows its whole part. -/
theorem isInteger_iff (number : Number) : number.isInteger = true ↔
    number.fractionChars.isEmpty = true ∧
      (number.exponent.elim [] Exponent.chars).isEmpty = true := by
  have fraction : number.fraction.isEmpty = number.fractionChars.isEmpty := by
    rw [Number.fractionChars]
    split_ifs with none
    · rw [none]
    · exact List.isEmpty_eq_false_iff.mpr none
  have exponent : number.exponent.isNone = (number.exponent.elim [] Exponent.chars).isEmpty := by
    cases number.exponent <;> rfl
  rw [Number.isInteger, Bool.and_eq_true, fraction, exponent]

/-- A number is read up to what ends it. -/
theorem takeNumber?_append (number : Number) (ends : EndsNumber rest) :
    takeNumber? (number.chars ++ rest) = some (number.json, rest) := by
  obtain ⟨c, others, whole, digit⟩ := number.exists_whole
  have unsigned : number.unsignedChars ++ rest = number.whole ++
      (number.fractionChars ++ (number.exponent.elim [] Exponent.chars ++ rest)) := by
    simp [Number.unsignedChars]
  have sign : ((number.chars ++ rest).head? == some '-') = number.negative := by
    rw [Number.chars]
    split_ifs with negative
    · rw [negative]
      rfl
    · rw [unsigned, whole, Bool.eq_false_of_not_eq_true negative]
      simpa using ne_of_isDigit digit (by decide)
  have dropped : (if number.negative then (number.chars ++ rest).drop 1
      else number.chars ++ rest) = number.unsignedChars ++ rest := by
    rw [Number.chars]
    split_ifs <;> rfl
  have regular : ¬(number.whole.isEmpty = true ∨
      (number.whole.head? = some '0' ∧ 1 < number.whole.length)) := by
    rintro (empty | ⟨zero, long⟩)
    · exact number.given (List.isEmpty_iff.mp empty)
    · rw [number.short zero] at long
      exact Nat.lt_irrefl 1 long
  have behind := head?_exponent_append number.exponent ends
  rw [takeNumber?]
  simp only [sign, dropped, unsigned,
    takeDigits_append number.decimal (head?_fraction_append number ends), if_neg regular,
    takeFraction?_append number (fun c first => (behind c first).1) fun c first =>
      (behind c first).2, takeExponent?_append number.exponent ends, Option.bind_eq_bind,
    Option.bind_some, ← isInteger_iff]
  have spelled : (if number.negative then ['-'] else []) ++ number.whole ++ number.fractionChars ++
      number.exponent.elim [] Exponent.chars = number.chars := by
    rw [Number.chars, Number.unsignedChars]
    split_ifs <;> simp
  rw [Number.json, spelled]
  split_ifs <;> rfl

end Number

end Stencil.Json
