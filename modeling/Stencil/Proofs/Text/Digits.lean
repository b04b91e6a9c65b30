import Mathlib.Tactic.SplitIfs
import Stencil.Text.Blank
import Stencil.Text.Digit

/-!
# Numbers and their digits

A run of digits denotes a number with no more digits (`decimalNumber_lt`), whatever their script,
and a number is written with no more digits than it needs (`length_decimalText_le_iff`,
`head?_decimalText`). In a field that is wide enough it takes up the whole width
(`length_paddedText`).
-/

namespace Stencil.Text

/-- The number that digits denote in a base is less than one with a digit more. -/
theorem foldl_digits_lt {base : Nat} {value : Char → Nat} {digits : List Char}
    (small : ∀ c ∈ digits, value c < base) :
    digits.foldl (fun number c => number * base + value c) 0 < Nat.pow base digits.length := by
  suffices bound : ∀ start, digits.foldl (fun number c => number * base + value c) start <
      (start + 1) * Nat.pow base digits.length by
    have within := bound 0
    rwa [Nat.zero_add, Nat.one_mul] at within
  induction digits with
  | nil =>
    intro start
    change start < (start + 1) * 1
    omega
  | cons c digits ih =>
    intro start
    rw [List.forall_mem_cons] at small
    have next : start * base + value c + 1 ≤ (start + 1) * base := by
      rw [Nat.succ_mul]
      exact Nat.add_lt_add_left small.1 _
    rw [List.foldl_cons, List.length_cons]
    calc
      digits.foldl _ (start * base + value c)
        < (start * base + value c + 1) * Nat.pow base digits.length := ih small.2 _
      _ ≤ (start + 1) * base * Nat.pow base digits.length := Nat.mul_le_mul_right _ next
      _ = (start + 1) * (Nat.pow base digits.length * base) := by
        rw [Nat.mul_assoc, Nat.mul_comm base]

/-- A decimal digit is below ten. -/
theorem decimalValue?_lt {c : Char} {value : Nat} (decimal : decimalValue? c = some value) :
    value < 10 := by
  obtain ⟨first, -, found⟩ := List.exists_of_findSome?_eq_some decimal
  split_ifs at found with within
  have same := Option.some.inj found
  omega

/-- The number that digits denote has no more digits. -/
theorem decimalNumber_lt (digits : List Char) :
    decimalNumber digits < Nat.pow 10 digits.length := by
  apply foldl_digits_lt
  intro c _
  cases found : decimalValue? c with
  | none => exact Nat.succ_pos 9
  | some value => exact decimalValue?_lt found

/-- A number has at most so many digits if and only if it is below that power of ten. -/
theorem length_decimalText_le_iff {number limit : Nat} (some : 0 < limit) :
    (decimalText number).length ≤ limit ↔ number < Nat.pow 10 limit :=
  Nat.length_toDigits_le_iff (by decide) some

/-- A number that few digits denote is written with few digits. -/
theorem length_decimalText_decimalNumber_le {digits : List Char} {limit : Nat} (some : 0 < limit)
    (few : digits.length ≤ limit) : (decimalText (decimalNumber digits)).length ≤ limit :=
  (length_decimalText_le_iff some).mpr
    (Nat.lt_of_lt_of_le (decimalNumber_lt digits) (Nat.pow_le_pow_right (by decide) few))

/-- The digits of a number are digits. -/
theorem isDigit_of_mem_decimalText {number : Nat} {c : Char} (member : c ∈ decimalText number) :
    c.isDigit = true :=
  Nat.isDigit_of_mem_toDigits (by decide) (by decide) member

/-- A padded number has digits only. -/
theorem isDigit_of_mem_paddedText {width number : Nat} {c : Char}
    (member : c ∈ paddedText width number) : c.isDigit = true := by
  rw [paddedText, List.mem_append] at member
  rcases member with zero | digit
  · rw [List.eq_of_mem_replicate zero]
    rfl
  · exact isDigit_of_mem_decimalText digit

/-- A digit is a decimal digit. -/
theorem isDecimal_of_isDigit {c : Char} (digit : c.isDigit = true) : isDecimal c = true := by
  rw [isDecimal, decimalValue?_of_isDigit digit]
  rfl

/-- No digit of any script is a blank. -/
theorem isBlank_of_isDecimal {c : Char} (decimal : isDecimal c = true) :
    isBlank c = false := by
  have every : ∀ first ∈ decimalZeros, ∀ digit < 10,
      isBlank (Char.ofNat (first + digit)) = false := by decide +kernel
  obtain ⟨value, found⟩ := Option.isSome_iff_exists.mp decimal
  obtain ⟨first, listed, taken⟩ := List.exists_of_findSome?_eq_some found
  split_ifs at taken with within
  have own := every first listed (c.toNat - first) (by omega)
  rwa [Nat.add_sub_cancel' within.1, Char.ofNat_toNat] at own

theorem decimalText_ne_nil (number : Nat) : decimalText number ≠ [] :=
  List.ne_nil_of_length_pos Nat.length_toDigits_pos

/-- Only zero is written with a zero at the front. -/
theorem head?_decimalText {number : Nat} (zero : (decimalText number).head? = some '0') :
    decimalText number = ['0'] := by
  induction number using Nat.strongRecOn with
  | ind number ih =>
    by_cases small : number < 10
    · have single : decimalText number = [number.digitChar] := Nat.toDigits_of_lt_base small
      rw [single] at zero ⊢
      rw [Option.some.inj zero]
    · have longer : decimalText number = decimalText (number / 10) ++ [(number % 10).digitChar] :=
        Nat.toDigits_of_base_le (by decide) (Nat.not_lt.mp small)
      rw [longer, List.head?_append, List.head?_eq_some_head (decimalText_ne_nil _), Option.some_or,
        ← List.head?_eq_some_head] at zero
      -- a front of several digits would be the single digit of zero
      have front := ih (number / 10) (by omega) zero
      have nothing := decimalNumber_decimalText (number / 10)
      rw [front] at nothing
      have none : number / 10 = 0 := nothing.symm
      omega

section Fields

variable {width number : Nat}

/-- A number that fits is padded to the width. -/
theorem length_paddedText (fits : (decimalText number).length ≤ width) :
    (paddedText width number).length = width := by
  rw [paddedText, List.length_append, List.length_replicate]
  exact Nat.sub_add_cancel fits

theorem paddedText_ne_nil (width number : Nat) : paddedText width number ≠ [] :=
  List.append_ne_nil_of_right_ne_nil _ (decimalText_ne_nil number)

/-- Zeros at the front do not change the number that digits denote. -/
theorem decimalNumber_paddedText (width number : Nat) :
    decimalNumber (paddedText width number) = number := by
  have zeros : ∀ count : Nat, decimalNumber (List.replicate count '0' ++ decimalText number) =
      decimalNumber (decimalText number) := by
    intro count
    induction count with
    | zero => rfl
    | succ count ih => exact ih
  rw [paddedText, zeros, decimalNumber_decimalText]

/-- The characters of a padded number pass a test that digits pass. -/
theorem all_paddedText {test : Char → Bool} (digits : ∀ c, c.isDigit = true → test c = true)
    (width number : Nat) : (paddedText width number).all test = true :=
  List.all_eq_true.mpr fun c member => digits c (isDigit_of_mem_paddedText member)

/-- What is written in a field begins with a digit. -/
theorem paddedText_append_ne_cons {c : Char} (noDigit : c.isDigit = false)
    (rest others : List Char) : paddedText width number ++ rest ≠ c :: others := by
  intro spelled
  obtain ⟨first, behind, begins⟩ := List.exists_cons_of_ne_nil (paddedText_ne_nil width number)
  have digit : first.isDigit = true := isDigit_of_mem_paddedText (begins ▸ List.mem_cons_self)
  rw [begins, List.cons_append, List.cons.injEq] at spelled
  rw [spelled.1, noDigit] at digit
  exact Bool.false_ne_true digit

end Fields

end Stencil.Text
