import Mathlib.Tactic.SplitIfs
import Stencil.Binary64.Decimal
import Stencil.Proofs.Text.Digits

/-!
# Characters of written numbers

Whatever the layout, the text of a finite number is made of digits, points, exponents and signs
(`Binary64.occurs_of_mem_finiteText`).
-/

namespace Stencil

namespace NumberLayout

variable {layout : NumberLayout} {digits : List Char} {lead : Int} {c : Char}

/-- Besides digits, a decimal number holds a point, an exponent and what follows a whole number. -/
def Occurs (layout : NumberLayout) (c : Char) : Prop :=
  c.isDigit = true ∨ c ∈ ".e+-".toList ∨ c ∈ layout.wholeMark

/-- The characters of a number with an exponent are those the layout uses. -/
theorem occurs_of_mem_scientific (decimal : ∀ c ∈ digits, c.isDigit = true)
    (member : c ∈ layout.scientific digits lead) : layout.Occurs c := by
  have exponent (inside : c ∈ 'e' :: (if lead < 0 then '-' else '+') ::
      Text.paddedText layout.exponentWidth lead.natAbs) : layout.Occurs c := by
    rcases List.mem_cons.mp inside with rfl | inside
    · exact .inr (.inl (by decide))
    · rcases List.mem_cons.mp inside with rfl | inside
      · exact .inr (.inl (by split_ifs <;> decide))
      · exact .inl (Text.isDigit_of_mem_paddedText inside)
  rw [scientific.eq_def, List.mem_append] at member
  rcases member with inMantissa | inExponent
  · split at inMantissa
    · rcases List.mem_cons.mp inMantissa with rfl | inside
      · exact .inl (decimal c List.mem_cons_self)
      · rcases List.mem_cons.mp inside with rfl | inside
        · exact .inr (.inl (by decide))
        · exact .inl (decimal c (List.mem_cons_of_mem _ inside))
    · exact .inl (decimal c inMantissa)
  · exact exponent inExponent

/-- The characters of a number with a point are those the layout uses. -/
theorem occurs_of_mem_positional (decimal : ∀ c ∈ digits, c.isDigit = true)
    (member : c ∈ layout.positional digits lead) : layout.Occurs c := by
  have zero {count : Nat} (inside : c ∈ List.replicate count '0') : layout.Occurs c := by
    rw [List.eq_of_mem_replicate inside]
    exact .inl rfl
  have digit (inside : c ∈ digits) : layout.Occurs c := .inl (decimal c inside)
  have point : layout.Occurs '.' := .inr (.inl (by decide))
  rw [positional] at member
  dsimp only at member
  split_ifs at member
  · simp only [List.cons_append, List.mem_cons, List.mem_append] at member
    rcases member with rfl | rfl | inside | inside
    · exact .inl rfl
    · exact point
    · exact zero inside
    · exact digit inside
  · simp only [List.mem_append] at member
    rcases member with (inside | inside) | inside
    · exact digit inside
    · exact zero inside
    · exact .inr (.inr inside)
  · simp only [List.mem_append, List.mem_cons] at member
    rcases member with inside | rfl | inside
    · exact digit (List.mem_of_mem_take inside)
    · exact point
    · exact digit (List.mem_of_mem_drop inside)

/-- The characters of a written decimal number are those its layout uses. -/
theorem occurs_of_mem_write {number : Decimal} (member : c ∈ layout.write number) :
    layout.Occurs c := by
  have decimal : ∀ c ∈ ((Text.decimalText number.digits).reverse.dropWhile (· == '0')).reverse,
      c.isDigit = true := by
    intro c inside
    have kept := (List.dropWhile_sublist _).mem (List.mem_reverse.mp inside)
    exact Text.isDigit_of_mem_decimalText (List.mem_reverse.mp kept)
  rw [write] at member
  split_ifs at member
  · exact occurs_of_mem_positional decimal member
  · exact occurs_of_mem_scientific decimal member

end NumberLayout

/-- The characters in the text of a finite number. -/
theorem Binary64.occurs_of_mem_finiteText {layout : NumberLayout} {negative : Bool} {mantissa : Nat}
    {exponent : Int} {c : Char} (member : c ∈ finiteText layout negative mantissa exponent) :
    layout.Occurs c := by
  have body (inside : c ∈ if mantissa = 0 then '0' :: layout.wholeMark
      else layout.write (shortest mantissa exponent)) : layout.Occurs c := by
    split_ifs at inside
    · rcases List.mem_cons.mp inside with rfl | inside
      · exact .inl rfl
      · exact .inr (.inr inside)
    · exact NumberLayout.occurs_of_mem_write inside
  rw [finiteText] at member
  split at member
  · rcases List.mem_cons.mp member with rfl | inside
    · exact .inr (.inl (by decide))
    · exact body inside
  · exact body member

end Stencil
