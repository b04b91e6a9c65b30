/-!
# Blank characters

A blank is any character that separates words: the ASCII blanks, the four information
separators, and the spaces and line separators of other scripts. Trimming drops the blanks
around a text. The main statement is `trim_trim`: a trimmed text has nothing more to lose.
-/

namespace Stencil.Text

/-- Whether a character separates words. -/
def isBlank (c : Char) : Bool :=
  let code := c.toNat
  (0x09 ≤ code && code ≤ 0x0D) || (0x1C ≤ code && code ≤ 0x20) || code == 0x85 || code == 0xA0
    || code == 0x1680 || (0x2000 ≤ code && code ≤ 0x200A) || code == 0x2028 || code == 0x2029
    || code == 0x202F || code == 0x205F || code == 0x3000

/-- A text without the blanks in front. -/
def trimStart (text : List Char) : List Char :=
  text.dropWhile isBlank

/-- A text without the blanks at its end. -/
def trimEnd (text : List Char) : List Char :=
  (text.reverse.dropWhile isBlank).reverse

/-- A text without the blanks around it. -/
def trim (text : List Char) : List Char :=
  trimEnd (trimStart text)

/-- A text without the blanks around it, as a string. -/
def trimmed (text : String) : String :=
  String.ofList (trim text.toList)

/-- Whether a text consists of blanks. -/
def isBlankText (text : List Char) : Bool :=
  text.all isBlank

@[simp] theorem trimStart_nil : trimStart [] = [] := rfl

@[simp] theorem trim_nil : trim [] = [] := rfl

/-- Trailing blanks stay when the front is trimmed again. -/
theorem trimStart_trimStart (text : List Char) : trimStart (trimStart text) = trimStart text := by
  unfold trimStart
  induction text with
  | nil => rfl
  | cons c rest ih =>
    by_cases blank : isBlank c
    · simpa [List.dropWhile_cons, blank] using ih
    · simp [blank]

/-- A text that begins with a character that is no blank begins with it when its end is trimmed. -/
theorem trimEnd_cons {c : Char} (rest : List Char) (solid : isBlank c = false) :
    ∃ kept, trimEnd (c :: rest) = c :: kept := by
  unfold trimEnd
  rw [List.reverse_cons, List.dropWhile_append]
  split
  · exact ⟨[], by simp [solid]⟩
  · exact ⟨(rest.reverse.dropWhile isBlank).reverse, by simp⟩

/-- A text whose front is trimmed is empty or begins with a character that is no blank. -/
theorem trimStart_eq_nil_or_cons (text : List Char) :
    trimStart text = [] ∨ ∃ c rest, trimStart text = c :: rest ∧ isBlank c = false := by
  induction text with
  | nil => exact .inl rfl
  | cons c rest ih =>
    by_cases blank : isBlank c
    · simpa [trimStart, blank] using ih
    · exact .inr ⟨c, rest, by simp [trimStart, blank], by simpa using blank⟩

/-- Trimming the end twice is trimming it once. -/
theorem trimEnd_trimEnd (text : List Char) : trimEnd (trimEnd text) = trimEnd text := by
  have again := trimStart_trimStart text.reverse
  unfold trimStart at again
  simp [trimEnd, again]

/-- A trimmed text has nothing more to lose. -/
theorem trim_trim (text : List Char) : trim (trim text) = trim text := by
  have front : trimStart (trim text) = trim text := by
    unfold trim
    rcases trimStart_eq_nil_or_cons text with empty | ⟨c, rest, begins, solid⟩
    · rw [empty]
      rfl
    · obtain ⟨kept, trimmed⟩ := trimEnd_cons rest solid
      rw [begins, trimmed]
      simp [trimStart, solid]
  rw [trim, front, trim, trimEnd_trimEnd]

/-- A text holds nothing but blanks if trimming leaves nothing. -/
theorem isBlankText_iff_trimStart (text : List Char) :
    isBlankText text = true ↔ trimStart text = [] := by
  induction text with
  | nil => simp [isBlankText]
  | cons c rest ih =>
    by_cases blank : isBlank c
    · rw [isBlankText, List.all_cons, blank, Bool.true_and, trimStart,
        List.dropWhile_cons_of_pos blank]
      exact ih
    · simp [isBlankText, trimStart, blank]

end Stencil.Text
