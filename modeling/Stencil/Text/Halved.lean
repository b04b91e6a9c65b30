import Stencil.Text.Quoted

/-!
# Texts with halves of surrogate pairs

A document can spell the code of one half of a surrogate pair, which is no character. A text with
such a half is data like any other text, but no identifier. It is compared by its codes and quoted
with them; where a text of characters is wanted, the replacement character is shown in place of each
half.
-/

namespace Stencil.Text

/-- What a text is made of: a character, or one of the halves of surrogate pairs, counted from the
first one. -/
inductive Sign
  | char (c : Char)
  | half (offset : Fin 0x800)
  deriving DecidableEq, Repr

namespace Sign

/-- The code of the first half of a surrogate pair. -/
def firstHalf : Nat :=
  0xD800

/-- The sign with a code. -/
def ofCode? (code : Nat) : Option Sign :=
  if code.isValidChar then some (.char (Char.ofNat code))
  else if inside : code - firstHalf < 0x800 then some (.half ⟨code - firstHalf, inside⟩)
  else none

/-- Whether a sign is half a surrogate pair. -/
def isHalf : Sign → Bool
  | .char _ => false
  | .half _ => true

/-- The character that is shown for a sign. -/
def shown : Sign → Char
  | .char c => c
  | .half _ => '\uFFFD'

/-- A sign in a text quoted with the given delimiter. -/
def escapeWithin (delimiter : Char) : Sign → List Char
  | .char c => Text.escapeWithin delimiter c
  | .half offset => '\\' :: 'u' :: hexText 4 (firstHalf + offset)

end Sign

/-- A text that holds the half of a surrogate pair. -/
structure Halved where
  signs : List Sign
  halved : signs.any Sign.isHalf = true
  deriving DecidableEq, Repr

namespace Halved

/-- A text that is shown, with a replacement character for each half of a pair. -/
def shown (text : Halved) : String :=
  String.ofList (text.signs.map Sign.shown)

/-- A text between quotes, with an escape for each half of a pair. -/
def quoted (text : Halved) : String :=
  let delimiter := delimiterFor (text.signs.map Sign.shown)
  String.ofList (delimiter :: text.signs.flatMap (Sign.escapeWithin delimiter) ++ [delimiter])

end Halved

/-- What signs spell: a text of characters, or one with a half of a surrogate pair. -/
def ofSigns (signs : List Sign) : String ⊕ Halved :=
  if halved : signs.any Sign.isHalf = true then .inr ⟨signs, halved⟩
  else .inl (String.ofList (signs.map Sign.shown))

/-- Signs that are characters spell the text of them. -/
theorem ofSigns_map_char (chars : List Char) :
    ofSigns (chars.map .char) = .inl (String.ofList chars) := by
  have whole : ¬ (chars.map Sign.char).any Sign.isHalf = true := by
    simp [Sign.isHalf]
  rw [ofSigns, dif_neg whole, List.map_map]
  exact congrArg (Sum.inl ∘ String.ofList) (List.map_id chars)

end Stencil.Text
