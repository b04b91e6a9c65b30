/-!
# Searching and replacing

Occurrences of one text in another, found from the left and without overlap. The main statement is
`occursIn_iff`: a part occurs in a text if it is an infix of it.
-/

namespace Stencil.Text

/-- Whether a part occurs in a text. -/
def occursIn (part : List Char) : List Char → Bool
  | [] => part.isEmpty
  | c :: rest => part.isPrefixOf (c :: rest) || occursIn part rest

/-- A text with the first occurrence of `old` replaced; `old` is not empty. -/
def replaceFirst (old new : List Char) : List Char → List Char
  | [] => []
  | c :: rest =>
    if old.isPrefixOf (c :: rest) then new ++ (c :: rest).drop old.length
    else c :: replaceFirst old new rest

/-- A text with every occurrence of `old` replaced, its first `skip` characters dropped. -/
def replaceFrom (old new : List Char) : (skip : Nat) → List Char → List Char
  | _, [] => []
  | skip + 1, _ :: rest => replaceFrom old new skip rest
  | 0, c :: rest =>
    if old.isPrefixOf (c :: rest) then new ++ replaceFrom old new (old.length - 1) rest
    else c :: replaceFrom old new 0 rest

/-- A text with every occurrence of `old` replaced by `new`. The empty text occurs before every
character and at the end. -/
def replaceAll (old new text : List Char) : List Char :=
  if old.isEmpty then new ++ text.flatMap (· :: new) else replaceFrom old new 0 text

/-- A part occurs in a text if it is an infix of it. -/
theorem occursIn_iff (part text : List Char) : occursIn part text = true ↔ part <:+: text := by
  induction text with
  | nil => simp [occursIn]
  | cons c rest ih =>
    rw [occursIn, Bool.or_eq_true, ih, List.isPrefixOf_iff_prefix, List.infix_cons_iff]

/-- Skipping characters is replacing in what is left of the text. -/
theorem replaceFrom_eq_drop (old new : List Char) (skip : Nat) (text : List Char) :
    replaceFrom old new skip text = replaceFrom old new 0 (text.drop skip) := by
  induction skip generalizing text with
  | zero => simp
  | succ skip ih =>
    cases text with
    | nil => rfl
    | cons c rest => simpa [replaceFrom] using ih rest

end Stencil.Text
