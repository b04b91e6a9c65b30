import Mathlib.Data.List.Basic
import Mathlib.Tactic.SplitIfs
import Stencil.Proofs.Text.Pieces
import Stencil.Template.Step

/-!
# Arguments between colons

A step is cut at its colons, except those behind a quote that opens an argument. An argument is
whole if it would not be cut and leaves no quote open behind it (`IsWhole`); it is open if a quote
opens it that it does not close (`IsOpen`). Every other text is cut inside. So arguments that are
written with colons between them are found again exactly if all are whole, the last one perhaps
open (`pieces_intercalate_iff`). Reading an argument drops the quotes that it is wrapped in, and
leaves it as it is otherwise (`unquote_eq_self_iff`). Both together say which arguments are read
as they were written: those that `Stand` (`read_intercalate_iff`).
-/

namespace Stencil.Step

open Text

/-- An argument that is not cut and closes the quote that opens it, if one does. -/
inductive IsWhole : List Char → Prop
  | bare {arg : List Char} (unquoted : ∀ c ∈ (trimStart arg).head?, isQuote c = false)
    (noColon : ':' ∉ arg) : IsWhole arg
  | quoted {blanks : List Char} {quote : Char} {inner rest : List Char}
    (blank : isBlankText blanks = true) (opens : isQuote quote = true) (within : quote ∉ inner)
    (noColon : ':' ∉ rest) : IsWhole (blanks ++ quote :: (inner ++ quote :: rest))

/-- An argument that is opened by a quote and does not close it. -/
inductive IsOpen : List Char → Prop
  | intro {blanks : List Char} {quote : Char} {inner : List Char}
    (blank : isBlankText blanks = true) (opens : isQuote quote = true) (within : quote ∉ inner) :
    IsOpen (blanks ++ quote :: inner)

/-- An argument that stands in quotes, blanks aside. -/
def IsWrapped (arg : List Char) : Prop :=
  ∃ quote inner, isQuote quote = true ∧ trim arg = quote :: (inner ++ [quote])

/-- Arguments that are found again when they are written with colons between them. -/
def AreApart : List (List Char) → Prop
  | [] => True
  | [last] => IsWhole last ∨ IsOpen last
  | arg :: next :: rest => IsWhole arg ∧ AreApart (next :: rest)

/-- Arguments that are read as they were written: they are found again, none of them is wrapped in
quotes, and no blank stands behind the last. -/
structure Stand (args : List (List Char)) : Prop where
  apart : AreApart args
  unwrapped : ∀ arg ∈ args, ¬ IsWrapped arg
  solid : ∀ last ∈ args.getLast?, EndsSolid last

theorem stand_nil : Stand [] :=
  ⟨trivial, by simp, by simp⟩

section Pieces

variable {piece part : List Char} {quote : Char}

/-- A quote is not blank. -/
theorem isBlank_of_isQuote {c : Char} (opens : isQuote c = true) : isBlank c = false := by
  rw [isQuote, Bool.or_eq_true, beq_iff_eq, beq_iff_eq] at opens
  rcases opens with rfl | rfl <;> decide

/-- A quote is no colon. -/
theorem ne_colon_of_isQuote {c : Char} (opens : isQuote c = true) : c ≠ ':' := by
  rintro rfl
  cases opens

/-- A part without colons is read on, unless a quote opens it where a quote may. -/
theorem pieces_append_of_noColon (noColon : ':' ∉ part)
    (unquoted : isBlankText piece = true → ∀ c ∈ (trimStart part).head?, isQuote c = false)
    (rest : List Char) :
    pieces piece none (part ++ rest) = pieces (part.reverse ++ piece) none rest := by
  induction part generalizing piece with
  | nil => rfl
  | cons c behind ih =>
    rw [List.mem_cons, not_or] at noColon
    have closed : (isQuote c && isBlankText piece) = false := by
      by_contra opens
      rw [Bool.not_eq_false, Bool.and_eq_true] at opens
      have first : c ∈ (trimStart (c :: behind)).head? := by
        rw [trimStart, List.dropWhile_cons_of_neg (by simp [isBlank_of_isQuote opens.1])]
        rfl
      rw [unquoted opens.2 c first] at opens
      cases opens.1
    rw [List.cons_append, pieces, if_neg (Ne.symm noColon.1), closed]
    refine (ih noColon.2 fun blank => ?_).trans (by simp)
    rw [isBlankText, List.all_cons, Bool.and_eq_true] at blank
    have shown := unquoted blank.2
    rwa [trimStart, List.dropWhile_cons_of_pos blank.1] at shown

/-- What stands behind an open quote is read on up to the next one. -/
theorem pieces_append_of_within (within : quote ∉ part) (rest : List Char) :
    pieces piece (some quote) (part ++ rest) =
      pieces (part.reverse ++ piece) (some quote) rest := by
  induction part generalizing piece with
  | nil => rfl
  | cons c behind ih =>
    rw [List.mem_cons, not_or] at within
    rw [List.cons_append, pieces, if_neg (Ne.symm within.1), ih within.2, List.reverse_cons,
      List.append_assoc, List.singleton_append]

/-- A quote behind nothing but blanks opens. -/
theorem pieces_append_quote {blanks : List Char} (blank : isBlankText blanks = true)
    (opens : isQuote quote = true) (rest : List Char) :
    pieces [] none (blanks ++ quote :: rest) =
      pieces (quote :: blanks.reverse) (some quote) rest := by
  have noColon : ':' ∉ blanks := fun member => by
    have impossible : isBlank ':' = true := List.all_eq_true.mp blank ':' member
    revert impossible
    decide
  have front : trimStart blanks = [] := (isBlankText_iff_trimStart blanks).mp blank
  have mirrored : isBlankText blanks.reverse = true := by rwa [isBlankText, List.all_reverse]
  rw [pieces_append_of_noColon noColon (by simp [front]), List.append_nil, pieces,
    if_neg (ne_colon_of_isQuote opens), opens, mirrored]
  rfl

/-- A whole argument is read on, and no quote is open behind it. -/
theorem pieces_append_of_isWhole {arg : List Char} (whole : IsWhole arg) (rest : List Char) :
    pieces [] none (arg ++ rest) = pieces arg.reverse none rest := by
  cases whole with
  | bare unquoted noColon =>
    rw [pieces_append_of_noColon noColon fun _ => unquoted, List.append_nil]
  | @quoted blanks quote inner behind blank opens within noColon =>
    have filled : isBlankText (quote :: (inner.reverse ++ quote :: blanks.reverse)) = false := by
      rw [isBlankText, List.all_cons, isBlank_of_isQuote opens, Bool.false_and]
    rw [List.append_assoc, List.cons_append, List.append_assoc, List.cons_append,
      pieces_append_quote blank opens, pieces_append_of_within within, pieces, if_pos rfl,
      pieces_append_of_noColon noColon (by simp [filled])]
    simp

/-- An open argument is read on, and its quote is open behind it. -/
theorem pieces_append_of_isOpen {arg : List Char} (isOpen : IsOpen arg) :
    ∃ quote, ∀ rest, pieces [] none (arg ++ rest) = pieces arg.reverse (some quote) rest := by
  cases isOpen with
  | @intro blanks quote inner blank opens within =>
    refine ⟨quote, fun rest => ?_⟩
    rw [List.append_assoc, List.cons_append, pieces_append_quote blank opens,
      pieces_append_of_within within]
    simp

/-- The first piece begins with what was read of it. -/
theorem exists_pieces_eq_cons (piece : List Char) (open? : Option Char) (text : List Char) :
    ∃ more others, pieces piece open? text = (piece.reverse ++ more) :: others := by
  induction text generalizing piece open? with
  | nil => exact ⟨[], [], by simp [pieces]⟩
  | cons c rest ih =>
    cases open? with
    | some quote =>
      obtain ⟨more, others, found⟩ := ih (c :: piece) (if c = quote then none else some quote)
      exact ⟨c :: more, others, by simp [pieces, found]⟩
    | none =>
      rw [pieces]
      split_ifs with colon
      · exact ⟨[], pieces [] none rest, by simp⟩
      · obtain ⟨more, others, found⟩ :=
          ih (c :: piece) (if (isQuote c && isBlankText piece) = true then some c else none)
        exact ⟨c :: more, others, found.trans (by simp)⟩

/-- With colons between them the pieces are the text again. -/
theorem intercalate_pieces (piece : List Char) (open? : Option Char) (text : List Char) :
    [':'].intercalate (pieces piece open? text) = piece.reverse ++ text := by
  induction text generalizing piece open? with
  | nil => simp [pieces]
  | cons c rest ih =>
    cases open? with
    | some quote => rw [pieces, ih, List.reverse_cons, ← List.append_cons]
    | none =>
      rw [pieces]
      split_ifs with colon
      · obtain ⟨more, others, found⟩ := exists_pieces_eq_cons [] none rest
        rw [List.intercalate_cons_of_ne_nil (by simp [found]), ih, colon]
        simp
      · rw [ih, List.reverse_cons, ← List.append_cons]

theorem head?_trimStart_append {front : List Char} {c : Char}
    (first : c ∈ (trimStart front).head?) (back : List Char) :
    c ∈ (trimStart (front ++ back)).head? := by
  obtain ⟨rest, begins⟩ := List.head?_eq_some_iff.mp first
  rw [trimStart] at begins
  rw [trimStart, List.dropWhile_append, begins]
  rfl

/-- An argument is whole or open, or it is cut behind a whole front. -/
theorem isWhole_or_isOpen_or_cut (arg : List Char) :
    IsWhole arg ∨ IsOpen arg ∨ ∃ front back, arg = front ++ ':' :: back ∧ IsWhole front := by
  by_cases unquoted : ∀ c ∈ (trimStart arg).head?, isQuote c = false
  · by_cases colon : ':' ∈ arg
    · obtain ⟨front, back, rfl, noColon⟩ := List.eq_append_cons_of_mem colon
      have bare : IsWhole front :=
        .bare (fun c first => unquoted c (head?_trimStart_append first _)) noColon
      exact .inr (.inr ⟨front, back, rfl, bare⟩)
    · exact .inl (.bare unquoted colon)
  · obtain ⟨quote, first, opens⟩ : ∃ quote ∈ (trimStart arg).head?, isQuote quote = true := by
      simpa using unquoted
    obtain ⟨behind, begins⟩ := List.head?_eq_some_iff.mp first
    have blank : isBlankText (arg.takeWhile isBlank) = true := List.all_takeWhile
    have whole : arg = arg.takeWhile isBlank ++ quote :: behind := by
      rw [← begins, trimStart, List.takeWhile_append_dropWhile]
    rw [whole]
    by_cases closes : quote ∈ behind
    · obtain ⟨inner, rest, rfl, within⟩ := List.eq_append_cons_of_mem closes
      by_cases colon : ':' ∈ rest
      · obtain ⟨front, back, rfl, noColon⟩ := List.eq_append_cons_of_mem colon
        exact .inr (.inr ⟨_, back, by simp, .quoted blank opens within noColon⟩)
      · exact .inl (.quoted blank opens within colon)
    · exact .inr (.inl (.intro blank opens closes))

/-- The first of several arguments is found again only if it is whole. -/
theorem pieces_append_colon_of_not_isWhole {arg : List Char} (cut : ¬ IsWhole arg)
    (behind : List Char) :
    ∃ piece others, pieces [] none (arg ++ ':' :: behind) = piece :: others ∧ piece ≠ arg := by
  rcases isWhole_or_isOpen_or_cut arg with whole | isOpen | ⟨front, back, rfl, whole⟩
  · exact absurd whole cut
  · obtain ⟨quote, goesOn⟩ := pieces_append_of_isOpen isOpen
    obtain ⟨more, others, found⟩ := exists_pieces_eq_cons
      (':' :: arg.reverse) (if ':' = quote then none else some quote) behind
    refine ⟨arg ++ ':' :: more, others, ?_, by simp⟩
    rw [goesOn, pieces, found]
    simp
  · refine ⟨front, pieces [] none (back ++ ':' :: behind), ?_, by simp⟩
    rw [List.append_assoc, pieces_append_of_isWhole whole, List.cons_append, pieces, if_pos rfl,
      List.reverse_reverse]

/-- An argument is one piece if and only if it is whole or left open. -/
theorem pieces_eq_singleton_iff {arg : List Char} :
    pieces [] none arg = [arg] ↔ IsWhole arg ∨ IsOpen arg := by
  constructor
  · intro single
    rcases isWhole_or_isOpen_or_cut arg with whole | isOpen | ⟨front, back, rfl, whole⟩
    · exact .inl whole
    · exact .inr isOpen
    · rw [pieces_append_of_isWhole whole, pieces, if_pos rfl, List.cons.injEq] at single
      obtain ⟨more, others, found⟩ := exists_pieces_eq_cons [] none back
      rw [found] at single
      cases single.2
  · rintro (whole | isOpen)
    · have goesOn := pieces_append_of_isWhole whole []
      rwa [List.append_nil, pieces, List.reverse_reverse] at goesOn
    · obtain ⟨quote, goesOn⟩ := pieces_append_of_isOpen isOpen
      have last := goesOn []
      rwa [List.append_nil, pieces, List.reverse_reverse] at last

/-- **Arguments are found again** between the colons exactly if each of them is whole, or the last
one open. -/
theorem pieces_intercalate_iff {args : List (List Char)} (some : args ≠ []) :
    pieces [] none ([':'].intercalate args) = args ↔ AreApart args := by
  induction args with
  | nil => exact absurd rfl some
  | cons arg rest ih =>
    cases rest with
    | nil => rw [List.intercalate_singleton, pieces_eq_singleton_iff, AreApart]
    | cons next others =>
      rw [List.intercalate_cons_cons, List.append_assoc, List.singleton_append, AreApart,
        ← ih (List.cons_ne_nil next others)]
      by_cases whole : IsWhole arg
      · rw [pieces_append_of_isWhole whole, pieces, if_pos rfl, List.reverse_reverse]
        simp [whole]
      · obtain ⟨piece, found, cut, differ⟩ := pieces_append_colon_of_not_isWhole whole
          ([':'].intercalate (next :: others))
        simp [whole, cut, differ]

end Pieces

section Read

variable {arg : List Char} {args : List (List Char)}

/-- A wrapped argument loses its quotes. -/
theorem unquote_of_isWrapped {quote : Char} {inner : List Char} (opens : isQuote quote = true)
    (wraps : trim arg = quote :: (inner ++ [quote])) : unquote arg = inner := by
  obtain ⟨second, rest, behind⟩ : ∃ second rest, inner ++ [quote] = second :: rest :=
    List.exists_cons_of_ne_nil (by simp)
  have closes : (inner ++ [quote]).getLast? = some quote := List.getLast?_concat
  have kept : (inner ++ [quote]).dropLast = inner := List.dropLast_concat
  rw [behind] at closes kept
  rw [unquote, wraps, behind]
  simp only [opens, closes, kept, beq_self_eq_true, Bool.and_self, if_true]

/-- A bare argument keeps all its characters. -/
theorem unquote_of_not_isWrapped (bare : ¬ IsWrapped arg) : unquote arg = arg := by
  rw [unquote]
  split
  · rename_i quote second rest wraps
    dsimp only
    split_ifs with wrapped
    · rw [Bool.and_eq_true, beq_iff_eq] at wrapped
      obtain ⟨inner, closes⟩ := List.getLast?_eq_some_iff.mp wrapped.2
      exact absurd ⟨quote, inner, wrapped.1, wraps.trans (congrArg (quote :: ·) closes)⟩ bare
    · rfl
  · rfl

/-- A wrapped argument gets shorter without its quotes. -/
theorem length_unquote_lt (wrapped : IsWrapped arg) : (unquote arg).length < arg.length := by
  obtain ⟨quote, inner, opens, wraps⟩ := wrapped
  have inside : trim arg <:+: arg := trim_infix arg
  have whole := inside.length_le
  rw [wraps, List.length_cons, List.length_append] at whole
  rw [unquote_of_isWrapped opens wraps]
  omega

/-- An argument is read as it stands unless it is wrapped in quotes. -/
theorem unquote_eq_self_iff : unquote arg = arg ↔ ¬ IsWrapped arg := by
  refine ⟨fun same wrapped => ?_, unquote_of_not_isWrapped⟩
  have shorter := length_unquote_lt wrapped
  rw [same] at shorter
  exact absurd shorter (Nat.lt_irrefl _)

/-- Arguments are read as they stand, or the text that they make gets shorter. -/
theorem map_unquote_eq_or_length_lt (args : List (List Char)) : args.map unquote = args ∨
    ([':'].intercalate (args.map unquote)).length < ([':'].intercalate args).length := by
  induction args with
  | nil => exact .inl rfl
  | cons arg rest ih =>
    have first : unquote arg = arg ∨ (unquote arg).length < arg.length :=
      (em (IsWrapped arg)).symm.imp unquote_of_not_isWrapped length_unquote_lt
    cases rest with
    | nil => simpa using first
    | cons next others =>
      rw [List.map_cons] at ih
      rw [List.map_cons, List.map_cons, List.intercalate_cons_cons, List.intercalate_cons_cons]
      simp only [List.length_append]
      rcases first with same | shorter <;> rcases ih with all | less
      · exact .inl (by rw [same, all])
      · exact .inr (by rw [same]; omega)
      · exact .inr (by rw [all]; omega)
      · exact .inr (by omega)

/-- **Arguments are read as they were written** exactly if they stand. -/
theorem read_intercalate_iff (some : args ≠ []) :
    (pieces [] none (trimEnd ([':'].intercalate args))).map unquote = args ↔ Stand args := by
  constructor
  · intro read
    have whole := intercalate_pieces [] none (trimEnd ([':'].intercalate args))
    rw [List.reverse_nil, List.nil_append] at whole
    -- what is read is no longer than the pieces, and these are no longer than what was written
    have same : pieces [] none (trimEnd ([':'].intercalate args)) = args := by
      rcases map_unquote_eq_or_length_lt (pieces [] none (trimEnd ([':'].intercalate args)))
        with all | shorter
      · rw [← all, read]
      · have bound := (trimEnd_isPrefix ([':'].intercalate args)).length_le
        rw [read, whole] at shorter
        omega
    rw [same] at whole read
    rw [← whole] at same
    exact {
      apart := (pieces_intercalate_iff some).mp same
      unwrapped := fun arg member => unquote_eq_self_iff.mp
        (List.map_inj_left.mp (read.trans (List.map_id args).symm) arg member)
      solid := (endsSolid_intercalate_iff (by decide)).mp ((trimEnd_eq_self_iff _).mp whole.symm) }
  · intro stand
    rw [(trimEnd_eq_self_iff _).mpr ((endsSolid_intercalate_iff (by decide)).mpr stand.solid),
      (pieces_intercalate_iff some).mpr stand.apart]
    refine (List.map_congr_left fun arg member => ?_).trans (List.map_id _)
    exact unquote_of_not_isWrapped (stand.unwrapped arg member)

end Read
end Stencil.Step
