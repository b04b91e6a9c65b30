import Mathlib.Tactic.SplitIfs
import Stencil.Proofs.Json.Written
import Stencil.Proofs.Outcome
import Stencil.Proofs.Text.Pieces
import Stencil.Proofs.Yaml.Cursor
import Stencil.Yaml.Quoted

/-!
# Texts in quotes of one format in the other

A text in quotes whose parts are portable is a quoted scalar of a YAML document with the same
meaning (`Quoted.scalar_quotedChars`). Runs of spaces are what makes this more than a matter of
single parts: they are read at once.
-/

namespace Stencil

/-- The sign that a part of a text stands for. -/
def Json.Piece.sign (part : Json.Piece) : Text.Sign :=
  .char part.meaning

namespace Yaml

open Outcome Json

namespace Quoted

variable {cursor : Cursor} {rest : List Char}

/-- The letters behind a backslash mean the same. -/
theorem escape?_of_unescape? {letter meaning : Char} (known : unescape? letter = some meaning) :
    escape? letter = some meaning := by
  unfold unescape? at known
  split at known <;> cases known <;> rfl

/-- The letters of an escape are those of the other format. -/
theorem mem_of_unescape? {letter meaning : Char} (known : unescape? letter = some meaning) :
    letter ∈ "\"\\/bfnrt".toList := by
  unfold unescape? at known
  split at known <;> first | decide | cases known

/-- A character that may stand in a document without ending a line. -/
def IsInline (c : Char) : Prop :=
  Token.isAllowed c = true ∧ isBreak c = false

/-- A hexadecimal digit can stand in a line. -/
theorem isInline_of_hexValue? {c : Char} (hex : (Text.hexValue? c).isSome = true) :
    IsInline c := by
  constructor
  · simp only [Text.hexValue?, Char.le_def, UInt32.le_iff_toNat_le] at hex
    have within : 0x20 ≤ c.toNat ∧ c.toNat ≤ 0x7E := by
      split_ifs at hex with digit small large
      · have low : 48 ≤ c.toNat := digit.1
        have high : c.toNat ≤ 57 := digit.2
        omega
      · have low : 97 ≤ c.toNat := small.1
        have high : c.toNat ≤ 102 := small.2
        omega
      · have low : 65 ≤ c.toNat := large.1
        have high : c.toNat ≤ 70 := large.2
        omega
      · cases hex
    simp [Token.isAllowed, within.1, within.2]
  · rw [← Bool.not_eq_true]
    intro ends
    simp only [isBreak, Bool.or_eq_true, beq_iff_eq] at ends
    rcases ends with (((rfl | rfl) | rfl) | rfl) | rfl <;> cases hex

/-- A code that is no half of a pair is that of a character. -/
theorem signOf_number {unit : Unit16} (whole : unit.number < 0xD800 ∨ 0xE000 ≤ unit.number) :
    signOf unit.number = .ok (.char (Char.ofNat unit.number)) := by
  have small := unit.number_lt
  have valid : unit.number.isValidChar := by
    rw [Nat.isValidChar]
    omega
  rw [signOf, Text.Sign.ofCode?, if_pos valid]

/-- A portable character of a text that is no space is no blank. -/
theorem isGap_of_bare {c : Char} {free : 0x20 ≤ c.toNat ∧ c ≠ '"' ∧ c ≠ '\\'}
    (portable : (Piece.bare c free).isPortable = true) (solid : c ≠ ' ') :
    isGap (some c) = false := by
  rw [Piece.isPortable, Bool.and_eq_true, Bool.not_eq_true'] at portable
  have noTab : c ≠ '\t' := by
    rintro rfl
    exact absurd free.1 (by decide)
  simp [isGap, isSpace, portable.2, solid, noTab]

/-- The four digits of a whole unit are read as its character. -/
theorem escaped_unit {unit : Unit16} (whole : unit.number < 0xD800 ∨ 0xE000 ≤ unit.number)
    (left : cursor.rest = 'u' :: (unit.digits ++ rest)) :
    escaped cursor = .ok ([.char (Char.ofNat unit.number)], cursor.skip 5) := by
  have digits : (unit.digits ++ rest).take 4 = unit.digits := by
    rw [← unit.four, List.take_left]
  have valid : (decide (unit.digits.length = 4) &&
      unit.digits.all (Text.hexValue? · |>.isSome)) = true := by
    rw [Bool.and_eq_true, decide_eq_true_iff, List.all_eq_true]
    exact ⟨unit.four, unit.hex⟩
  rw [escaped, left]
  change (if (decide (((unit.digits ++ rest).take 4).length = 4) && _) = true then _ else _) = _
  rw [digits, if_pos valid]
  change (do return ([← signOf unit.number], cursor.skip 5)) = _
  rw [signOf_number whole]
  rfl

/-- A part of a text that is not a space is read as the character that it stands for. -/
theorem piece_part {part : Piece} (portable : part.isPortable = true) (solid : part.chars ≠ [' '])
    (left : cursor.rest = part.chars ++ rest) :
    piece '"' cursor = .ok (some [.char part.meaning], cursor.skip part.chars.length) := by
  cases part with
  | bare c free =>
    have noGap := isGap_of_bare portable fun space => solid (by rw [Piece.chars, space])
    rw [piece, left]
    simp [Piece.chars, Piece.meaning, free.2.1, free.2.2, noGap, Cursor.skip]
  | escape letter meaning known =>
    have read : escaped cursor.forward = .ok ([.char meaning], cursor.forward.forward) := by
      rw [escaped, Cursor.rest_forward, left]
      simp [Piece.chars, escape?_of_unescape? known]
    rw [piece, left]
    simp only [Piece.chars, List.cons_append, read]
    rfl
  | code unit whole =>
    have read : escaped cursor.forward =
        .ok ([.char (Char.ofNat unit.number)], cursor.forward.skip 5) := by
      apply escaped_unit whole
      rw [Cursor.rest_forward, left]
      rfl
    have length : (Piece.code unit whole).chars.length = 6 := by
      simp [Piece.chars, unit.four]
    rw [length, piece, left]
    simp only [Piece.chars, List.cons_append, read]
    rfl
  | pair high low first second => cases portable

/-- A run of spaces in front of another character is read at once. -/
theorem piece_spaces {count : Nat} {c : Char}
    (left : cursor.rest = List.replicate (count + 1) ' ' ++ c :: rest)
    (solid : isGap (some c) = false) :
    piece '"' cursor =
      .ok (some (List.replicate (count + 1) (.char ' ')), cursor.skip (count + 1)) := by
  have apart : isSpace c = false ∧ isBreak c = false := Bool.or_eq_false_iff.mp solid
  have run : cursor.run isSpace = List.replicate (count + 1) ' ' := by
    apply Cursor.run_append left
    · intro d member
      rw [(List.mem_replicate.mp member).2]
      rfl
    · intro d first
      cases first
      exact apart.1
  have behind : (cursor.skip (count + 1)).rest = c :: rest := by
    simpa only [List.length_replicate] using Cursor.rest_skip_append left
  rw [piece, left, List.replicate_succ, List.cons_append]
  simp only [Cursor.skipWhile, run, List.length_replicate, behind, Cursor.next, endsLine]
  simp [isGap, isSpace, apart.2, List.replicate_succ]

/-- Spaces in front of what can be read are read with it. -/
theorem scalarFrom_spaces {count length steps : Nat} {c : Char} {text : List Text.Sign}
    (solid : isGap (some c) = false)
    (read : ∀ steps cursor, Cursor.rest cursor = c :: rest → length < steps →
      scalarFrom '"' steps cursor = .ok (text, cursor.skip (length + 1)))
    (left : cursor.rest = List.replicate count ' ' ++ c :: rest) (enough : count + length < steps) :
    scalarFrom '"' steps cursor =
      .ok (List.replicate count (.char ' ') ++ text, cursor.skip (count + length + 1)) := by
  cases count with
  | zero => simpa using read steps cursor left (by omega)
  | succ count =>
    obtain ⟨steps, rfl⟩ : ∃ fewer, steps = fewer + 1 := ⟨steps - 1, by omega⟩
    have behind : (cursor.skip (count + 1)).rest = c :: rest := by
      simpa only [List.length_replicate] using Cursor.rest_skip_append left
    rw [scalarFrom, piece_spaces left solid, ok_bind]
    dsimp only
    rw [read steps _ behind (by omega), ok_bind, Cursor.skip_skip, ← Nat.add_assoc]
    rfl

/-- A part of a text that is no space begins with no blank. -/
theorem exists_chars {part : Piece} (portable : part.isPortable = true)
    (solid : part.chars ≠ [' ']) : ∃ c rest, part.chars = c :: rest ∧ isGap (some c) = false := by
  cases part with
  | bare c free =>
    exact ⟨c, [], rfl, isGap_of_bare portable fun space => solid (by rw [Piece.chars, space])⟩
  | escape letter meaning known => exact ⟨'\\', [letter], rfl, rfl⟩
  | code unit whole => exact ⟨'\\', _, rfl, rfl⟩
  | pair high low first second => cases portable

/-- A part that is no space is read in front of what can be read. -/
theorem scalarFrom_part {part : Piece} {length steps : Nat} {text : List Text.Sign}
    (portable : part.isPortable = true) (solid : part.chars ≠ [' '])
    (left : cursor.rest = part.chars ++ rest)
    (read : ∀ steps, length < steps → scalarFrom '"' steps (cursor.skip part.chars.length) =
      .ok (text, (cursor.skip part.chars.length).skip (length + 1)))
    (enough : part.chars.length + length < steps) :
    scalarFrom '"' steps cursor =
      .ok (.char part.meaning :: text, cursor.skip (part.chars.length + length + 1)) := by
  obtain ⟨c, others, begins, -⟩ := exists_chars portable solid
  have size : part.chars.length = others.length + 1 := congrArg List.length begins
  obtain ⟨steps, rfl⟩ : ∃ fewer, steps = fewer + 1 := ⟨steps - 1, by omega⟩
  rw [scalarFrom, piece_part portable solid left, ok_bind]
  dsimp only
  rw [read steps (by omega), ok_bind, Cursor.skip_skip, Nat.add_assoc]
  rfl

/-- The rest of a text in quotes, with some spaces in front, is read as what its parts stand for. -/
theorem scalarFrom_parts {parts : List Piece} (portable : ∀ part ∈ parts, part.isPortable = true)
    {count steps : Nat} (left : cursor.rest =
      List.replicate count ' ' ++ (parts.flatMap Piece.chars ++ '"' :: rest))
    (enough : count + (parts.flatMap Piece.chars).length < steps) :
    scalarFrom '"' steps cursor = .ok (List.replicate count (.char ' ') ++ parts.map Piece.sign,
      cursor.skip (count + (parts.flatMap Piece.chars).length + 1)) := by
  induction parts generalizing cursor count steps with
  | nil =>
    apply scalarFrom_spaces rfl _ left enough
    intro steps cursor left enough
    obtain ⟨steps, rfl⟩ : ∃ fewer, steps = fewer + 1 := ⟨steps - 1, by omega⟩
    rw [scalarFrom, piece, left]
    rfl
  | cons part parts ih =>
    rw [List.forall_mem_cons] at portable
    rw [List.flatMap_cons] at left enough ⊢
    by_cases space : part.chars = [' ']
    · have sign : part.sign = .char ' ' := by
        cases part <;> cases space
        rfl
      have longer {α : Type} (one : α) :
          List.replicate (count + 1) one = List.replicate count one ++ [one] :=
        List.replicate_succ'
      have enoughBelow : count + 1 + (parts.flatMap Piece.chars).length < steps := by
        simp only [space, List.length_append, List.length_singleton] at enough
        omega
      have read := @ih cursor portable.2 (count + 1) steps
        (by rw [left, space, longer]; simp) enoughBelow
      rw [read, longer, space, List.map_cons, sign]
      simp [Nat.add_assoc, Nat.add_comm 1]
    · obtain ⟨c, others, begins, solid⟩ := exists_chars portable.1 space
      have read (steps : Nat) (cursor : Cursor)
          (left : cursor.rest = c :: (others ++ (parts.flatMap Piece.chars ++ '"' :: rest)))
          (enough : (part.chars ++ parts.flatMap Piece.chars).length < steps) :
          scalarFrom '"' steps cursor = .ok (part.sign :: parts.map Piece.sign,
            cursor.skip ((part.chars ++ parts.flatMap Piece.chars).length + 1)) := by
        rw [← List.cons_append, ← begins] at left
        rw [List.length_append] at enough ⊢
        refine scalarFrom_part portable.1 space left (fun steps short => ?_) enough
        have behind := @ih (cursor.skip part.chars.length) portable.2 0 steps
          (Cursor.rest_skip_append left)
        rw [Nat.zero_add] at behind
        exact behind short
      rw [List.append_assoc, begins, List.cons_append] at left
      exact scalarFrom_spaces solid read left enough

/-- **A portable text in quotes** is a quoted scalar of the text that it stands for. -/
theorem scalar_quotedChars {parts : List Piece} (portable : ∀ part ∈ parts, part.isPortable = true)
    (left : cursor.rest = quotedChars parts ++ rest) :
    scalar '"' cursor =
      .ok ((parts.map Piece.meaning).map .char, cursor.skip (quotedChars parts).length) := by
  have behind : cursor.forward.rest =
      List.replicate 0 ' ' ++ (parts.flatMap Piece.chars ++ '"' :: rest) := by
    rw [Cursor.rest_forward, left]
    simp [quotedChars]
  have enough : 0 + (parts.flatMap Piece.chars).length < cursor.rest.length + 1 := by
    rw [left, quotedChars]
    simp
    omega
  have length : 1 + (0 + (parts.flatMap Piece.chars).length + 1) = (quotedChars parts).length := by
    rw [quotedChars, List.length_append, List.length_cons, List.length_singleton]
    omega
  rw [scalar, scalarFrom_parts portable behind enough, Cursor.forward_eq_skip, Cursor.skip_skip,
    length, List.map_map]
  rfl

/-- The characters of a portable piece can stand in a line. -/
theorem isInline_chars {part : Piece} (portable : part.isPortable = true) {c : Char}
    (member : c ∈ part.chars) : IsInline c := by
  have marks : ∀ c ∈ "\"\\/bfnrtu".toList, Token.isAllowed c = true ∧ isBreak c = false :=
    Text.forall_mem_of_all (by decide)
  cases part with
  | bare d free =>
    rw [Piece.chars, List.mem_singleton] at member
    rw [Piece.isPortable, Bool.and_eq_true, Bool.not_eq_true'] at portable
    rw [member]
    exact portable
  | escape letter meaning known =>
    rcases List.mem_cons.mp member with rfl | behind
    · exact marks '\\' (by decide)
    · rw [List.mem_singleton.mp behind]
      exact marks letter (List.mem_append_left ['u'] (mem_of_unescape? known))
  | code unit whole =>
    rcases List.mem_cons.mp member with rfl | behind
    · exact marks '\\' (by decide)
    · rcases List.mem_cons.mp behind with rfl | digit
      · exact marks 'u' (by decide)
      · exact isInline_of_hexValue? (unit.hex c digit)
  | pair high low first second => cases portable

/-- A portable text in quotes may stand in a document and does so on one line. -/
theorem isInline_quotedChars {parts : List Piece}
    (portable : ∀ part ∈ parts, part.isPortable = true) {c : Char}
    (member : c ∈ quotedChars parts) : IsInline c := by
  rw [quotedChars] at member
  rcases List.mem_append.mp member with front | last
  · rcases List.mem_cons.mp front with rfl | inside
    · exact ⟨rfl, rfl⟩
    · obtain ⟨part, among, here⟩ := List.mem_flatMap.mp inside
      exact isInline_chars (portable part among) here
  · rw [List.mem_singleton.mp last]
    exact ⟨rfl, rfl⟩

end Quoted
end Yaml
end Stencil
