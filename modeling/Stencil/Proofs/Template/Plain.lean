import Stencil.Context.Flatten
import Stencil.Proofs.Template.Name

/-!
# Names that are paths

A name is plain if, read as a path, it is a single segment: itself (`Path.IsPlain`). Identifiers
are plain names, and so is every part of a path without indexes (`Path.isPlain_iff`). Plain names
that are put together with points are read as the path of these names (`Path.parse_joined`), and so
the text that they make determines them (`Path.joined_injective`).
-/

namespace Stencil.Path

open Outcome

/-- Whether a name stands for itself when it is read as a path. -/
def IsPlain (name : String) : Prop :=
  parse name = .ok [⟨name, []⟩]

/-- The path through maps under some names. -/
def ofNames (names : List String) : Path :=
  names.map fun name => ⟨name, []⟩

/-- Names put together as a walk through maps does. -/
def joined (names : List String) : String :=
  names.foldl joinPath ""

/-- A part is its name with indexes behind it. -/
theorem exists_bracketed (part : List Char) : ∃ groups, part = nameOf part ++ bracketed groups := by
  rw [nameOf]
  cases found : splitIndexes? [] part with
  | none => exact ⟨[], (List.append_nil part).symm⟩
  | some taken =>
    obtain ⟨name, groups⟩ := taken
    obtain ⟨front, written, named, -⟩ := of_splitIndexes? found
    rw [List.reverse_nil, List.nil_append] at named
    exact ⟨groups, named ▸ written⟩

/-- The name of a part is no longer than the part. -/
theorem length_nameOf_le (part : List Char) : (nameOf part).length ≤ part.length := by
  obtain ⟨groups, written⟩ := exists_bracketed part
  exact List.IsPrefix.length_le ⟨bracketed groups, written.symm⟩

/-- A part that is its own name has no indexes. -/
theorem segmentOf_of_nameOf {part : List Char} (own : nameOf part = part) :
    segmentOf part = .ok ⟨String.ofList part, []⟩ := by
  rw [segmentOf]
  cases found : splitIndexes? [] part with
  | none => rfl
  | some taken =>
    obtain ⟨name, groups⟩ := taken
    obtain ⟨front, written, named, -⟩ := of_splitIndexes? found
    obtain rfl : name = part := by simpa [nameOf, found] using own
    rw [List.reverse_nil, List.nil_append] at named
    cases groups with
    | nil => rfl
    | cons digits others =>
      rw [← named, bracketed_cons, List.self_eq_append_right] at written
      cases written

/-- A part that holds no closing bracket is its own name. -/
theorem nameOf_of_not_mem {part : List Char} (noBracket : ']' ∉ part) : nameOf part = part := by
  obtain ⟨groups, written⟩ := exists_bracketed part
  cases groups with
  | nil => exact ((List.append_nil _).symm.trans written.symm)
  | cons digits others =>
    rw [written, bracketed_cons] at noBracket
    simp at noBracket

/-- Whether a name is a part of a path as it stands, and its own name there. -/
structure IsPart (name : String) : Prop where
  filled : name ≠ ""
  noPoint : '.' ∉ name.toList
  trimmed : Text.trim name.toList = name.toList
  own : nameOf name.toList = name.toList

namespace IsPart

variable {name : String}

/-- A plain part is read as a segment without indices. -/
theorem segmentOf_eq (part : IsPart name) : segmentOf name.toList = .ok ⟨name, []⟩ := by
  rw [segmentOf_of_nameOf part.own, String.ofList_toList]

/-- A plain part is a plain name. -/
theorem isPlain (part : IsPart name) : IsPlain name := by
  have solid : Text.isBlankText name.toList = false := by
    by_contra blank
    rw [Bool.not_eq_false, Text.isBlankText_iff_trimStart] at blank
    have nothing := part.trimmed
    rw [Text.trim, blank] at nothing
    exact part.filled (String.toList_eq_nil_iff.mp nothing.symm)
  rw [IsPlain, parse, solid, parts, List.splitOn_eq_singleton part.noPoint, List.map_singleton,
    part.trimmed]
  exact mapM_cons_eq_ok.mpr ⟨⟨name, []⟩, [], part.segmentOf_eq, rfl, rfl⟩

end IsPart

/-- A name that is the first one of the path that it is read as is all of it. -/
theorem isPart_of_parse {name : String} {segment : Segment} {rest : Path}
    (read : parse name = .ok (segment :: rest)) (first : segment.name = name) : IsPart name := by
  rcases names_of_parse read with ⟨-, impossible⟩ | names
  · cases impossible
  obtain ⟨piece, pieces, cut⟩ : ∃ piece pieces, name.toList.splitOn '.' = piece :: pieces :=
    List.exists_cons_of_ne_nil fun none => by simp [parts, none] at names
  have own : name.toList = nameOf (Text.trim piece) := by
    rw [List.map_cons, parts, cut, List.map_cons, List.map_cons, List.cons.injEq, first] at names
    rw [names.1, String.toList_ofList]
  -- Each of these is a part of the one before it, and the last one is the whole name again.
  obtain ⟨noPoint, inside⟩ := Text.of_mem_splitOn (cut ▸ List.mem_cons_self (a := piece))
  have shorter := length_nameOf_le (Text.trim piece)
  rw [← own] at shorter
  have trimmed : Text.trim piece = piece :=
    (Text.trim_infix piece).eq_of_length_le (inside.length_le.trans shorter)
  obtain rfl : piece = name.toList := inside.eq_of_length_le (trimmed ▸ shorter)
  rw [trimmed] at own
  refine ⟨?_, noPoint, trimmed, own.symm⟩
  rintro rfl
  cases read

/-- **Plain names** are those that are a part of a path as they stand. -/
theorem isPlain_iff {name : String} : IsPlain name ↔ IsPart name :=
  ⟨fun plain => isPart_of_parse plain rfl, IsPart.isPlain⟩

/-- No character of an identifier is a blank, a point or a bracket. -/
theorem inert_of_continuesIdentifier {c : Char} (continues : continuesIdentifier c = true) :
    Text.isBlank c = false ∧ c ≠ '.' ∧ c ≠ ']' := by
  have ascii : c.toNat < 128 := by
    delta continuesIdentifier Char.isAlphanum Char.isAlpha Char.isUpper Char.isLower
      Char.isDigit at continues
    have upper : c.val.toNat ≤ 122 := by
      simp only [Bool.or_eq_true, Bool.and_eq_true, decide_eq_true_iff, beq_iff_eq, ge_iff_le,
        UInt32.le_iff_toNat_le] at continues
      obtain ((⟨-, small⟩ | ⟨-, small⟩) | ⟨-, small⟩) | rfl := continues
      · exact Nat.le_trans small (by decide)
      · exact small
      · exact Nat.le_trans small (by decide)
      · decide
    exact Nat.lt_of_le_of_lt upper (by decide)
  have every : ∀ code < 128, continuesIdentifier (Char.ofNat code) = true →
      Text.isBlank (Char.ofNat code) = false ∧ Char.ofNat code ≠ '.' ∧ Char.ofNat code ≠ ']' := by
    decide +kernel
  have own := every c.toNat ascii
  rw [Char.ofNat_toNat] at own
  exact own continues

/-- What begins an identifier can stand in one. -/
theorem continuesIdentifier_of_begins {c : Char} (begins : beginsIdentifier c = true) :
    continuesIdentifier c = true := by
  rw [beginsIdentifier, Bool.or_eq_true] at begins
  rw [continuesIdentifier, Bool.or_eq_true]
  exact begins.imp_left fun letter => (Bool.or_eq_true _ _).mpr (.inl letter)

/-- Every character of an identifier can stand in one. -/
theorem continuesIdentifier_of_mem {name : List Char} (identifier : isIdentifier name = true)
    {c : Char} (member : c ∈ name) : continuesIdentifier c = true := by
  cases name with
  | nil => cases identifier
  | cons first rest =>
    rw [isIdentifier, Bool.and_eq_true, List.all_eq_true] at identifier
    rcases List.mem_cons.mp member with rfl | later
    · exact continuesIdentifier_of_begins identifier.1
    · exact identifier.2 c later

/-- An identifier has no foreign characters. -/
theorem not_mem_of_isIdentifier {name : List Char} (identifier : isIdentifier name = true)
    {c : Char} (foreign : continuesIdentifier c = false) : c ∉ name := by
  intro member
  rw [continuesIdentifier_of_mem identifier member] at foreign
  cases foreign

/-- Identifiers are plain names. -/
theorem isPlain_of_isIdentifier {name : String} (identifier : isIdentifier name.toList = true) :
    IsPlain name := by
  have inert : ∀ c ∈ name.toList, Text.isBlank c = false ∧ c ≠ '.' ∧ c ≠ ']' := fun c member =>
    inert_of_continuesIdentifier (continuesIdentifier_of_mem identifier member)
  refine isPlain_iff.mpr ⟨?_, fun point => (inert _ point).2.1 rfl, ?_, ?_⟩
  · rintro rfl
    cases identifier
  · rw [Text.trim_eq_self_iff]
    exact ⟨fun c first => (inert c (List.mem_of_mem_head? first)).1,
      fun c last => (inert c (List.mem_of_mem_getLast? last)).1⟩
  · exact nameOf_of_not_mem fun bracket => (inert _ bracket).2.2 rfl

/-- A text with a point is a path of several segments. -/
theorem exists_cons_cons_of_parse {text : String} {path : Path} (read : parse text = .ok path)
    (point : '.' ∈ text.toList) : ∃ first second rest, path = first :: second :: rest := by
  obtain ⟨piece, next, pieces, cut⟩ :
      ∃ piece next pieces, text.toList.splitOn '.' = piece :: next :: pieces := by
    have whole := @List.intercalate_splitOn _ text.toList _ _ '.'
    cases cut : text.toList.splitOn '.' with
    | nil =>
      rw [cut] at whole
      rw [← whole] at point
      cases point
    | cons piece pieces =>
      cases pieces with
      | nil =>
        rw [cut, List.intercalate_singleton] at whole
        exact absurd (whole ▸ point) (Text.of_mem_splitOn (cut ▸ List.mem_cons_self)).1
      | cons next pieces => exact ⟨piece, next, pieces, rfl⟩
  have names := tail_names_of_parse read
  rw [parts, cut] at names
  cases path with
  | nil => cases names
  | cons first rest =>
    cases rest with
    | nil => cases names
    | cons second rest => exact ⟨first, second, rest, rfl⟩

variable {names : List String}

theorem joined_append (names : List String) (name : String) :
    joined (names ++ [name]) = joinPath (joined names) name := by
  rw [joined, List.foldl_append]
  rfl

theorem joinPath_of_ne_empty {path : String} (filled : path ≠ "") (label : String) :
    joinPath path label = path ++ "." ++ label := by
  simp [joinPath, filled, toString]

/-- Names are joined to a path with points between. -/
theorem toList_foldl_joinPath {start : String} (filled : start ≠ "") (names : List String) :
    (names.foldl joinPath start).toList =
      ['.'].intercalate (start.toList :: names.map String.toList) := by
  induction names generalizing start with
  | nil => simp
  | cons name rest ih =>
    rw [List.foldl_cons, joinPath_of_ne_empty filled, ih (by simp), List.map_cons,
      List.intercalate_cons_cons]
    cases rest <;> simp

/-- Names that are not empty are put together with points between them. -/
theorem toList_joined (filled : ∀ name ∈ names, name ≠ "") :
    (joined names).toList = ['.'].intercalate (names.map String.toList) := by
  cases names with
  | nil => rfl
  | cons first rest => exact toList_foldl_joinPath (filled first List.mem_cons_self) rest

/-- The parts of joined plain names are the names. -/
theorem parts_joined (plain : ∀ name ∈ names, IsPlain name) (some : names ≠ []) :
    parts (joined names).toList = names.map String.toList := by
  have cut : (joined names).toList.splitOn '.' = names.map String.toList := by
    rw [toList_joined fun name member => (isPlain_iff.mp (plain name member)).filled]
    refine List.splitOn_intercalate '.' (fun piece member => ?_) (by simpa using some)
    obtain ⟨name, listed, rfl⟩ := List.mem_map.mp member
    exact (isPlain_iff.mp (plain name listed)).noPoint
  rw [parts, cut, List.map_map]
  exact List.map_congr_left fun name member => (isPlain_iff.mp (plain name member)).trimmed

/-- **Plain names are read back** from the text that they make. -/
theorem parse_joined (plain : ∀ name ∈ names, IsPlain name) :
    parse (joined names) = .ok (ofNames names) := by
  by_cases none : names = []
  · subst none
    rfl
  have cut := parts_joined plain none
  have solid : Text.isBlankText (joined names).toList = false := by
    by_contra blank
    rw [Bool.not_eq_false] at blank
    obtain ⟨name, only, void⟩ := List.map_eq_singleton_iff.mp (cut.symm.trans
      (parts_of_isBlankText blank))
    have part := isPlain_iff.mp (plain name (only ▸ List.mem_singleton_self name))
    exact part.filled (String.toList_eq_nil_iff.mp void)
  rw [parse, solid, cut]
  exact mapM_map_eq_ok fun name member => (isPlain_iff.mp (plain name member)).segmentOf_eq

/-- Plain names are determined by the text that they make. -/
theorem joined_injective {others : List String} (plain : ∀ name ∈ names, IsPlain name)
    (plainOthers : ∀ name ∈ others, IsPlain name) (same : joined names = joined others) :
    names = others := by
  have read : (.ok (ofNames names) : Outcome Path) = .ok (ofNames others) := by
    rw [← parse_joined plain, ← parse_joined plainOthers, same]
  exact List.map_injective_iff.mpr (fun _ _ same => (Segment.mk.inj same).1) (Except.ok.inj read)

end Stencil.Path
