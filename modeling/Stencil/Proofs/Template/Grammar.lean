import Mathlib.Data.List.Forall2
import Stencil.Proofs.Template.Valid
import Stencil.Proofs.Text.Digits

/-!
# The grammar of paths

A part of a valid path spells a segment: an identifier and, in brackets behind it, the digits of
each index, in any script and with zeros in front (`Segment.IsSpelledBy`). The two ways in which
paths are cut agree: what is valid as a whole is read part by part as the segments that the parts
spell. The main statement is `Path.valid_roundTrip`: writing and reading are inverse to each other
on the segments that can be written, and reading a valid path leads to such segments.
-/

namespace Stencil

open Outcome

/-- A segment that can be written: its name is an identifier, and its indexes are not too long to be
read. -/
structure Segment.IsWritable (segment : Segment) : Prop where
  identifier : Path.isIdentifier segment.name.toList = true
  short : ∀ index ∈ segment.indices, (Text.decimalText index).length ≤ digitLimit

/-- A part of a path spells a segment: its name, and in brackets behind it digits of some script
that denote its indexes. -/
def Segment.IsSpelledBy (segment : Segment) (part : List Char) : Prop :=
  ∃ groups, part = segment.name.toList ++ Path.bracketed groups ∧
    (∀ group ∈ groups, Path.IsNumeral group) ∧ segment.indices = groups.map Text.decimalNumber

namespace Path

section Part

variable {name : List Char} {groups : List (List Char)}

/-- The identifier of a segment ends where its brackets begin. -/
theorem takeWhile_bracketed (identifier : isIdentifier name = true) :
    (name ++ bracketed groups).takeWhile continuesIdentifier = name ∧
      (name ++ bracketed groups).dropWhile continuesIdentifier = bracketed groups := by
  have inside (c : Char) (member : c ∈ name) : continuesIdentifier c = true :=
    continuesIdentifier_of_mem identifier member
  refine Text.span_append inside fun c first => ?_
  cases groups with
  | nil => cases first
  | cons digits rest =>
    cases first
    decide

/-- An identifier with indexes behind it is a valid part. -/
theorem isValidPart_bracketed (identifier : isIdentifier name = true)
    (numerals : ∀ group ∈ groups, IsNumeral group) :
    isValidPart (name ++ bracketed groups) = true := by
  obtain ⟨front, back⟩ := @takeWhile_bracketed name groups identifier
  rw [isValidPart, front, back, identifier, indexGroups?_bracketed numerals]
  rfl

/-- Bracketed numerals are different for different numerals. -/
theorem bracketed_injective {others : List (List Char)}
    (numerals : ∀ group ∈ groups, IsNumeral group) (also : ∀ group ∈ others, IsNumeral group)
    (same : bracketed groups = bracketed others) : groups = others := by
  have read := indexGroups?_bracketed numerals
  rw [same, indexGroups?_bracketed also] at read
  exact (Option.some.inj read).symm

/-- The indexes behind an identifier are split off, all of them. -/
theorem splitIndexes?_bracketed (identifier : isIdentifier name = true) (filled : groups ≠ [])
    (numerals : ∀ group ∈ groups, IsNumeral group) :
    splitIndexes? [] (name ++ bracketed groups) = some (name, groups) := by
  obtain ⟨full, longer, found, -⟩ := @exists_splitIndexes? [] name groups filled
    (ne_nil_of_isIdentifier identifier) (not_mem_of_isIdentifier identifier (by decide)) numerals
  obtain ⟨front, written, named, -, -, others⟩ := of_splitIndexes? found
  have own := nameOf_bracketed identifier numerals
  rw [nameOf, found] at own
  dsimp only at own
  rw [List.reverse_nil, List.nil_append, own] at named
  rw [← named, List.append_cancel_left_eq] at written
  rw [found, own, bracketed_injective numerals others written]

/-- A short index is the number its digits spell. -/
theorem indexOf_of_short {digits : List Char} (short : digits.length ≤ digitLimit) :
    indexOf digits = .ok (Text.decimalNumber digits) :=
  if_neg (Nat.not_lt.mpr short)

/-- An identifier with indexes behind it is read as the segment of that name and these indexes. -/
theorem segmentOf_bracketed (identifier : isIdentifier name = true)
    (numerals : ∀ group ∈ groups, IsNumeral group)
    (short : ∀ group ∈ groups, group.length ≤ digitLimit) :
    segmentOf (name ++ bracketed groups) =
      .ok ⟨String.ofList name, groups.map Text.decimalNumber⟩ := by
  by_cases filled : groups = []
  · have own := nameOf_bracketed identifier numerals
    rw [filled, bracketed, List.flatMap_nil, List.append_nil] at own ⊢
    exact segmentOf_of_nameOf own
  · rw [segmentOf, splitIndexes?_bracketed identifier filled numerals]
    dsimp only
    rw [mapM_eq_ok_map fun group member => indexOf_of_short (short group member)]
    rfl

/-- A valid part whose indexes are not too long is read as a segment that it spells. -/
theorem exists_segmentOf {part : List Char} (valid : isValidPart part = true)
    (short : ∀ digits, IsIndexOf digits part → digits.length ≤ digitLimit) :
    ∃ segment, segmentOf part = .ok segment ∧ segment.IsWritable ∧ segment.IsSpelledBy part := by
  obtain ⟨name, groups, rfl, identifier, -, numerals⟩ := exists_isIdentifier valid
  have few : ∀ group ∈ groups, group.length ≤ digitLimit := fun group member =>
    short group ⟨name, groups, rfl, ne_nil_of_isIdentifier identifier,
      not_mem_of_isIdentifier identifier (by decide), numerals, member⟩
  refine ⟨_, segmentOf_bracketed identifier numerals few, ⟨?_, fun index member => ?_⟩,
    groups, ?_, numerals, rfl⟩
  · rwa [String.toList_ofList]
  · obtain ⟨group, among, rfl⟩ := List.mem_map.mp member
    exact Text.length_decimalText_decimalNumber_le (by decide) (few group among)
  · rw [String.toList_ofList]

end Part

section Written

variable {segment : Segment} {segments : Path}

/-- A segment is written as its name with its indexes in brackets. -/
theorem renderSegment_eq (segment : Segment) : renderSegment segment =
    segment.name.toList ++ bracketed (segment.indices.map Text.decimalText) := by
  rw [renderSegment, bracketed, List.flatMap_map]

/-- The digits of a number are a numeral. -/
theorem isNumeral_of_mem_decimalTexts {indices : List Nat} :
    ∀ group ∈ indices.map Text.decimalText, IsNumeral group := by
  refine List.forall_mem_map.mpr fun index _ => ⟨Text.decimalText_ne_nil index, fun c member => ?_⟩
  exact Text.isDecimal_of_isDigit (Text.isDigit_of_mem_decimalText member)

/-- A written segment is a valid part. -/
theorem isValidPart_renderSegment (writable : segment.IsWritable) :
    isValidPart (renderSegment segment) = true := by
  rw [renderSegment_eq]
  exact isValidPart_bracketed writable.identifier isNumeral_of_mem_decimalTexts

/-- A segment that can be written is read back. -/
theorem segmentOf_renderSegment (writable : segment.IsWritable) :
    segmentOf (renderSegment segment) = .ok segment := by
  have denoted : (segment.indices.map Text.decimalText).map Text.decimalNumber =
      segment.indices := by
    rw [List.map_map]
    refine (List.map_congr_left fun index _ => ?_).trans (List.map_id _)
    exact Text.decimalNumber_decimalText index
  rw [renderSegment_eq, segmentOf_bracketed writable.identifier isNumeral_of_mem_decimalTexts
    (List.forall_mem_map.mpr writable.short), denoted, String.ofList_toList]

/-- A written segment has no point. -/
theorem not_mem_renderSegment (writable : segment.IsWritable) : '.' ∉ renderSegment segment := by
  rw [renderSegment_eq, List.mem_append, not_or]
  refine ⟨not_mem_of_isIdentifier writable.identifier (by decide), fun member => ?_⟩
  have written := of_mem_bracketed isNumeral_of_mem_decimalTexts member
  revert written
  decide

/-- Segments that can be written make a valid path, and they are read back. -/
theorem parse_render (some : segments ≠ [])
    (writable : ∀ segment ∈ segments, segment.IsWritable) :
    isValid (render segments) = true ∧ parse (render segments) = .ok segments := by
  have filled : segments.map renderSegment ≠ [] := by simpa using some
  have noPoint : ∀ piece ∈ segments.map renderSegment, '.' ∉ piece :=
    List.forall_mem_map.mpr fun segment member => not_mem_renderSegment (writable segment member)
  obtain ⟨trimmed, valid⟩ := isValid_intercalate filled
    (List.forall_mem_map.mpr fun segment member =>
      isValidPart_renderSegment (writable segment member)) noPoint
  rw [← String.toList_ofList (l := ['.'].intercalate (segments.map renderSegment))] at trimmed
  refine ⟨valid, ?_⟩
  rw [render, parse_eq_mapM trimmed valid, String.toList_ofList,
    List.splitOn_intercalate '.' noPoint filled]
  have read := @mapM_map_eq_ok _ _ _ segmentOf renderSegment id segments fun segment member =>
    segmentOf_renderSegment (writable segment member)
  rwa [List.map_id] at read

end Written

section Read

variable {text : String}

/-- The parts of a valid path, whatever blanks stand around it. -/
theorem isValidPart_of_mem_parts (valid : isValid text = true) :
    ∀ part ∈ parts text.toList, isValidPart part = true := by
  rw [isValid, List.all_eq_true] at valid
  intro part member
  rw [parts, ← Text.map_trim_splitOn_trim (by decide)] at member
  obtain ⟨piece, cut, rfl⟩ := List.mem_map.mp member
  rw [trim_of_isValidPart (valid piece cut)]
  exact valid piece cut

/-- Valid parts are read one by one as the segments that they spell. -/
theorem exists_mapM_segmentOf {all : List (List Char)}
    (valid : ∀ part ∈ all, isValidPart part = true)
    (short : ∀ part ∈ all, ∀ digits, IsIndexOf digits part → digits.length ≤ digitLimit) :
    ∃ segments, all.mapM segmentOf = .ok segments ∧
      (∀ segment ∈ segments, segment.IsWritable) ∧
      List.Forall₂ Segment.IsSpelledBy segments all := by
  induction all with
  | nil => exact ⟨[], rfl, fun _ => nofun, .nil⟩
  | cons part rest ih =>
    rw [List.forall_mem_cons] at valid short
    obtain ⟨segment, read, writable, spelled⟩ := exists_segmentOf valid.1 short.1
    obtain ⟨segments, restRead, allWritable, allSpelled⟩ := ih valid.2 short.2
    exact ⟨segment :: segments, mapM_cons_eq_ok.mpr ⟨segment, segments, read, restRead, rfl⟩,
      List.forall_mem_cons.mpr ⟨writable, allWritable⟩, .cons spelled allSpelled⟩

/-- A valid path is read as the segments that its parts spell. -/
theorem exists_segments_of_isValid (valid : isValid text = true) (fit : IndexesFit text) :
    ∃ segments, parse text = .ok segments ∧ (∀ segment ∈ segments, segment.IsWritable) ∧
      List.Forall₂ Segment.IsSpelledBy segments (parts text.toList) := by
  have validParts := isValidPart_of_mem_parts valid
  have solid : Text.isBlankText text.toList = false := by
    by_contra blank
    rw [Bool.not_eq_false] at blank
    have empty := validParts [] (parts_of_isBlankText blank ▸ List.mem_singleton_self [])
    cases empty
  rw [parse, solid, if_neg Bool.false_ne_true]
  exact exists_mapM_segmentOf validParts fit

end Read

/-- **Valid paths are those of segments that can be written.** Such segments, at least one, make a
valid path and are read back from it. A valid path whose indexes are not too long is read as such
segments, one for each of its parts, which spells it; and these are read back from the path that
they make, though it need not be the path that they were read from. -/
theorem valid_roundTrip :
    (∀ segments : Path, segments ≠ [] → (∀ segment ∈ segments, segment.IsWritable) →
      isValid (render segments) = true ∧ parse (render segments) = .ok segments) ∧
    ∀ text, isValid text = true → IndexesFit text → ∃ segments, parse text = .ok segments ∧
      segments ≠ [] ∧ (∀ segment ∈ segments, segment.IsWritable) ∧
      segments.length = (text.toList.splitOn '.').length ∧
      List.Forall₂ Segment.IsSpelledBy segments (parts text.toList) ∧
      parse (render segments) = .ok segments := by
  refine ⟨fun segments some writable => parse_render some writable, fun text valid fit => ?_⟩
  obtain ⟨segments, read, writable, spelled⟩ := exists_segments_of_isValid valid fit
  have length : segments.length = (text.toList.splitOn '.').length := by
    rw [spelled.length_eq, parts, List.length_map]
  have some : segments ≠ [] := by
    rintro rfl
    exact List.splitOn_ne_nil _ _ (List.length_eq_zero_iff.mp length.symm)
  exact ⟨segments, read, some, writable, length, spelled, (parse_render some writable).2⟩

/-- Digits of two scripts, a zero in front and blanks around the whole. -/
theorem valid_roundTrip_scripts :
    isValid "rows[10][2].id_1" = true ∧ isValid " rows[٠١٠][2].id_1\n" = true ∧
      parse " rows[٠١٠][2].id_1\n" = .ok [⟨"rows", [10, 2]⟩, ⟨"id_1", []⟩] ∧
      parse "rows[10][2].id_1" = .ok [⟨"rows", [10, 2]⟩, ⟨"id_1", []⟩] := by
  have writable : ∀ segment ∈ ([⟨"rows", [10, 2]⟩, ⟨"id_1", []⟩] : Path),
      segment.IsWritable := by
    refine List.forall_mem_cons.mpr ⟨⟨by decide, ?_⟩, List.forall_mem_singleton.mpr ⟨by decide, ?_⟩⟩
    · exact List.forall_mem_cons.mpr ⟨by decide, List.forall_mem_singleton.mpr (by decide)⟩
    · exact fun _ => nofun
  have read : parse " rows[٠١٠][2].id_1\n" = .ok [⟨"rows", [10, 2]⟩, ⟨"id_1", []⟩] := rfl
  have valid : isValid " rows[٠١٠][2].id_1\n" = true := by decide
  obtain ⟨validWritten, -⟩ := valid_roundTrip.1 _ (List.cons_ne_nil _ _) writable
  obtain ⟨segments, parsed, -, -, -, -, again⟩ :=
    valid_roundTrip.2 _ valid (parse_succeeds_iff.mp ⟨_, read⟩)
  have same : segments = [⟨"rows", [10, 2]⟩, ⟨"id_1", []⟩] :=
    Except.ok.inj (parsed.symm.trans read)
  rw [same] at again
  exact ⟨validWritten, valid, read, again⟩

end Path
end Stencil
