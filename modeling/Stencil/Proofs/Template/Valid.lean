import Stencil.Proofs.Template.Plain

/-!
# Valid paths

A part of a valid path is an identifier with indexes behind it (`Path.exists_isIdentifier`). No
blank stands at its ends, and it is its own name exactly if it has no index (`Path.nameOf_eq_iff`).
-/

namespace Stencil.Path

open Outcome

/-- A valid part of a path is an identifier with indexes behind it. -/
theorem exists_isIdentifier {part : List Char} (valid : isValidPart part = true) :
    ∃ name groups, part = name ++ bracketed groups ∧ isIdentifier name = true ∧
      (∀ c ∈ name, continuesIdentifier c = true) ∧ ∀ group ∈ groups, IsNumeral group := by
  rw [isValidPart, Bool.and_eq_true, Option.isSome_iff_exists] at valid
  obtain ⟨identifier, groups, found⟩ := valid
  obtain ⟨written, numerals⟩ := bracketed_of_indexGroups? found (by simp)
  rw [Option.elim_none, List.nil_append] at written
  refine ⟨part.takeWhile continuesIdentifier, groups, ?_, identifier, ?_, numerals⟩
  · rw [← written, List.takeWhile_append_dropWhile]
  · exact fun c member => List.mem_takeWhile_imp member

/-- An identifier is a valid part. -/
theorem isValidPart_of_isIdentifier {name : List Char} (identifier : isIdentifier name = true) :
    isValidPart name = true := by
  have whole : name.takeWhile continuesIdentifier = name :=
    List.takeWhile_eq_self_iff.mpr fun _ member => continuesIdentifier_of_mem identifier member
  have nothing : name.dropWhile continuesIdentifier = [] :=
    List.dropWhile_eq_nil_iff.mpr fun _ member => continuesIdentifier_of_mem identifier member
  rw [isValidPart, whole, nothing, identifier]
  rfl

/-- An identifier is not empty. -/
theorem ne_nil_of_isIdentifier {name : List Char} (identifier : isIdentifier name = true) :
    name ≠ [] := by
  rintro rfl
  cases identifier

/-- The characters that indexes are written with. -/
theorem of_mem_bracketed {groups : List (List Char)} (numerals : ∀ group ∈ groups, IsNumeral group)
    {c : Char} (member : c ∈ bracketed groups) : c = '[' ∨ c = ']' ∨ Text.isDecimal c = true := by
  obtain ⟨digits, among, inside⟩ := List.mem_flatMap.mp member
  rw [List.mem_append, List.mem_cons, List.mem_singleton] at inside
  rcases inside with (opening | digit) | closing
  · exact .inl opening
  · exact .inr (.inr ((numerals digits among).2 c digit))
  · exact .inr (.inl closing)

/-- An identifier is the name of a part that goes on with indexes. -/
theorem nameOf_bracketed {name : List Char} {groups : List (List Char)}
    (identifier : isIdentifier name = true) (numerals : ∀ group ∈ groups, IsNumeral group) :
    nameOf (name ++ bracketed groups) = name := by
  have alone {front : List Char} {others : List (List Char)}
      (same : name = front ++ bracketed others) : front = name := by
    cases others with
    | nil => simpa [bracketed] using same.symm
    | cons digits rest =>
      have noBracket : '[' ∉ name := not_mem_of_isIdentifier identifier (by decide)
      rw [same, bracketed_cons] at noBracket
      simp at noBracket
  by_cases filled : groups = []
  · obtain ⟨others, written⟩ := exists_bracketed (name ++ bracketed groups)
    rw [filled, bracketed, List.flatMap_nil, List.append_nil] at written ⊢
    exact alone written
  · obtain ⟨full, longer, found, ahead, rfl⟩ :=
      @exists_splitIndexes? [] name groups filled (ne_nil_of_isIdentifier identifier)
        (not_mem_of_isIdentifier identifier (by decide)) numerals
    obtain ⟨front, written, same, -⟩ := of_splitIndexes? found
    have split : bracketed (ahead ++ groups) = bracketed ahead ++ bracketed groups :=
      List.flatMap_append
    rw [List.reverse_nil, List.nil_append] at same
    rw [split, ← List.append_assoc, List.append_cancel_right_eq] at written
    rw [nameOf, found, same, alone written]

section Part

variable {part : List Char}

/-- A valid part has no blanks around it. -/
theorem trim_of_isValidPart (valid : isValidPart part = true) : Text.trim part = part := by
  obtain ⟨name, groups, rfl, identifier, inside, -⟩ := exists_isIdentifier valid
  have solid {d : Char} (member : d ∈ name) : Text.isBlank d = false :=
    (inert_of_continuesIdentifier (inside d member)).1
  rw [Text.trim_eq_self_iff]
  constructor
  · refine Text.BeginsSolid.append (fun d head => ?_) (ne_nil_of_isIdentifier identifier) _
    exact solid (List.mem_of_mem_head? head)
  · rcases List.eq_nil_or_concat groups with rfl | ⟨front, digits, rfl⟩
    · intro d last
      rw [bracketed, List.flatMap_nil, List.append_nil] at last
      exact solid (List.mem_of_mem_getLast? last)
    · have closes : name ++ bracketed (front ++ [digits]) =
          (name ++ bracketed front ++ '[' :: digits) ++ [']'] := by
        simp [bracketed]
      intro d last
      rw [List.concat_eq_append, closes, List.getLast?_append, List.getLast?_singleton,
        Option.some_or] at last
      rw [← Option.some.inj last]
      decide

/-- A valid part is its own name exactly if it has no index. -/
theorem nameOf_eq_iff (valid : isValidPart part = true) : nameOf part = part ↔ '[' ∉ part := by
  obtain ⟨name, groups, rfl, identifier, inside, numerals⟩ := exists_isIdentifier valid
  have noBracket : '[' ∉ name := not_mem_of_isIdentifier identifier (by decide)
  rw [nameOf_bracketed identifier numerals]
  cases groups with
  | nil => simp [bracketed, noBracket]
  | cons digits others => simp [bracketed_cons]

end Part

variable {path : String}

/-- The parts of a valid path are its pieces between the points. -/
theorem parts_of_isValid (trimmed : Text.trim path.toList = path.toList)
    (valid : isValid path = true) :
    parts path.toList = path.toList.splitOn '.' ∧
      ∀ part ∈ parts path.toList, isValidPart part = true := by
  rw [isValid, trimmed, List.all_eq_true] at valid
  have same : parts path.toList = path.toList.splitOn '.' := by
    rw [parts]
    refine (List.map_congr_left fun piece cut => ?_).trans (List.map_id _)
    exact trim_of_isValidPart (valid piece cut)
  exact ⟨same, fun part member => valid part (same ▸ member)⟩

/-- The parts of a valid path without indexes are names as they stand. -/
theorem nameOf_of_mem_parts (trimmed : Text.trim path.toList = path.toList)
    (valid : isValid path = true) (noIndex : '[' ∉ path.toList) {part : List Char}
    (member : part ∈ parts path.toList) : nameOf part = part := by
  obtain ⟨cut, validParts⟩ := parts_of_isValid trimmed valid
  have piece := Text.of_mem_splitOn (cut ▸ member)
  exact (nameOf_eq_iff (validParts part member)).mpr fun opening =>
    noIndex (piece.2.subset opening)

/-- A valid path is not blank. -/
theorem isBlankText_of_isValid (trimmed : Text.trim path.toList = path.toList)
    (valid : isValid path = true) : Text.isBlankText path.toList = false := by
  by_contra blank
  rw [Bool.not_eq_false] at blank
  have empty := (parts_of_isValid trimmed valid).2 [] (parts_of_isBlankText blank ▸
    List.mem_singleton_self [])
  cases empty

/-- A valid path is read part by part. -/
theorem parse_eq_mapM (trimmed : Text.trim path.toList = path.toList)
    (valid : isValid path = true) : parse path = (path.toList.splitOn '.').mapM segmentOf := by
  rw [parse, isBlankText_of_isValid trimmed valid, if_neg Bool.false_ne_true,
    (parts_of_isValid trimmed valid).1]

/-- A text with valid parts between its points is a valid path without blanks around it. -/
theorem isValid_intercalate {pieces : List (List Char)} (some : pieces ≠ [])
    (valid : ∀ piece ∈ pieces, isValidPart piece = true) (noPoint : ∀ piece ∈ pieces, '.' ∉ piece) :
    Text.trim (['.'].intercalate pieces) = ['.'].intercalate pieces ∧
      isValid (String.ofList (['.'].intercalate pieces)) = true := by
  have trimmed := Text.trim_intercalate (by decide : Text.isBlank '.' = false) fun piece member =>
    trim_of_isValidPart (valid piece member)
  rw [isValid, String.toList_ofList, trimmed, List.splitOn_intercalate '.' noPoint some]
  exact ⟨rfl, List.all_eq_true.mpr valid⟩

/-- A valid path without indexes is read as its parts. -/
theorem parse_of_isValid (trimmed : Text.trim path.toList = path.toList)
    (valid : isValid path = true) (noIndex : '[' ∉ path.toList) :
    parse path = .ok (ofNames ((parts path.toList).map String.ofList)) := by
  rw [parse, isBlankText_of_isValid trimmed valid, if_neg Bool.false_ne_true, ofNames, List.map_map]
  exact mapM_eq_ok_map fun part member =>
    segmentOf_of_nameOf (nameOf_of_mem_parts trimmed valid noIndex member)

/-- The names of a valid path are those of its parts. -/
theorem names_of_isValid {segments : Path} (trimmed : Text.trim path.toList = path.toList)
    (valid : isValid path = true) (read : parse path = .ok segments) :
    segments.map (·.name) =
      (parts path.toList).map fun part => String.ofList (nameOf part) := by
  refine (names_of_parse read).resolve_left fun blank => ?_
  rw [isBlankText_of_isValid trimmed valid] at blank
  cases blank.1

/-- The names of a valid path with an index are not its parts. -/
theorem names_ne_parts {segments : Path} (trimmed : Text.trim path.toList = path.toList)
    (valid : isValid path = true) (index : '[' ∈ path.toList)
    (read : parse path = .ok segments) :
    segments.map (·.name) ≠ (parts path.toList).map String.ofList := by
  obtain ⟨cut, validParts⟩ := parts_of_isValid trimmed valid
  obtain ⟨piece, member, inside⟩ := Text.exists_mem_splitOn index (by decide : '[' ≠ '.')
  rw [← cut] at member
  rw [names_of_isValid trimmed valid read]
  intro same
  have own := String.ofList_injective (List.map_inj_left.mp same piece member)
  exact (nameOf_eq_iff (validParts piece member)).mp own inside

end Stencil.Path
