import Stencil.Proofs.Template.Index
import Stencil.Proofs.Text.Pieces

/-!
# Names in a path

The name of a segment is what its part of the path leaves in front of the indexes
(`names_of_parse`). The parts of a valid path begin with letters or underscores, and so do the names
in it (`exists_beginsIdentifier`).
-/

namespace Stencil.Path

open Outcome

/-- The name that a part of a path gives its segment. -/
def nameOf (part : List Char) : List Char :=
  match splitIndexes? [] part with
  | some (name, _) => name
  | none => part

/-- The name of a segment is that of the part it is read from. -/
theorem name_of_segmentOf {part : List Char} {segment : Segment}
    (read : segmentOf part = .ok segment) : segment.name = String.ofList (nameOf part) := by
  rw [segmentOf] at read
  rw [nameOf]
  cases found : splitIndexes? [] part with
  | none =>
    rw [found] at read
    rw [← Except.ok.inj read]
  | some taken =>
    obtain ⟨name, groups⟩ := taken
    rw [found] at read
    obtain ⟨indices, -, same⟩ := bind_eq_ok.mp read
    rw [← Except.ok.inj same]

/-- A name begins as its part does. -/
theorem head?_nameOf (part : List Char) : (nameOf part).head? = part.head? := by
  rw [nameOf]
  cases found : splitIndexes? [] part with
  | none => rfl
  | some taken =>
    obtain ⟨front, written, named, filled, -⟩ := of_splitIndexes? found
    rw [List.reverse_nil, List.nil_append] at named
    rw [written, List.head?_append, ← named, List.head?_eq_some_head filled, Option.some_or]

/-- The names of segments are those of the parts they are read from. -/
theorem names_of_mapM {all : List (List Char)} {segments : Path}
    (read : all.mapM segmentOf = .ok segments) :
    segments.map (·.name) = all.map fun part => String.ofList (nameOf part) := by
  induction all generalizing segments with
  | nil =>
    cases read
    rfl
  | cons part rest ih =>
    obtain ⟨segment, others, here, behind, rfl⟩ := mapM_cons_eq_ok.mp read
    rw [List.map_cons, List.map_cons, ih behind, name_of_segmentOf here]

/-- The names of a path are those of its parts, unless the path is blank. -/
theorem names_of_parse {path : String} {segments : Path} (read : parse path = .ok segments) :
    Text.isBlankText path.toList = true ∧ segments = [] ∨
      segments.map (·.name) = (parts path.toList).map fun part => String.ofList (nameOf part) := by
  rw [parse] at read
  split_ifs at read with blank
  · exact .inl ⟨blank, (Except.ok.inj read).symm⟩
  · exact .inr (names_of_mapM read)

/-- The names behind the first one, also those of a blank path. -/
theorem tail_names_of_parse {path : String} {segments : Path} (read : parse path = .ok segments) :
    segments.tail.map (·.name) =
      (parts path.toList).tail.map fun part => String.ofList (nameOf part) := by
  rcases names_of_parse read with ⟨blank, rfl⟩ | same
  · rw [parts_of_isBlankText blank]
    rfl
  · rw [List.map_tail, same, List.map_tail]

/-- A valid part begins like an identifier. -/
theorem exists_beginsIdentifier_of_isValidPart {part : List Char}
    (valid : isValidPart part = true) : ∃ c ∈ part.head?, beginsIdentifier c = true := by
  cases part with
  | nil => cases valid
  | cons c rest =>
    rw [isValidPart, Bool.and_eq_true, List.takeWhile_cons] at valid
    split_ifs at valid
    · rw [isIdentifier, Bool.and_eq_true] at valid
      exact ⟨c, rfl, valid.1.1⟩
    · cases valid.1

/-- No letter and no underscore is a blank or a digit. -/
theorem plain_of_beginsIdentifier {c : Char} (begins : beginsIdentifier c = true) :
    Text.isBlank c = false ∧ Text.isDigit c = false := by
  have ascii : c.toNat < 128 := by
    delta beginsIdentifier Char.isAlpha Char.isUpper Char.isLower at begins
    have upper : c.val.toNat ≤ 122 := by
      simp only [Bool.or_eq_true, Bool.and_eq_true, decide_eq_true_iff, beq_iff_eq, ge_iff_le,
        UInt32.le_iff_toNat_le] at begins
      obtain (⟨-, small⟩ | ⟨-, small⟩) | rfl := begins
      · exact Nat.le_trans small (by decide)
      · exact small
      · decide
    exact Nat.lt_of_le_of_lt upper (by decide)
  have every : ∀ code < 128, beginsIdentifier (Char.ofNat code) = true →
      Text.isBlank (Char.ofNat code) = false ∧ Text.isDigit (Char.ofNat code) = false := by
    decide +kernel
  have own := every c.toNat ascii
  rw [Char.ofNat_toNat] at own
  exact own begins

/-- The names of a valid path begin with letters or underscores. -/
theorem exists_beginsIdentifier {path : String} {segments : Path}
    (trimmed : Text.trim path.toList = path.toList) (valid : isValid path = true)
    (read : parse path = .ok segments) {segment : Segment} (member : segment ∈ segments) :
    ∃ c ∈ segment.name.toList.head?, beginsIdentifier c = true := by
  rcases names_of_parse read with ⟨-, rfl⟩ | same
  · cases member
  · have named : segment.name ∈ segments.map (·.name) := List.mem_map_of_mem member
    rw [same] at named
    obtain ⟨part, among, called⟩ := List.mem_map.mp named
    obtain ⟨piece, cut, rfl⟩ := List.mem_map.mp among
    rw [isValid, trimmed, List.all_eq_true] at valid
    obtain ⟨c, first, begins⟩ := exists_beginsIdentifier_of_isValidPart (valid piece cut)
    have solid : Text.BeginsSolid piece := fun d head => by
      rw [Option.mem_unique head first]
      exact (plain_of_beginsIdentifier begins).1
    refine ⟨c, ?_, begins⟩
    rwa [← called, String.toList_ofList, head?_nameOf, Text.head?_trim solid]

end Stencil.Path
