import Stencil.Proofs.Template.Valid

/-!
# Keys of a path

A path takes one step under each of its names and one to each of its indexes; these are its keys.
If the pieces of one valid path between the points are the first pieces of another, then so are the
keys (`Path.keys_isPrefix_of_pieces`). The converse holds for a path without indexes
(`Path.pieces_isPrefix_of_keys`), and it fails for every other one: there is a path that ends with
the name in front of an index, whose keys are the first ones but whose pieces are not
(`Path.exists_keys_isPrefix`).
-/

namespace Stencil

/-- One step into a value: to what stands under a name, or to an item. -/
inductive Key
  | name (text : String)
  | index (number : Nat)
  deriving DecidableEq, Repr

namespace Path

open Outcome

/-- The steps that a path takes, in order. -/
def keys (path : Path) : List Key :=
  path.flatMap fun segment => .name segment.name :: segment.indices.map .index

theorem keys_append (front back : Path) : keys (front ++ back) = keys front ++ keys back :=
  List.flatMap_append

theorem keys_cons (segment : Segment) (rest : Path) :
    keys (segment :: rest) = .name segment.name :: (segment.indices.map .index ++ keys rest) :=
  List.flatMap_cons

/-- The keys of names are the names. -/
theorem keys_ofNames (names : List String) : keys (ofNames names) = names.map .name := by
  induction names with
  | nil => rfl
  | cons name rest ih =>
    rw [ofNames, List.map_cons, keys_cons, ← ofNames, ih, List.map_cons]
    rfl

/-- A part that is read without an index is its own name. -/
theorem nameOf_of_segmentOf {part : List Char} {segment : Segment}
    (read : segmentOf part = .ok segment) (bare : segment.indices = []) : nameOf part = part := by
  rw [segmentOf] at read
  rw [nameOf]
  cases found : splitIndexes? [] part with
  | none => rfl
  | some taken =>
    obtain ⟨name, groups⟩ := taken
    rw [found] at read
    obtain ⟨indices, readIndices, same⟩ := bind_eq_ok.mp read
    cases same
    cases groups with
    | nil =>
      obtain ⟨front, written, named, -⟩ := of_splitIndexes? found
      rw [written, named]
      simp [bracketed]
    | cons digits others =>
      obtain ⟨number, numbers, -, -, rfl⟩ := mapM_cons_eq_ok.mp readIndices
      cases bare

/-- Where each name stands without indexes, the names are the parts as they stand. -/
theorem eq_ofNames_of_mapM {all : List (List Char)} {segments : Path}
    (read : all.mapM segmentOf = .ok segments)
    (bare : ∀ segment ∈ segments, segment.indices = []) :
    segments = ofNames (all.map String.ofList) := by
  induction all generalizing segments with
  | nil =>
    cases read
    rfl
  | cons part rest ih =>
    obtain ⟨segment, others, here, behind, rfl⟩ := mapM_cons_eq_ok.mp read
    rw [List.forall_mem_cons] at bare
    have own := nameOf_of_segmentOf here bare.1
    rw [segmentOf_of_nameOf own] at here
    rw [ih behind bare.2, ← Except.ok.inj here]
    rfl

section Prefix

variable {path known : String} {segments front : Path}

/-- The first pieces of a valid path make a valid path. -/
theorem isValid_of_pieces_isPrefix (trimmed : Text.trim path.toList = path.toList)
    (valid : isValid path = true) (goesOn : known.toList.splitOn '.' <+: path.toList.splitOn '.') :
    Text.trim known.toList = known.toList ∧ isValid known = true := by
  obtain ⟨cut, validParts⟩ := parts_of_isValid trimmed valid
  have sound := isValid_intercalate (List.splitOn_ne_nil '.' known.toList)
    (fun piece member => validParts piece (cut ▸ goesOn.subset member))
    fun piece member => (Text.of_mem_splitOn member).1
  rwa [List.intercalate_splitOn, String.ofList_toList] at sound

/-- A path that goes on behind the pieces of another one goes on behind its keys. -/
theorem keys_isPrefix_of_pieces (trimmed : Text.trim path.toList = path.toList)
    (valid : isValid path = true) (read : parse path = .ok segments)
    (goesOn : known.toList.splitOn '.' <+: path.toList.splitOn '.') :
    ∃ front, parse known = .ok front ∧ front.keys <+: segments.keys := by
  obtain ⟨trimmedKnown, validKnown⟩ := isValid_of_pieces_isPrefix trimmed valid goesOn
  obtain ⟨more, cut⟩ := goesOn
  rw [parse_eq_mapM trimmed valid, ← cut] at read
  obtain ⟨front, back, readFront, -, rfl⟩ := mapM_append_eq_ok.mp read
  rw [parse_eq_mapM trimmedKnown validKnown, keys_append]
  exact ⟨front, readFront, List.prefix_append _ _⟩

/-- A path without indexes that goes on behind the keys of another one goes on behind its pieces. -/
theorem pieces_isPrefix_of_keys (trimmed : Text.trim path.toList = path.toList)
    (valid : isValid path = true) (noIndex : '[' ∉ path.toList)
    (trimmedKnown : Text.trim known.toList = known.toList)
    (validKnown : isValid known = true) (read : parse path = .ok segments)
    (readKnown : parse known = .ok front) (goesOn : front.keys <+: segments.keys) :
    known.toList.splitOn '.' <+: path.toList.splitOn '.' := by
  rw [parse_of_isValid trimmed valid noIndex, Except.ok.injEq] at read
  rw [← read, keys_ofNames] at goesOn
  have bare : ∀ segment ∈ front, segment.indices = [] := by
    intro segment member
    by_contra indexed
    obtain ⟨number, among⟩ := List.exists_mem_of_ne_nil segment.indices indexed
    have taken : Key.index number ∈ front.keys := List.mem_flatMap.mpr
      ⟨segment, member, List.mem_cons_of_mem _ (List.mem_map_of_mem among)⟩
    obtain ⟨name, -, impossible⟩ := List.mem_map.mp (goesOn.subset taken)
    cases impossible
  rw [parse_eq_mapM trimmedKnown validKnown] at readKnown
  rw [eq_ofNames_of_mapM readKnown bare, keys_ofNames, (parts_of_isValid trimmed valid).1,
    List.map_map, List.map_map] at goesOn
  exact (List.prefix_map_iff_of_injective fun one other same =>
    String.ofList_injective (Key.name.inj same)).mp goesOn

/-- One of the parts of a valid path with an index is an identifier with indexes behind it. -/
theorem exists_part_of_index (trimmed : Text.trim path.toList = path.toList)
    (valid : isValid path = true) (index : '[' ∈ path.toList) :
    ∃ before name groups after,
      path.toList.splitOn '.' = before ++ (name ++ bracketed groups) :: after ∧
        isIdentifier name = true ∧ '[' ∈ name ++ bracketed groups ∧
        ∀ group ∈ groups, IsNumeral group := by
  obtain ⟨part, cut, inside⟩ := Text.exists_mem_splitOn index (by decide : '[' ≠ '.')
  obtain ⟨same, validParts⟩ := parts_of_isValid trimmed valid
  obtain ⟨name, groups, rfl, identifier, -, numerals⟩ :=
    exists_isIdentifier (validParts part (same ▸ cut))
  obtain ⟨before, after, pieces⟩ := List.append_of_mem cut
  exact ⟨before, name, groups, after, pieces, identifier, inside, numerals⟩

/-- The keys of a path go on behind those of another one that ends with the name in front of an
index, where its pieces do not. -/
theorem exists_keys_isPrefix (trimmed : Text.trim path.toList = path.toList)
    (valid : isValid path = true) (index : '[' ∈ path.toList) (read : parse path = .ok segments) :
    ∃ known front, Text.trim known.toList = known.toList ∧ isValid known = true ∧
      parse known = .ok front ∧ front.keys <+: segments.keys ∧
      ¬ known.toList.splitOn '.' <+: path.toList.splitOn '.' := by
  obtain ⟨before, name, groups, after, pieces, identifier, inside, numerals⟩ :=
    exists_part_of_index trimmed valid index
  have noBracket : '[' ∉ name := not_mem_of_isIdentifier identifier (by decide)
  have sound : ∀ piece ∈ before ++ [name], isValidPart piece = true ∧ '.' ∉ piece := by
    intro piece member
    rcases List.mem_append.mp member with early | last
    · have among : piece ∈ path.toList.splitOn '.' := pieces ▸ List.mem_append_left _ early
      obtain ⟨same, validParts⟩ := parts_of_isValid trimmed valid
      exact ⟨validParts piece (same ▸ among), (Text.of_mem_splitOn among).1⟩
    · rw [List.mem_singleton.mp last]
      exact ⟨isValidPart_of_isIdentifier identifier, not_mem_of_isIdentifier identifier (by decide)⟩
  obtain ⟨known, written⟩ : ∃ known : String,
      known.toList = ['.'].intercalate (before ++ [name]) := ⟨String.ofList _, String.toList_ofList⟩
  obtain ⟨trimmedKnown, validKnown⟩ := isValid_intercalate (by simp)
    (fun piece member => (sound piece member).1) fun piece member => (sound piece member).2
  rw [← written, String.ofList_toList] at validKnown
  rw [← written] at trimmedKnown
  have cut : known.toList.splitOn '.' = before ++ [name] := by
    rw [written]
    exact List.splitOn_intercalate '.' (fun piece member => (sound piece member).2) (by simp)
  rw [parse_eq_mapM trimmed valid, pieces] at read
  obtain ⟨front, back, readFront, readBack, rfl⟩ := mapM_append_eq_ok.mp read
  obtain ⟨segment, rest, readPart, -, rfl⟩ := mapM_cons_eq_ok.mp readBack
  have named : segment.name = String.ofList name := by
    rw [name_of_segmentOf readPart, nameOf_bracketed identifier numerals]
  have readName : segmentOf name = .ok ⟨String.ofList name, []⟩ :=
    segmentOf_of_nameOf ((nameOf_eq_iff (isValidPart_of_isIdentifier identifier)).mpr noBracket)
  refine ⟨known, front ++ [⟨String.ofList name, []⟩], trimmedKnown, validKnown, ?_, ?_, ?_⟩
  · rw [parse_eq_mapM trimmedKnown validKnown, cut]
    exact mapM_append_eq_ok.mpr
      ⟨front, _, readFront, mapM_cons_eq_ok.mpr ⟨_, [], readName, rfl, rfl⟩, rfl⟩
  · rw [keys_append, keys_append, List.prefix_append_right_inj, keys_cons, keys_cons, named]
    exact List.cons_prefix_cons.mpr ⟨rfl, List.nil_prefix⟩
  · rw [cut, pieces, List.prefix_append_right_inj, List.cons_prefix_cons]
    rintro ⟨whole, -⟩
    exact noBracket (whole ▸ inside)

end Prefix
end Path
end Stencil
