import Stencil.Proofs.Template.Enclosed
import Stencil.Proofs.Template.Index
import Stencil.Proofs.Template.Span
import Stencil.Proofs.Text.Pieces

/-!
# References built and read back

The pieces of a hole are trimmed, hold no bar and can be enclosed by braces (`IsPiece`). A reference
that is built from such pieces is read as exactly these pieces again, and a reference that was read
is made of such pieces. The main statement is `references_build`: building and reading are inverse
to each other, in both orders.
-/

namespace Stencil

/-- A text that can stand between the bars of a hole without losing anything. -/
structure IsPiece (text : List Char) : Prop where
  trimmed : Text.trim text = text
  noBar : '|' ∉ text
  enclosable : Token.Enclosable text

/-- A step that was trimmed is written as it was read. -/
theorem Step.render_parse {step : String} (trimmed : Text.trim step.toList = step.toList)
    (filled : step ≠ "") : (Step.parse step).render = step := by
  have text : (Step.parse step).text = step := by
    rw [parse]
    dsimp only
    rw [trimmed, String.ofList_toList]
  rw [render, text, if_neg fun empty => filled (String.isEmpty_iff.mp empty)]

/-- The blanks around a step do not matter to it. -/
theorem Step.parse_trim (step : String) :
    Step.parse (String.ofList (Text.trim step.toList)) = Step.parse step := by
  rw [parse, parse, String.toList_ofList, Text.trim_trim]

namespace Reference

/-- The pieces of a hole are those between its bars, whatever blanks stand around it. -/
theorem piecesOf_eq (body : List Char) : piecesOf body = (body.splitOn '|').map Text.trim :=
  Text.map_trim_splitOn_trim (by decide) body

/-- The pieces of a body that braces can enclose can stand between bars. -/
theorem isPiece_of_mem_piecesOf {body piece : List Char} (inner : Token.Enclosable body)
    (member : piece ∈ piecesOf body) : IsPiece piece := by
  obtain ⟨untrimmed, among, rfl⟩ := List.mem_map.mp member
  obtain ⟨noBar, inside⟩ := Text.of_mem_splitOn among
  have within : Text.trim untrimmed <:+: untrimmed := Text.trim_infix untrimmed
  exact {
    trimmed := Text.trim_trim untrimmed
    noBar := fun bar => noBar (within.subset bar)
    enclosable := inner.of_infix ((within.trans inside).trans (Text.trim_infix body)) }

/-- A built reference is a hole with the path and the steps. -/
theorem toList_build (path : String) (steps : List String) :
    (build path steps).toList =
      Token.holeSource (['|'].intercalate (path.toList :: steps.map String.toList)) := by
  simp [build, braced, String.toList_intercalate, Token.holeSource]

section Built

variable {path : String} {steps : List String}

/-- A reference built from a piece and steps between bars is read as these, if its path is read. The
blanks around a step do not matter. -/
theorem references_build_of_noBar (pathPiece : IsPiece path.toList)
    (noBar : ∀ step ∈ steps, '|' ∉ step.toList)
    (enclosable : ∀ step ∈ steps, Token.Enclosable step.toList)
    (filled : ∀ step ∈ steps, Text.trim step.toList ≠ []) :
    references (build path steps) = Path.parse path >>= fun segments => .ok [{
      raw := build path steps
      path := path
      parts := if path.toList.isEmpty then [] else (Path.parts path.toList).map String.ofList
      segments := segments
      steps := steps.map Step.parse
      start := 0
      stop := (build path steps).length }] := by
  have inner : Token.Enclosable (['|'].intercalate (path.toList :: steps.map String.toList)) :=
    Token.enclosable_intercalate (by decide) (by decide) (List.forall_mem_cons.mpr
      ⟨pathPiece.enclosable, List.forall_mem_map.mpr enclosable⟩)
  have pieces : piecesOf (['|'].intercalate (path.toList :: steps.map String.toList)) =
      path.toList :: (steps.map String.toList).map Text.trim := by
    have split := List.splitOn_intercalate '|' (List.forall_mem_cons.mpr
      ⟨pathPiece.noBar, List.forall_mem_map.mpr noBar⟩) (List.cons_ne_nil _ _)
    rw [piecesOf_eq, split, List.map_cons, pathPiece.trimmed]
  have kept : ((steps.map String.toList).map Text.trim).filter (!·.isEmpty) =
      (steps.map String.toList).map Text.trim := by
    refine List.filter_eq_self.mpr (List.forall_mem_map.mpr (List.forall_mem_map.mpr ?_))
    exact fun step member => by simpa using filled step member
  have length : (build path steps).length =
      (['|'].intercalate (path.toList :: steps.map String.toList)).length + 4 := by
    rw [← String.length_toList, toList_build, Token.length_holeSource]
  have parsed : ((steps.map String.toList).map Text.trim).map
      (fun step => Step.parse (String.ofList step)) = steps.map Step.parse := by
    rw [List.map_map, List.map_map]
    exact List.map_congr_left fun step _ => Step.parse_trim step
  rw [references, toList_build, Token.tokens_holeSource inner, ofTokens, ofHole, pieces,
    ← toList_build, length, List.head?_cons, List.tail_cons, kept, parsed, Option.getD_some,
    String.ofList_toList, String.ofList_toList, Nat.zero_add]
  cases Path.parse path <;> rfl

/-- A reference built from pieces is read as these pieces, if its path is read. -/
theorem references_build_eq (pathPiece : IsPiece path.toList)
    (stepPieces : ∀ step ∈ steps, IsPiece step.toList ∧ step ≠ "") :
    references (build path steps) = Path.parse path >>= fun segments => .ok [{
      raw := build path steps
      path := path
      parts := if path.toList.isEmpty then [] else (Path.parts path.toList).map String.ofList
      segments := segments
      steps := steps.map Step.parse
      start := 0
      stop := (build path steps).length }] := by
  refine references_build_of_noBar pathPiece (fun step member => (stepPieces step member).1.noBar)
    (fun step member => (stepPieces step member).1.enclosable) fun step member => ?_
  obtain ⟨piece, filled⟩ := stepPieces step member
  rw [piece.trimmed]
  exact fun empty => filled (String.toList_eq_nil_iff.mp empty)

end Built

/-- A reference that is read from a hole is made of pieces. -/
theorem exists_pieces_of_ofHole {position : Nat} {body : List Char} {reference : Reference}
    (inner : Token.Enclosable body) (read : ofHole position body = .ok reference) :
    IsPiece reference.path.toList ∧
      ∃ steps : List String, (∀ step ∈ steps, IsPiece step.toList ∧ step ≠ "") ∧
        reference.steps = steps.map Step.parse := by
  obtain ⟨segments, -, made⟩ := Outcome.bind_eq_ok.mp read
  have piece : ∀ piece ∈ piecesOf body, IsPiece piece := fun piece member =>
    isPiece_of_mem_piecesOf inner member
  rw [← Except.ok.inj made]
  dsimp only
  cases pieces : piecesOf body with
  | nil => exact absurd (List.map_eq_nil_iff.mp pieces) (List.splitOn_ne_nil _ _)
  | cons path rest =>
    rw [pieces, List.forall_mem_cons] at piece
    refine ⟨by simpa using piece.1, (rest.filter (!·.isEmpty)).map String.ofList, ?_, ?_⟩
    · intro step member
      obtain ⟨written, among, rfl⟩ := List.mem_map.mp member
      obtain ⟨among, filled⟩ := List.mem_filter.mp among
      refine ⟨by simpa using piece.2 written among, fun empty => ?_⟩
      have nothing : written = [] := by simpa using congrArg String.toList empty
      rw [nothing] at filled
      cases filled
    · rw [List.map_map]
      rfl

/-- The path of a reference in a text has no blanks around it and is read as its segments. -/
theorem path_of_mem {text : String} {found : List Reference} (read : references text = .ok found)
    {reference : Reference} (member : reference ∈ found) :
    Text.trim reference.path.toList = reference.path.toList ∧
      Path.parse reference.path = .ok reference.segments := by
  obtain ⟨body, among, readHole⟩ := exists_ofHole_of_mem read member
  obtain ⟨piece, -⟩ := exists_pieces_of_ofHole (Token.enclosable_of_mem_bodies among) readHole
  exact ⟨piece.trimmed, parse_path readHole⟩

/-- The parts of a reference are those of its path, and none for an empty path. -/
theorem parts_of_ofHole {position : Nat} {body : List Char} {reference : Reference}
    (read : ofHole position body = .ok reference) :
    reference.parts = if reference.path.toList.isEmpty then []
      else (Path.parts reference.path.toList).map String.ofList := by
  obtain ⟨segments, -, made⟩ := Outcome.bind_eq_ok.mp read
  rw [← Except.ok.inj made, String.toList_ofList]

/-- Pieces are written as they were read. -/
theorem render_map_parse {steps : List String}
    (pieces : ∀ step ∈ steps, IsPiece step.toList ∧ step ≠ "") :
    (steps.map Step.parse).map Step.render = steps := by
  rw [List.map_map]
  refine (List.map_congr_left fun step member => ?_).trans (List.map_id _)
  obtain ⟨piece, filled⟩ := pieces step member
  rw [Function.comp_apply, Step.render_parse piece.trimmed filled, id]

/-- **Building and reading are inverse to each other.** A reference built from a path and steps
that are pieces, the path with indexes that can be read, is read as one reference, which spans the
built text and has this path and these steps. A reference of a text, built anew from its path and
its steps as they are written, is read as one reference with the same path and the same steps. -/
theorem references_build :
    (∀ path steps, IsPiece path.toList →
      (∀ step ∈ steps, IsPiece step.toList ∧ step ≠ "") → Path.IndexesFit path →
      ∃ reference, references (build path steps) = .ok [reference] ∧
        reference.raw = build path steps ∧
        reference.start = 0 ∧ reference.stop = (build path steps).length ∧
        reference.path = path ∧ Path.parse path = .ok reference.segments ∧
        reference.steps = steps.map Step.parse ∧ reference.steps.map Step.render = steps) ∧
    (∀ text found, references text = .ok found → ∀ reference ∈ found,
      ∃ again, references (build reference.path (reference.steps.map Step.render)) = .ok [again] ∧
        again.path = reference.path ∧ again.parts = reference.parts ∧
        again.segments = reference.segments ∧ again.steps = reference.steps) := by
  constructor
  · intro path steps pathPiece stepPieces fit
    obtain ⟨segments, parsed⟩ := Path.parse_succeeds_iff.mpr fit
    have read := references_build_eq pathPiece stepPieces
    rw [parsed, Outcome.ok_bind] at read
    exact ⟨_, read, rfl, rfl, rfl, rfl, parsed, rfl, render_map_parse stepPieces⟩
  · intro text found reads reference member
    obtain ⟨body, among, readHole⟩ := exists_ofHole_of_mem reads member
    obtain ⟨pathPiece, steps, stepPieces, parsedSteps⟩ :=
      exists_pieces_of_ofHole (Token.enclosable_of_mem_bodies among) readHole
    have read := references_build_eq pathPiece stepPieces
    rw [parse_path readHole, Outcome.ok_bind] at read
    rw [parsedSteps, render_map_parse stepPieces]
    exact ⟨_, read, rfl, (parts_of_ofHole readHole).symm, rfl, rfl⟩

/-- Single braces at the ends of the path and a bar between them, and colons within quotes. -/
theorem references_build_braces :
    (∃ reference,
      references (build "\x7ba[1].b\x7b" ["default:\"x:y\"", "\x7bz"]) = .ok [reference] ∧
      reference.path = "\x7ba[1].b\x7b" ∧
      reference.steps.map Step.render = ["default:\"x:y\"", "\x7bz"]) ∧
    ∃ again, references (build "" ["upper"]) = .ok [again] ∧ again.path = "" ∧
      again.steps = [⟨"upper", [], "upper"⟩] := by
  have pathPiece : IsPiece "\x7ba[1].b\x7b".toList := ⟨by decide, by decide, by decide, by decide⟩
  have stepPieces : ∀ step ∈ ["default:\"x:y\"", "\x7bz"], IsPiece step.toList ∧ step ≠ "" := by
    simp only [List.forall_mem_cons]
    exact ⟨⟨⟨by decide, by decide, by decide, by decide⟩, by decide⟩,
      ⟨⟨by decide, by decide, by decide, by decide⟩, by decide⟩, by simp⟩
  have parsed : Path.parse "\x7ba[1].b\x7b" = .ok [⟨"\x7ba", [1]⟩, ⟨"b\x7b", []⟩] := rfl
  obtain ⟨reference, read, -, -, -, path, -, -, steps⟩ :=
    references_build.1 "\x7ba[1].b\x7b" ["default:\"x:y\"", "\x7bz"] pathPiece stepPieces
      (Path.parse_succeeds_iff.mp ⟨_, parsed⟩)
  have reads : references "{{ | upper | }}" = .ok
      [⟨"{{ | upper | }}", "", [], [], [⟨"upper", [], "upper"⟩], 0, 15⟩] := rfl
  obtain ⟨again, readAgain, samePath, -, -, sameSteps⟩ :=
    references_build.2 "{{ | upper | }}" _ reads _ List.mem_cons_self
  exact ⟨⟨reference, read, path, steps⟩, again, readAgain, samePath, sameSteps⟩

end Reference
end Stencil
