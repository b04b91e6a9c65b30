import Stencil.Proofs.Template.Argument
import Stencil.Proofs.Template.Build
import Stencil.Proofs.Template.Valid

/-!
# Calls built into a reference

A call that was made without a text is written as its name and its arguments, as they are, with
colons between them. So its name is always read back, and its arguments are exactly if they stand
(`Step.IsCall.parse_render`). The main statement is `Reference.survive_iff`: a valid path and such
calls are read back from the reference that they are built into exactly if the indexes of the path
can be read and the arguments of each call stand.
-/

namespace Stencil

open Text

namespace Path

/-- The characters that valid paths are written with. -/
theorem of_mem_of_isValid {path : String} (trimmed : trim path.toList = path.toList)
    (valid : isValid path = true) {c : Char} (member : c ∈ path.toList) :
    c = '.' ∨ c = '[' ∨ c = ']' ∨ isDecimal c = true ∨ continuesIdentifier c = true := by
  by_cases point : c = '.'
  · exact .inl point
  · obtain ⟨part, among, inside⟩ := exists_mem_splitOn member point
    obtain ⟨cut, validParts⟩ := parts_of_isValid trimmed valid
    obtain ⟨name, groups, rfl, -, named, numerals⟩ :=
      exists_isIdentifier (validParts part (cut ▸ among))
    rcases List.mem_append.mp inside with front | back
    · exact .inr (.inr (.inr (.inr (named c front))))
    · rcases of_mem_bracketed numerals back with opening | closing | digit
      · exact .inr (.inl opening)
      · exact .inr (.inr (.inl closing))
      · exact .inr (.inr (.inr (.inl digit)))

/-- A valid path can stand in front of the bars of a hole. -/
theorem isPiece_of_isValid {path : String} (trimmed : trim path.toList = path.toList)
    (valid : isValid path = true) : IsPiece path.toList := by
  have foreign {c : Char} (other : ¬ (c = '.' ∨ c = '[' ∨ c = ']' ∨ isDecimal c = true ∨
      continuesIdentifier c = true)) : c ∉ path.toList :=
    fun member => other (of_mem_of_isValid trimmed valid member)
  exact {
    trimmed := trimmed
    noBar := foreign (by decide)
    enclosable := {
      noClosing := foreign (by decide)
      noOpening := fun opening => foreign (by decide) (opening.subset List.mem_cons_self) } }

end Path

namespace Step

section Name

variable {name : List Char}

/-- An identifier has nothing to trim. -/
theorem trim_of_isIdentifier (identifier : Path.isIdentifier name = true) : trim name = name :=
  Path.trim_of_isValidPart (Path.isValidPart_of_isIdentifier identifier)

/-- Nothing in an identifier cuts it or opens a quote. -/
theorem isWhole_of_isIdentifier (identifier : Path.isIdentifier name = true) : IsWhole name := by
  have foreign {c : Char} (other : Path.continuesIdentifier c = false) : c ∉ name :=
    Path.not_mem_of_isIdentifier identifier other
  refine .bare (fun c first => ?_) (foreign (by decide))
  have solid := (trim_eq_self_iff _).mp (trim_of_isIdentifier identifier)
  rw [(trimStart_eq_self_iff _).mpr solid.1] at first
  by_contra opens
  rw [Bool.not_eq_false, isQuote, Bool.or_eq_true, beq_iff_eq, beq_iff_eq] at opens
  rcases opens with rfl | rfl <;> exact foreign (by decide) (List.mem_of_mem_head? first)

end Name

/-- A call that was made without a text, of an identifier, with arguments that a hole can hold. -/
structure IsCall (step : Step) : Prop where
  unwritten : step.text = ""
  identifier : Path.isIdentifier step.name.toList = true
  noBar : ∀ arg ∈ step.args, '|' ∉ arg.toList
  enclosable : ∀ arg ∈ step.args, Token.Enclosable arg.toList

namespace IsCall

variable {step : Step}

/-- A call is written as its name and its arguments with colons between. -/
theorem toList_render (call : IsCall step) :
    step.render.toList = [':'].intercalate (step.name.toList :: step.args.map String.toList) := by
  have unwritten : step.text.isEmpty = true := by
    rw [call.unwritten]
    rfl
  rw [render, if_pos unwritten, String.toList_intercalate]
  rfl

/-- The name of a call has no foreign characters. -/
theorem not_mem_name (call : IsCall step) {c : Char}
    (foreign : Path.continuesIdentifier c = false) : c ∉ step.name.toList :=
  Path.not_mem_of_isIdentifier call.identifier foreign

/-- The name of a call has nothing to trim. -/
theorem trim_name (call : IsCall step) : trim step.name.toList = step.name.toList :=
  trim_of_isIdentifier call.identifier

/-- The name of a call is whole. -/
theorem isWhole_name (call : IsCall step) : IsWhole step.name.toList :=
  isWhole_of_isIdentifier call.identifier

/-- No part of a written call holds a bar. -/
theorem noBar_render (call : IsCall step) : '|' ∉ step.render.toList := by
  rw [call.toList_render]
  intro bar
  obtain ⟨piece, among, inside⟩ := exists_mem_of_mem_intercalate bar (by decide)
  rcases List.mem_cons.mp among with rfl | later
  · exact call.not_mem_name (by decide) inside
  · obtain ⟨arg, member, rfl⟩ := List.mem_map.mp later
    exact call.noBar arg member inside

/-- A written call fits into braces. -/
theorem enclosable_render (call : IsCall step) : Token.Enclosable step.render.toList := by
  rw [call.toList_render]
  refine Token.enclosable_intercalate (by decide) (by decide) (List.forall_mem_cons.mpr ⟨?_, ?_⟩)
  · exact ⟨call.not_mem_name (by decide),
      fun opening => call.not_mem_name (by decide) (opening.subset List.mem_cons_self)⟩
  · exact List.forall_mem_map.mpr call.enclosable

/-- The pieces of a written call are its name and the pieces of its arguments, which lose the blanks
behind the last one. -/
theorem pieces_trim_render (call : IsCall step) : pieces [] none (trim step.render.toList) =
    step.name.toList :: if step.args = [] then []
      else pieces [] none (trimEnd ([':'].intercalate (step.args.map String.toList))) := by
  have named (behind : List Char) :
      trim (step.name.toList ++ behind) = trimEnd (step.name.toList ++ behind) := by
    have solid := ((trim_eq_self_iff _).mp call.trim_name).1.append
      (Path.ne_nil_of_isIdentifier call.identifier) behind
    rw [trim, (trimStart_eq_self_iff _).mpr solid]
  rw [call.toList_render]
  split_ifs with none
  · rw [none, List.map_nil, List.intercalate_singleton, call.trim_name]
    exact pieces_eq_singleton_iff.mpr (.inl call.isWhole_name)
  · have some : step.args.map String.toList ≠ [] := by simpa using none
    rw [List.intercalate_cons_of_ne_nil some, List.append_assoc, List.singleton_append, named,
      trimEnd_append_cons (by decide), pieces_append_of_isWhole call.isWhole_name, pieces,
      if_pos rfl, List.reverse_reverse]

theorem trim_render_ne_nil (call : IsCall step) : trim step.render.toList ≠ [] := by
  intro void
  have named := call.pieces_trim_render
  rw [void, pieces, List.reverse_nil, List.cons.injEq] at named
  exact (Path.ne_nil_of_isIdentifier call.identifier) named.1.symm

/-- Unquoted arguments are the same as texts and as characters. -/
theorem map_ofList_unquote_eq_iff {found : List (List Char)} {args : List String} :
    (found.map fun arg => String.ofList (unquote arg)) = args ↔
      found.map unquote = args.map String.toList := by
  constructor
  · rintro rfl
    simp [Function.comp_def]
  · intro same
    have again := congrArg (List.map String.ofList) same
    simpa [Function.comp_def] using again

/-- **A written call is read back:** its name always, its arguments exactly if they stand. -/
theorem parse_render (call : IsCall step) : (parse step.render).name = step.name ∧
    ((parse step.render).args = step.args ↔ Stand (step.args.map String.toList)) := by
  rw [parse, call.pieces_trim_render]
  dsimp only
  constructor
  · rw [List.head?_cons, Option.getD_some, call.trim_name, String.ofList_toList]
  · rw [List.tail_cons, map_ofList_unquote_eq_iff]
    split_ifs with none
    · simp [none, stand_nil]
    · exact read_intercalate_iff (by simpa using none)

end IsCall
end Step

namespace Reference

/-- A path and calls survive: the reference that they are built into is read as one reference, which
has this path and calls the same transformations with the same arguments. -/
def Survive (path : String) (calls : List Step) : Prop :=
  ∃ reference, references (build path (calls.map Step.render)) = .ok [reference] ∧
    reference.path = path ∧
    (reference.steps.map fun step => (step.name, step.args)) =
      calls.map fun call => (call.name, call.args)

/-- **Which calls survive.** A valid path and calls that were made without a text survive exactly if
each index of the path can be read and the arguments of each call stand: none of them is cut at a
colon or holds one open, none is wrapped in quotes, and no blank stands behind the last. -/
theorem survive_iff {path : String} {calls : List Step}
    (trimmed : trim path.toList = path.toList) (valid : Path.isValid path = true)
    (made : ∀ call ∈ calls, Step.IsCall call) :
    Survive path calls ↔
      Path.IndexesFit path ∧ ∀ call ∈ calls, Step.Stand (call.args.map String.toList) := by
  have read := references_build_of_noBar (Path.isPiece_of_isValid trimmed valid)
    (List.forall_mem_map.mpr fun call member => (made call member).noBar_render)
    (List.forall_mem_map.mpr fun call member => (made call member).enclosable_render)
    (List.forall_mem_map.mpr fun call member => (made call member).trim_render_ne_nil)
  have same : (((calls.map Step.render).map Step.parse).map fun step => (step.name, step.args)) =
      (calls.map fun call => (call.name, call.args)) ↔
        ∀ call ∈ calls, Step.Stand (call.args.map String.toList) := by
    rw [List.map_map, List.map_map, List.map_inj_left]
    refine forall₂_congr fun call member => ?_
    obtain ⟨name, args⟩ := (made call member).parse_render
    rw [← args, Function.comp_apply, Function.comp_apply, Prod.mk.injEq, name]
    exact and_iff_right rfl
  rw [Survive, read, ← Path.parse_succeeds_iff, ← same]
  constructor
  · rintro ⟨reference, found, -, steps⟩
    obtain ⟨segments, parsed, only⟩ := Outcome.bind_eq_ok.mp found
    cases only
    exact ⟨⟨segments, parsed⟩, steps⟩
  · rintro ⟨⟨segments, parsed⟩, steps⟩
    rw [parsed]
    exact ⟨_, rfl, rfl, steps⟩

/-- Colons behind quotes, and a quote that stays open in the last argument. -/
theorem survive_quotes : Survive "a[0].b" [⟨"default", ["\"p:q\" or", "'r:s"], ""⟩] := by
  have made : Step.IsCall ⟨"default", ["\"p:q\" or", "'r:s"], ""⟩ := {
    unwritten := rfl
    identifier := by decide
    noBar := by decide
    enclosable := by
      simp only [List.forall_mem_cons]
      exact ⟨⟨by decide, by decide⟩, ⟨by decide, by decide⟩, by simp⟩ }
  have parsed : Path.parse "a[0].b" = .ok [⟨"a", [0]⟩, ⟨"b", []⟩] := rfl
  have quoted : Step.IsWhole "\"p:q\" or".toList :=
    @Step.IsWhole.quoted [] '"' ['p', ':', 'q'] [' ', 'o', 'r'] rfl rfl (by decide) (by decide)
  have isOpen : Step.IsOpen "'r:s".toList :=
    @Step.IsOpen.intro [] '\'' ['r', ':', 's'] rfl rfl (by decide)
  have unwrapped : ∀ arg ∈ ["\"p:q\" or", "'r:s"].map String.toList, ¬ Step.IsWrapped arg := by
    simp only [List.map_cons, List.forall_mem_cons, ← Step.unquote_eq_self_iff]
    exact ⟨by decide, by decide, by simp⟩
  have stand : Step.Stand (["\"p:q\" or", "'r:s"].map String.toList) := {
    apart := ⟨quoted, .inr isOpen⟩
    unwrapped := unwrapped
    solid := fun last member => by
      rw [← Option.some.inj member, ← trimEnd_eq_self_iff]
      decide }
  exact (survive_iff (by decide) (by decide) (List.forall_mem_singleton.mpr made)).mpr
    ⟨Path.parse_succeeds_iff.mp ⟨_, parsed⟩, List.forall_mem_singleton.mpr stand⟩

/-- A colon in an argument cuts it. -/
theorem not_survive_colon : trim "a".toList = "a".toList ∧ Path.isValid "a" = true ∧
    Step.IsCall ⟨"default", ["x:y"], ""⟩ ∧ ¬ Survive "a" [⟨"default", ["x:y"], ""⟩] := by
  refine ⟨by decide, by decide, ⟨rfl, by decide, by decide, ?_⟩, ?_⟩
  · exact List.forall_mem_singleton.mpr ⟨by decide, by decide⟩
  · rintro ⟨reference, read, -, steps⟩
    have cut : references (build "a" (([⟨"default", ["x:y"], ""⟩] : List Step).map Step.render)) =
        .ok [⟨"{{a|default:x:y}}", "a", ["a"], [⟨"a", []⟩],
          [⟨"default", ["x", "y"], "default:x:y"⟩], 0, 17⟩] := rfl
    cases cut.symm.trans read
    revert steps
    decide

end Reference
end Stencil
