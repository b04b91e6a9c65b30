import Stencil.Proofs.Resolve.Success
import Stencil.Proofs.Template.Name
import Stencil.Proofs.Template.Span

/-!
# Texts that can be resolved anywhere

Two things in a text can end its resolution with a fault: an index with too many digits to be read,
and a name of digits, behind another name, that denotes no position. A safe text has neither in its
holes. The main statement is `holesAreSafe_iff`: a text is safe exactly if its references are read
and all of them are sound.
-/

namespace Stencil

open Outcome

namespace Path

/-- A path that is read, and whose names behind the first one can be looked up in every value. -/
structure IsSafe (path : String) : Prop where
  indexes : IndexesFit path
  names : ∀ part ∈ (parts path.toList).tail,
    Value.isSoundName (String.ofList (nameOf part)) = true

end Path

namespace Reference

/-- A reference is sound if the parts of its path behind the first one have sound names. -/
theorem isSound_iff {position : Nat} {body : List Char} {reference : Reference}
    (read : ofHole position body = .ok reference) :
    reference.isSound = true ↔ ∀ part ∈ (Path.parts (pathIn body).toList).tail,
      Value.isSoundName (String.ofList (Path.nameOf part)) = true := by
  have named : reference.isSound =
      (reference.segments.tail.map (·.name)).all Value.isSoundName := by
    rw [isSound, List.all_map]
    rfl
  rw [named, Path.tail_names_of_parse (parse_path read), path_eq_pathIn read, List.all_map,
    List.all_eq_true]
  rfl

/-- A hole has a safe path if it is read as a sound reference. -/
theorem isSafe_pathIn_iff {position : Nat} {body : List Char} :
    Path.IsSafe (pathIn body) ↔
      ∃ reference, ofHole position body = .ok reference ∧ reference.isSound = true := by
  constructor
  · rintro ⟨indexes, names⟩
    have reads : Succeeds (ofHole position body) :=
      succeeds_map_iff.mpr (Path.parse_succeeds_iff.mpr indexes)
    obtain ⟨reference, read⟩ := reads
    exact ⟨reference, read, (isSound_iff read).mpr names⟩
  · rintro ⟨reference, read, sound⟩
    have indexes : Path.IndexesFit reference.path :=
      Path.parse_succeeds_iff.mp ⟨_, parse_path read⟩
    rw [path_eq_pathIn read] at indexes
    exact ⟨indexes, (isSound_iff read).mp sound⟩

end Reference

/-- All holes of a text have safe paths. -/
def HolesAreSafe (text : String) : Prop :=
  ∀ body ∈ Token.bodies (Token.tokens text.toList), Path.IsSafe (Reference.pathIn body)

/-- The holes of a text are safe if and only if its references can be read and are sound. -/
theorem holesAreSafe_iff {text : String} :
    HolesAreSafe text ↔ ∃ found, references text = .ok found ∧
      ∀ reference ∈ found, reference.isSound = true := by
  suffices aux : ∀ (tokens : List Token) (position : Nat),
      (∀ body ∈ Token.bodies tokens, Path.IsSafe (Reference.pathIn body)) ↔
        ∃ found, Reference.ofTokens position tokens = .ok found ∧
          ∀ reference ∈ found, reference.isSound = true from
    aux _ 0
  intro tokens
  induction tokens with
  | nil =>
    intro position
    exact ⟨fun _ => ⟨[], rfl, by simp⟩, fun _ body member => (List.not_mem_nil member).elim⟩
  | cons token rest ih =>
    intro position
    cases token with
    | char c => exact ih (position + 1)
    | hole body =>
      rw [Token.bodies, List.forall_mem_cons, ih (position + body.length + 4),
        @Reference.isSafe_pathIn_iff position]
      constructor
      · rintro ⟨⟨reference, here, sound⟩, others, behind, restSound⟩
        exact ⟨reference :: others,
          Reference.ofTokens_hole_eq_ok.mpr ⟨reference, others, here, behind, rfl⟩,
          List.forall_mem_cons.mpr ⟨sound, restSound⟩⟩
      · rintro ⟨found, read, sound⟩
        obtain ⟨reference, others, here, behind, rfl⟩ := Reference.ofTokens_hole_eq_ok.mp read
        rw [List.forall_mem_cons] at sound
        exact ⟨⟨reference, here, sound.1⟩, others, behind, sound.2⟩

end Stencil
