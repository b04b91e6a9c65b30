import Stencil.Proofs.Resolve.Filling
import Stencil.Proofs.Resolve.Lookup
import Stencil.Proofs.Transform.Writable

/-!
# Fillings that there are

A reference is resolved and shown without a fault if its path is sound and neither the context nor
the transformations hold an integer that is too long to be written
(`Filling.ofReference_succeeds`). A text whose references are all so has fillings
(`Filling.exists_ofText_of_succeeds`).
-/

namespace Stencil

open Outcome

/-- Whether a reference can be looked up in every context: the segments of its path but the first
one can be followed from every value. -/
def Reference.isSound (reference : Reference) : Bool :=
  reference.segments.tail.all (·.isSound)

namespace Reference

variable {registry : Registry} {values : Fields Value} {reference : Reference}

/-- A sound reference can be followed among writable values. -/
theorem pathValue_succeeds (writable : values.areWritable = true)
    (sound : reference.isSound = true) : Succeeds (reference.pathValue values) := by
  rw [pathValue]
  split_ifs
  · exact succeeds_ok _
  · exact lookup_succeeds_iff.mpr (List.all_eq_true.mp sound) values writable

/-- A path leads among writable values to a writable one. -/
theorem isWritable_of_pathValue {found : Value} (writable : values.areWritable = true)
    (leads : reference.pathValue values = .ok found) : found.isWritable = true := by
  rw [pathValue] at leads
  split_ifs at leads
  · rw [← Except.ok.inj leads]
    rfl
  · exact isWritable_of_lookup writable leads

/-- A reference is resolved among writable values to a writable one. -/
theorem isWritable_of_resolve {resolution : Resolution} (keeps : registry.KeepsWritable)
    (writable : values.areWritable = true)
    (resolves : reference.resolve registry values = .ok resolution) :
    resolution.value.isWritable = true := by
  obtain ⟨found, leads, made⟩ := bind_eq_ok.mp resolves
  rw [← Except.ok.inj made]
  exact keeps.applyAll reference.steps (isWritable_of_pathValue writable leads)

end Reference

namespace Filling

variable {registry : Registry} {values : Fields Value} {reference : Reference}

/-- A sound reference has a filling among writable values. -/
theorem ofReference_succeeds (keeps : registry.KeepsWritable)
    (writable : values.areWritable = true) (sound : reference.isSound = true) :
    Succeeds (ofReference registry values reference) := by
  have resolves : Succeeds (reference.resolve registry values) :=
    succeeds_map_iff.mpr (Reference.pathValue_succeeds writable sound)
  obtain ⟨resolution, resolved⟩ := resolves
  rw [ofReference, resolved, ok_bind, succeeds_map_iff]
  exact Value.shown?_succeeds (Reference.isWritable_of_resolve keeps writable resolved)

/-- References that all have a filling are those of the fillings of their text. -/
theorem exists_ofText_of_succeeds {text : String} {found : List Reference}
    (reads : references text = .ok found)
    (each : ∀ reference ∈ found, Succeeds (ofReference registry values reference)) :
    ∃ fillings, ofText registry values text = .ok fillings ∧
      fillings.map (·.reference) = found := by
  obtain ⟨fillings, taken⟩ := mapM_succeeds_iff.mpr each
  have own (reference : Reference) (filling : Filling)
      (filled : ofReference registry values reference = .ok filling) :
      ∃ cause : Filling, cause.reference = reference ∧ cause = filling ∧
        ofReference registry values cause.reference = .ok cause := by
    obtain ⟨rfl, -⟩ := ofReference_eq_ok_iff.mp filled
    exact ⟨filling, rfl, rfl, filled⟩
  obtain ⟨causes, rfl, -, filled⟩ := exists_of_mapM_eq_ok own taken
  exact ⟨causes, ofText_eq_ok_iff.mpr ⟨reads, filled⟩, rfl⟩

end Filling
end Stencil
