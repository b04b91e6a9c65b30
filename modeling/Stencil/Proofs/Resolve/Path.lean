import Stencil.Proofs.Resolve.Filling
import Stencil.Resolve.Resolver

/-!
# Paths that lead nowhere

Whether a reference is resolved is decided by its path alone, looked up as it is written
(`Filling.lacks_path`), and references that are written alike are resolved alike
(`Filling.alike_of_mem_ofText`). So the paths that lead nowhere are found in the distinct
references as well as in all of them (`Filling.unresolvedPaths_firstOn`).
-/

namespace Stencil

/-- Whether a path leads nowhere in a context. -/
def Context.lacks (context : Context) (path : String) : Bool :=
  match context.resolve path with
  | .ok value => value.isUndefined
  | .error _ => false

namespace Reference

/-- A path looked up as it is written leads where the reference does. -/
theorem resolve_path_eq {position : Nat} {body : List Char} {reference : Reference}
    (read : ofHole position body = .ok reference) (context : Context) :
    context.resolve reference.path = reference.pathValue context.merged := by
  have parsed := parse_path read
  rw [Context.resolve, parsed, pathValue]
  split_ifs with empty
  · -- an empty path has no segments, and no segments lead nowhere
    have blank : reference.path = "" := String.isEmpty_iff.mp empty
    rw [blank] at parsed
    rw [← Except.ok.inj parsed]
    rfl
  · rfl

end Reference

namespace Filling

variable {registry : Registry} {values : Fields Value} {context : Context} {text : String}
  {fillings : List Filling}

/-- A reference is resolved if its path leads somewhere. -/
theorem exists_pathValue {filling : Filling}
    (filled : ofReference registry values filling.reference = .ok filling) :
    ∃ value, filling.reference.pathValue values = .ok value ∧
      value.isUndefined = !filling.resolution.resolved := by
  obtain ⟨-, resolves, -⟩ := ofReference_eq_ok_iff.mp filled
  obtain ⟨value, leads, made⟩ := Outcome.bind_eq_ok.mp resolves
  refine ⟨value, leads, ?_⟩
  rw [← Except.ok.inj made, Bool.not_not]

/-- The paths that a test of the path alone picks are the paths without repeats that pass it. -/
theorem pathsWhere_eq_filter {picked : Filling → Bool} {test : String → Bool}
    (same : ∀ filling ∈ fillings, picked filling = test filling.reference.path) :
    pathsWhere picked fillings = (fillings.map (·.reference.path)).eraseDups.filter test := by
  rw [pathsWhere, List.filter_congr same, ← eraseDups_filter, List.filter_map]
  rfl

/-- Fillings of a text whose references are written alike differ in their positions only. -/
theorem alike_of_mem_ofText (read : ofText registry values text = .ok fillings)
    {filling other : Filling} (member : filling ∈ fillings) (also : other ∈ fillings)
    (same : filling.reference.raw = other.reference.raw) :
    filling.reference.path = other.reference.path ∧ filling.resolution = other.resolution := by
  obtain ⟨reads, filled⟩ := ofText_eq_ok_iff.mp read
  have hole (item : Filling) (among : item ∈ fillings) : ∃ body,
      ofHole registry values item.reference.start body = .ok item := by
    obtain ⟨body, -, readHole⟩ :=
      Reference.exists_ofHole_of_mem reads (List.mem_map_of_mem among)
    exact ⟨body, ofHole_eq_ok_iff.mpr ⟨readHole, filled item among⟩⟩
  obtain ⟨body, there⟩ := hole filling member
  obtain ⟨otherBody, here⟩ := hole other also
  obtain ⟨path, resolution, -⟩ := alike_of_raw_eq there here same
  exact ⟨path, resolution⟩

/-- The path of a reference leads to a value in the context if and only if the reference is
resolved. -/
theorem exists_resolve_path (read : ofText registry context.merged text = .ok fillings)
    {filling : Filling} (member : filling ∈ fillings) :
    ∃ value, context.resolve filling.reference.path = .ok value ∧
      value.isUndefined = !filling.resolution.resolved := by
  obtain ⟨reads, filled⟩ := ofText_eq_ok_iff.mp read
  obtain ⟨body, -, readHole⟩ := Reference.exists_ofHole_of_mem reads (List.mem_map_of_mem member)
  rw [Reference.resolve_path_eq readHole]
  exact exists_pathValue (filled filling member)

/-- A reference is unresolved if and only if the context lacks its path. -/
theorem lacks_path (read : ofText registry context.merged text = .ok fillings)
    {filling : Filling} (member : filling ∈ fillings) :
    (!filling.resolution.resolved) = context.lacks filling.reference.path := by
  obtain ⟨value, leads, same⟩ := exists_resolve_path read member
  rw [Context.lacks, leads, ← same]

/-- First occurrences of raw texts have all the paths that lead nowhere. -/
theorem unresolvedPaths_firstOn (read : ofText registry context.merged text = .ok fillings) :
    unresolvedPaths (firstOn (·.reference.raw) fillings) = unresolvedPaths fillings := by
  have kept : ((firstOn (·.reference.raw) fillings).map (·.reference.path)).eraseDups =
      (fillings.map (·.reference.path)).eraseDups :=
    eraseDups_map_firstOn fun filling member other also same =>
      (alike_of_mem_ofText read member also same).1
  rw [unresolvedPaths, unresolvedPaths, pathsWhere_eq_filter fun filling => lacks_path read,
    pathsWhere_eq_filter fun filling first => lacks_path read (mem_of_mem_firstOn first), kept]

/-- What fillings say of their paths, taken together without repeats, is which lead nowhere. -/
theorem eraseDups_flatMap_unresolvedPaths
    (filled : ∀ filling ∈ fillings, ofReference registry values filling.reference = .ok filling) :
    (fillings.flatMap (·.resolution.unresolvedPaths)).eraseDups = unresolvedPaths fillings := by
  suffices same : fillings.flatMap (·.resolution.unresolvedPaths) =
      (fillings.filter (!·.resolution.resolved)).map (·.reference.path) by
    rw [same, unresolvedPaths, pathsWhere]
  induction fillings with
  | nil => rfl
  | cons filling rest ih =>
    rw [List.forall_mem_cons] at filled
    obtain ⟨-, resolves, -⟩ := ofReference_eq_ok_iff.mp filled.1
    obtain ⟨value, -, made⟩ := Outcome.bind_eq_ok.mp resolves
    rw [List.flatMap_cons, ih filled.2, List.filter_cons, ← Except.ok.inj made]
    cases undefined : value.isUndefined <;> simp

/-- No path is unresolved if and only if every reference is resolved. -/
theorem isEmpty_unresolvedPaths (fillings : List Filling) :
    (unresolvedPaths fillings).isEmpty = fillings.all (·.resolution.resolved) := by
  rw [Bool.eq_iff_iff, List.isEmpty_iff, unresolvedPaths, pathsWhere_eq_nil_iff, List.all_eq_true]
  simp only [Bool.not_eq_false']

end Filling
end Stencil
