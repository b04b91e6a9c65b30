import Stencil.Proofs.Resolve.Template

/-!
# What an editor shows

An editor asks for the look of a template and for the paths in it that lead nowhere, and it gets
its answers by other ways than a run does: a list of the distinct references, the paths looked up
as they are written, the references without a memory. The main statement is `preview_agrees`: what
the editor shows is what a run yields.
-/

namespace Stencil

namespace Filling

/-- How a filling is previewed. -/
def previewed (filling : Filling) : PreviewedReference :=
  ⟨filling.reference.raw, filling.reference.path, filling.resolution.value,
    filling.resolution.resolved⟩

end Filling

namespace Resolver

variable {resolver : Resolver} {text : String} {source : Context.Source} {context : Context}
  {fillings : List Filling}

/-- A preview never raises. -/
theorem previewPolicy_ne_raise (resolver : Resolver) : resolver.previewPolicy ≠ .raise := by
  rw [previewPolicy]
  split_ifs with strict
  · decide
  · exact strict

/-- Under the policy of a preview, a text is resolved to what its fillings give. -/
theorem resolve_previewPolicy (loads : source.load = .ok context)
    (read : Filling.ofText resolver.registry context.merged text = .ok fillings)
    {name : Option String} (chosen : resolver.policy.chosen name = .ok resolver.previewPolicy) :
    resolver.resolve (.text text) source name =
      .ok (Filling.resolutionOf resolver.previewPolicy text fillings) := by
  rw [resolve_eq_outcome loads read chosen,
    Filling.outcome_of_ne_raise resolver.previewPolicy_ne_raise]

/-- A preview lists the fillings of the text. -/
theorem preview_eq (loads : source.load = .ok context)
    (read : Filling.ofText resolver.registry context.merged text = .ok fillings) :
    resolver.preview text source = .ok {
      template := text
      resolved := String.ofList
        (splice text.toList 0 (Filling.replacements resolver.previewPolicy fillings))
      references := (firstOn (·.reference.raw) fillings).map Filling.previewed
      diagnostics := Filling.diagnostics fillings } := by
  obtain ⟨reads, filled⟩ := Filling.ofText_eq_ok_iff.mp read
  have resolves := mapM_distinctReferences loads filled
  simp only [resolveReference_eq loads, Filling.distinctReferences_map] at resolves
  rw [preview, loads, Outcome.ok_bind, reads, Outcome.ok_bind, Filling.distinctReferences_map]
  dsimp only
  rw [resolves, Outcome.ok_bind, List.zip_map', List.map_map, List.flatMap_map]
  split_ifs with plain
  · -- a text without references is shown as it stands, which is what a pass makes of it
    rw [List.isEmpty_iff, List.map_eq_nil_iff, firstOn_eq_nil_iff] at plain
    rw [plain, Filling.replacements, List.map_nil, splice, List.drop_zero, String.ofList_toList]
    rfl
  · rw [resolveText_eq, read, Outcome.ok_bind,
      Filling.outcome_of_ne_raise resolver.previewPolicy_ne_raise]
    rfl

/-- The paths that an editor finds to lead nowhere are those of a run. -/
theorem unresolvedPaths_eq (loads : source.load = .ok context)
    (read : Filling.ofText resolver.registry context.merged text = .ok fillings) :
    resolver.unresolvedPaths text source = .ok (Filling.unresolvedPaths fillings) := by
  obtain ⟨reads, filled⟩ := Filling.ofText_eq_ok_iff.mp read
  have missing : (fillings.map (·.reference)).filterM (fun reference => do
      return (← reference.pathValue context.merged).isUndefined) =
      .ok ((fillings.filter (!·.resolution.resolved)).map (·.reference)) := by
    refine Outcome.filterM_map_eq_ok fun filling member => ?_
    obtain ⟨value, leads, same⟩ := Filling.exists_pathValue (filled filling member)
    rw [leads, ← same]
    rfl
  rw [unresolvedPaths, loads, Outcome.ok_bind, reads, Outcome.ok_bind, missing, Outcome.ok_bind,
    List.map_map]
  rfl

/-- Looking up the paths of a text one by one finds the same ones to lead nowhere. -/
theorem filterM_referencedPaths (read : Filling.ofText resolver.registry context.merged text =
    .ok fillings) :
    (fillings.map (·.reference.path)).eraseDups.filterM (fun path => do
      return (← context.resolve path).isUndefined) = .ok (Filling.unresolvedPaths fillings) := by
  have decides : ∀ path ∈ (fillings.map (·.reference.path)).eraseDups,
      (do return (← context.resolve path).isUndefined : Outcome Bool) =
        .ok (context.lacks path) := by
    intro path listed
    rw [List.mem_eraseDups] at listed
    obtain ⟨filling, member, rfl⟩ := List.mem_map.mp listed
    obtain ⟨value, leads, -⟩ := Filling.exists_resolve_path read member
    rw [Context.lacks, leads]
    rfl
  rw [Outcome.filterM_eq_ok decides, Filling.unresolvedPaths,
    Filling.pathsWhere_eq_filter fun filling => Filling.lacks_path read]

/-- What an editor shows of a template in a context agrees with what a run yields. -/
structure Agrees (resolver : Resolver) (text : String) (source : Context.Source)
    (context : Context) (found : List Reference) (preview : Preview) (resolution : Resolution) :
    Prop where
  value : resolution.value = .text preview.resolved
  diagnostics : preview.diagnostics = resolution.diagnostics
  /-- Each raw text is listed once, in order. -/
  listed : preview.references.map (·.raw) = (found.map (·.raw)).eraseDups
  /-- What is listed is what every reference written like it resolves to on its own. -/
  own : ∀ shown ∈ preview.references, ∀ reference ∈ found, reference.raw = shown.raw →
    ∃ resolved, resolver.resolveReference reference source = .ok resolved ∧
      shown.path = reference.path ∧ shown.value = resolved.value ∧
        shown.resolved = resolved.resolved
  shownPaths : (preview.unresolved.map (·.path)).eraseDups = resolution.unresolvedPaths
  unresolvedPaths : resolver.unresolvedPaths text source = .ok resolution.unresolvedPaths
  referencedPaths : ∃ paths, referencedPaths text = .ok paths ∧
    paths.filterM (fun path => do return (← context.resolve path).isUndefined) =
      .ok resolution.unresolvedPaths
  resolvable : resolver.canResolveAll text source = .ok resolution.resolved

/-- **The editor and the run agree.** Given that the references of a text are read, resolved and
shown without a fault, the text is previewed and it is resolved under the policy of previews, and
the two agree, also with the paths that are found to lead nowhere in the other ways. -/
theorem preview_agrees {found : List Reference} {resolutions : List Resolution}
    {texts : List (Option String)} {name : Option String} (loads : source.load = .ok context)
    (reads : references text = .ok found)
    (resolves : found.mapM (resolver.resolveReference · source) = .ok resolutions)
    (shows : resolutions.mapM (·.value.shown?) = .ok texts)
    (chosen : resolver.policy.chosen name = .ok resolver.previewPolicy) :
    ∃ preview resolution, resolver.preview text source = .ok preview ∧
      resolver.resolve (.text text) source name = .ok resolution ∧
      resolver.Agrees text source context found preview resolution := by
  simp only [resolveReference_eq loads] at resolves
  obtain ⟨fillings, read, rfl, rfl, rfl⟩ := Filling.exists_ofText reads resolves shows
  have filled := (Filling.ofText_eq_ok_iff.mp read).2
  have unresolved := unresolvedPaths_eq loads read
  refine ⟨_, _, preview_eq loads read, resolve_previewPolicy loads read chosen, ?_⟩
  refine ⟨rfl, rfl, ?_, ?_, ?_, unresolved, ?_, ?_⟩
  · rw [List.map_map, List.map_map]
    exact map_firstOn (·.reference.raw) fillings
  · intro shown listed reference among same
    obtain ⟨filling, first, rfl⟩ := List.mem_map.mp listed
    obtain ⟨other, also, rfl⟩ := List.mem_map.mp among
    obtain ⟨path, resolution⟩ :=
      Filling.alike_of_mem_ofText read (mem_of_mem_firstOn first) also same.symm
    refine ⟨other.resolution, ?_, path, ?_, ?_⟩
    · rw [resolveReference_eq loads]
      exact (Filling.ofReference_eq_ok_iff.mp (filled other also)).2.1
    · rw [← resolution]
      rfl
    · rw [← resolution]
      rfl
  · rw [Preview.unresolved, List.filter_map, List.map_map]
    exact Filling.unresolvedPaths_firstOn read
  · refine ⟨_, ?_, filterM_referencedPaths read⟩
    rw [referencedPaths, reads, Outcome.ok_bind, List.map_map]
    rfl
  · rw [canResolveAll, unresolved]
    rfl

/-- A resolver that refuses references without a value shows them as they are written. -/
theorem preview_agrees_raise :
    ∃ found preview resolution, references "a {{b}}{{b|first}}{{b}}" = .ok found ∧
      (builtin .raise "DD").preview "a {{b}}{{b|first}}{{b}}" (.live .empty) = .ok preview ∧
      (builtin .raise "DD").resolve (.text "a {{b}}{{b|first}}{{b}}") (.live .empty) (some "keep") =
        .ok resolution ∧
      (builtin .raise "DD").Agrees "a {{b}}{{b|first}}{{b}}" (.live .empty) .empty found preview
        resolution := by
  have reads : references "a {{b}}{{b|first}}{{b}}" = .ok
      [⟨"{{b}}", "b", ["b"], [⟨"b", []⟩], [], 2, 7⟩,
        ⟨"{{b|first}}", "b", ["b"], [⟨"b", []⟩], [⟨"first", [], "first"⟩], 7, 18⟩,
        ⟨"{{b}}", "b", ["b"], [⟨"b", []⟩], [], 18, 23⟩] := rfl
  obtain ⟨preview, resolution, previews, resolves, agrees⟩ :=
    @preview_agrees (builtin .raise "DD") _ (.live .empty) .empty _
      [⟨.undefined, false, [.unresolvedPath "b"], ["b"]⟩,
        ⟨.undefined, false, [.unresolvedPath "b"], ["b"]⟩,
        ⟨.undefined, false, [.unresolvedPath "b"], ["b"]⟩]
      [none, none, none] (some "keep") rfl reads rfl rfl rfl
  exact ⟨_, preview, resolution, reads, previews, resolves, agrees⟩

end Resolver
end Stencil
