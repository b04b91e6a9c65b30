import Stencil.Proofs.Resolve.Policy
import Stencil.Proofs.Transform.Undefined

/-!
# Texts whose references end in a default

A policy has something to say only of references without a value. With the built-in transformations
a reference whose last step is a default has one in any case: whether its path leads somewhere, and
whatever the steps before make of the value, fail to do, or are. The main statement is
`resolve_guarded`.
-/

namespace Stencil

/-- The last step of a reference is a default, with a fallback of its own or without. -/
def Reference.EndsInDefault (reference : Reference) : Prop :=
  ∃ front last, reference.steps = front ++ [last] ∧
    last.name = "default" ∧ last.args.length ≤ 1

/-- A reference that ends in a default has a value. -/
theorem Reference.isUndefined_of_endsInDefault {dateTemplate : String} {values : Fields Value}
    {reference : Reference} {resolution : Resolution} (guarded : reference.EndsInDefault)
    (resolves : reference.resolve (Builtin.registry dateTemplate) values = .ok resolution) :
    resolution.value.isUndefined = false := by
  obtain ⟨front, last, steps, named, few⟩ := guarded
  obtain ⟨found, -, made⟩ := Outcome.bind_eq_ok.mp resolves
  rw [← Except.ok.inj made, steps]
  exact Builtin.isUndefined_applyAll_default named few found front

namespace Resolver

variable {configured : Policy} {dateTemplate text : String} {source : Context.Source}
  {context : Context} {found : List Reference} {resolutions : List Resolution}

/-- **A closing default.** Where every reference of a text ends in a default and is read, resolved
and shown without a fault, all of them have a value, and the text is resolved alike under all
policies. -/
theorem resolve_guarded (loads : source.load = .ok context)
    (settles : (builtin configured dateTemplate).Settles text source found resolutions)
    (guarded : ∀ reference ∈ found, reference.EndsInDefault) :
    (∀ resolution ∈ resolutions, resolution.value.isUndefined = false) ∧
    ∃ resolution, ∀ policy,
      (builtin configured dateTemplate).YieldsUnder policy text source (.ok resolution) := by
  obtain ⟨fillings, read, rfl, rfl⟩ := settles.exists_ofText loads
  have filled := (Filling.ofText_eq_ok_iff.mp read).2
  have defined : ∀ filling ∈ fillings, filling.resolution.value.isUndefined = false := by
    intro filling member
    exact Reference.isUndefined_of_endsInDefault
      (guarded filling.reference (List.mem_map_of_mem member))
      (Filling.ofReference_eq_ok_iff.mp (filled filling member)).2.1
  constructor
  · intro resolution member
    obtain ⟨filling, among, rfl⟩ := List.mem_map.mp member
    exact defined filling among
  · refine ⟨Filling.resolutionOf .raise text fillings, fun policy => ?_⟩
    have outcome := yieldsUnder_outcome loads read policy
    rwa [Filling.outcome_of_undefinedPaths_eq_nil filled
      (Filling.pathsWhere_eq_nil_iff.mpr defined) policy .raise] at outcome

/-- A missing path behind an unknown step, and an empty reference behind a step that fails. -/
theorem resolve_guarded_missing :
    ∃ resolution, ∀ policy,
      default.YieldsUnder policy "{{a|nope|default:x}}-{{|trim:x|default}}" (.live .empty)
        (.ok resolution) := by
  -- Reference by reference: the whole text is too much to be evaluated at once.
  have settles : default.Settles "{{a|nope|default:x}}-{{|trim:x|default}}" (.live .empty)
      [⟨"{{a|nope|default:x}}", "a", ["a"], [⟨"a", []⟩],
          [⟨"nope", [], "nope"⟩, ⟨"default", ["x"], "default:x"⟩], 0, 20⟩,
        ⟨"{{|trim:x|default}}", "", [], [],
          [⟨"trim", ["x"], "trim:x"⟩, ⟨"default", [], "default"⟩], 21, 40⟩]
      [⟨.text "x", false, [.unresolvedPath "a", .unknownTransformation none "nope"], ["a"]⟩,
        ⟨.text "", false, [.emptyReference "{{|trim:x|default}}", .transformationFailed "trim"
          "_trim() takes 1 positional argument but 2 were given"], [""]⟩] := by
    refine ⟨rfl, rfl, ?_⟩
    simp only [List.forall_mem_cons]
    exact ⟨⟨_, rfl⟩, ⟨_, rfl⟩, List.forall_mem_nil _⟩
  refine (resolve_guarded rfl settles ?guarded).2
  simp only [List.forall_mem_cons]
  exact ⟨⟨[⟨"nope", [], "nope"⟩], _, rfl, rfl, Nat.le_refl 1⟩,
    ⟨[⟨"trim", ["x"], "trim:x"⟩], _, rfl, rfl, Nat.zero_le 1⟩,
    List.forall_mem_nil _⟩

end Resolver
end Stencil
