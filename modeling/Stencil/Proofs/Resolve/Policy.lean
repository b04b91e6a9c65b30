import Stencil.Proofs.Resolve.Template

/-!
# Policies compared

A policy decides what stands in the place of a reference without a value, and nothing else. The
main statement is `resolve_policies`: policies that put something in the place agree on the rest of
the text and on all that is reported; the policy that puts nothing there ends with a fault that
names the paths of the references without a value; and where every reference has a value, all
policies agree.
-/

namespace Stencil

/-- The paths of the references that end without a value, as often as they are referred to. -/
def pathsWithoutValue (found : List Reference) (resolutions : List Resolution) : List String :=
  ((found.zip resolutions).filter (·.2.value.isUndefined)).map (·.1.path)

/-- References with the texts of their values, or with what the policy puts in the place of a
value that there is not. -/
def Policy.fill (policy : Policy) (found : List Reference) (texts : List (Option String)) :
    List (Reference × String) :=
  (found.zip texts).map fun (reference, shown) =>
    (reference, shown.getD (policy.placeholder reference.raw))

namespace Filling

variable {registry : Registry} {values : Fields Value}

/-- What a policy fills in are the replacements of the fillings. -/
theorem fill_eq_replacements (policy : Policy) (fillings : List Filling) :
    policy.fill (fillings.map (·.reference)) (fillings.map (·.shown)) =
      replacements policy fillings := by
  rw [Policy.fill, List.zip_map', List.map_map]
  rfl

/-- The paths without a value, each once, are those of the undefined fillings. -/
theorem eraseDups_pathsWithoutValue (fillings : List Filling) :
    (pathsWithoutValue (fillings.map (·.reference)) (fillings.map (·.resolution))).eraseDups =
      undefinedPaths fillings := by
  rw [pathsWithoutValue, List.zip_map', List.filter_map, List.map_map]
  rfl

/-- A filling has a text unless its value is undefined. -/
theorem isNone_shown {filling : Filling}
    (filled : ofReference registry values filling.reference = .ok filling) :
    filling.shown.isNone = filling.resolution.value.isUndefined := by
  obtain ⟨-, -, shows⟩ := ofReference_eq_ok_iff.mp filled
  rw [Value.shown?] at shows
  split_ifs at shows with undefined
  · rw [← Except.ok.inj shows, undefined]
    rfl
  · obtain ⟨shown, -, same⟩ := Outcome.bind_eq_ok.mp shows
    rw [← Except.ok.inj same, Bool.eq_false_iff.mpr undefined]
    rfl

theorem undefinedPaths_ne_nil_iff {fillings : List Filling} :
    undefinedPaths fillings ≠ [] ↔
      ∃ resolution ∈ fillings.map (·.resolution), resolution.value.isUndefined = true := by
  rw [ne_eq, undefinedPaths, pathsWhere_eq_nil_iff]
  simp only [List.mem_map, exists_exists_and_eq_and, not_forall, exists_prop, Bool.not_eq_false]

/-- Where every reference has a value, the policy does not matter. -/
theorem outcome_of_undefinedPaths_eq_nil {fillings : List Filling} {text : String}
    (filled : ∀ filling ∈ fillings, ofReference registry values filling.reference = .ok filling)
    (defined : undefinedPaths fillings = []) (policy other : Policy) :
    outcome policy text fillings = .ok (resolutionOf other text fillings) := by
  have alike : replacements policy fillings = replacements other fillings := by
    refine List.map_congr_left fun filling member => ?_
    have has := isNone_shown (filled filling member)
    rw [pathsWhere_eq_nil_iff.mp defined filling member, Option.isNone_eq_false_iff] at has
    obtain ⟨shown, same⟩ := Option.isSome_iff_exists.mp has
    rw [replacement, replacement, same, Option.getD_some, Option.getD_some]
  rw [outcome, if_neg fun strict => strict.2 defined, resolutionOf, resolutionOf, alike]

end Filling

namespace Resolver

variable {resolver : Resolver} {text : String} {source : Context.Source} {context : Context}

/-- Resolving a text under a policy ends in an outcome, whether the policy is configured or asked
for by name. -/
def YieldsUnder (resolver : Resolver) (policy : Policy) (text : String) (source : Context.Source)
    (outcome : Outcome Resolution) : Prop :=
  ∀ configured name, Policy.chosen configured name = .ok policy →
    { resolver with policy := configured }.resolve (.text text) source name = outcome

/-- What a policy yields is determined. -/
theorem YieldsUnder.unique {policy : Policy} {outcome other : Outcome Resolution}
    (first : resolver.YieldsUnder policy text source outcome)
    (second : resolver.YieldsUnder policy text source other) : outcome = other :=
  (first policy none rfl).symm.trans (second policy none rfl)

/-- A policy yields the outcome of the fillings. -/
theorem yieldsUnder_outcome (loads : source.load = .ok context) {fillings : List Filling}
    (read : Filling.ofText resolver.registry context.merged text = .ok fillings)
    (policy : Policy) :
    resolver.YieldsUnder policy text source (Filling.outcome policy text fillings) := by
  intro configured name chosen
  have asked : { resolver with policy := configured }.policy.chosen name = .ok policy := chosen
  refine resolve_eq_outcome loads ?_ asked
  exact read

/-- The references of a text are read, resolved and shown without a fault, and this is what they
are and what they are resolved to. -/
structure Settles (resolver : Resolver) (text : String) (source : Context.Source)
    (found : List Reference) (resolutions : List Resolution) : Prop where
  reads : references text = .ok found
  resolves : found.mapM (resolver.resolveReference · source) = .ok resolutions
  shows : ∀ resolution ∈ resolutions, Outcome.Succeeds resolution.value.shown?

/-- The references of a text that settles have fillings. -/
theorem Settles.exists_ofText {found : List Reference} {resolutions : List Resolution}
    (settles : resolver.Settles text source found resolutions)
    (loads : source.load = .ok context) : ∃ fillings,
      Filling.ofText resolver.registry context.merged text = .ok fillings ∧
        found = fillings.map (·.reference) ∧ resolutions = fillings.map (·.resolution) := by
  have resolves := settles.resolves
  simp only [resolveReference_eq loads] at resolves
  obtain ⟨texts, shows⟩ := Outcome.mapM_succeeds_iff.mpr settles.shows
  obtain ⟨fillings, read, references, resolutions, -⟩ :=
    Filling.exists_ofText settles.reads resolves shows
  exact ⟨fillings, read, references, resolutions⟩

/-- **What a policy changes.** Given that the references of a text are read, resolved and shown
without a fault, policies other than `raise` agree but for what stands in the place of a reference
without a value. Under `raise` there is a fault exactly if there is such a reference, with the paths
of all such references, each once, in order; if there is none, all policies agree. -/
theorem resolve_policies {found : List Reference} {resolutions : List Resolution}
    {texts : List (Option String)} (loads : source.load = .ok context)
    (reads : references text = .ok found)
    (resolves : found.mapM (resolver.resolveReference · source) = .ok resolutions)
    (shows : resolutions.mapM (·.value.shown?) = .ok texts) :
    texts.map (·.isNone) = resolutions.map (·.value.isUndefined) ∧
    ∃ common : Resolution,
      (∀ policy, policy ≠ .raise → resolver.YieldsUnder policy text source (.ok { common with
        value := .text (String.ofList (splice text.toList 0 (policy.fill found texts))) })) ∧
      (resolver.YieldsUnder .raise text source
          (.error (.unresolved (pathsWithoutValue found resolutions).eraseDups text)) ↔
        ∃ resolution ∈ resolutions, resolution.value.isUndefined = true) ∧
      ((∀ resolution ∈ resolutions, resolution.value.isUndefined = false) →
        ∀ policy, resolver.YieldsUnder policy text source (.ok common)) := by
  simp only [resolveReference_eq loads] at resolves
  obtain ⟨fillings, read, rfl, rfl, rfl⟩ := Filling.exists_ofText reads resolves shows
  have filled := (Filling.ofText_eq_ok_iff.mp read).2
  have yields (policy : Policy) :
      resolver.YieldsUnder policy text source (Filling.outcome policy text fillings) :=
    yieldsUnder_outcome loads read policy
  have shown : (fillings.map (·.shown)).map (·.isNone) =
      (fillings.map (·.resolution)).map (·.value.isUndefined) := by
    rw [List.map_map, List.map_map]
    exact List.map_congr_left fun filling member => Filling.isNone_shown (filled filling member)
  refine ⟨shown, Filling.resolutionOf .raise text fillings, ?_, ?_, ?_⟩
  · intro policy lenient
    have outcome := yields policy
    rw [Filling.outcome, if_neg fun strict => lenient strict.1] at outcome
    rw [Filling.fill_eq_replacements]
    exact outcome
  · rw [Filling.eraseDups_pathsWithoutValue, ← Filling.undefinedPaths_ne_nil_iff]
    constructor
    · intro refused complete
      have succeeds := yields .raise
      rw [Filling.outcome_of_undefinedPaths_eq_nil filled complete .raise .raise] at succeeds
      cases refused.unique succeeds
    · intro incomplete
      have outcome := yields .raise
      rwa [Filling.outcome, if_pos ⟨rfl, incomplete⟩] at outcome
  · intro defined policy
    have complete : Filling.undefinedPaths fillings = [] := by
      by_contra incomplete
      obtain ⟨resolution, among, undefined⟩ := Filling.undefinedPaths_ne_nil_iff.mp incomplete
      rw [defined resolution among] at undefined
      cases undefined
    have outcome := yields policy
    rwa [Filling.outcome_of_undefinedPaths_eq_nil filled complete policy .raise] at outcome

/-- One path without a value, referred to in two ways, beside a value that a step supplies. -/
theorem resolve_policies_default :
    default.YieldsUnder .raise "a {{b}}{{b|first}}{{c|default:x}}" (.live .empty)
      (.error (.unresolved ["b"] "a {{b}}{{b|first}}{{c|default:x}}")) ∧
    ∃ common : Resolution,
      default.YieldsUnder .empty "a {{b}}{{b|first}}{{c|default:x}}" (.live .empty)
        (.ok { common with value := .text "a x" }) := by
  have reads : references "a {{b}}{{b|first}}{{c|default:x}}" = .ok
      [⟨"{{b}}", "b", ["b"], [⟨"b", []⟩], [], 2, 7⟩,
        ⟨"{{b|first}}", "b", ["b"], [⟨"b", []⟩], [⟨"first", [], "first"⟩], 7, 18⟩,
        ⟨"{{c|default:x}}", "c", ["c"], [⟨"c", []⟩],
          [⟨"default", ["x"], "default:x"⟩], 18, 33⟩] := rfl
  obtain ⟨-, common, lenient, strict, -⟩ :=
    @resolve_policies default _ (.live .empty) .empty _
      [⟨.undefined, false, [.unresolvedPath "b"], ["b"]⟩,
        ⟨.undefined, false, [.unresolvedPath "b"], ["b"]⟩,
        ⟨.text "x", false, [.unresolvedPath "c"], ["c"]⟩]
      [none, none, some "x"] rfl reads rfl rfl
  exact ⟨strict.mpr ⟨_, .head _, rfl⟩, common, lenient .empty (by decide)⟩

end Resolver
end Stencil
