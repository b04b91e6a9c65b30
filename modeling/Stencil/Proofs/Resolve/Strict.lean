import Stencil.Proofs.Resolve.Leafwise
import Stencil.Proofs.Resolve.Policy

/-!
# Whole values under the policy that refuses

Under the policy `raise` a value is refused exactly if some reference in one of its texts has no
value. The fault is that of a single text: it names the text and the paths of the references in it
that have no value, and what the texts behind it lack is not told. The main statement is
`resolveDeep_strict`; `resolveDeep_strict_first` is the shortest value of which not everything is
told.
-/

namespace Stencil.Resolver

open Outcome

variable {resolver : Resolver} {template : Value} {text : String} {source : Context.Source}
  {context : Context} {name : Option String} {found : List Reference}
  {resolutions : List Resolution}

/-- Some reference of a text ends without a value. -/
def LacksValue (resolver : Resolver) (source : Context.Source) (text : String) : Prop :=
  ∃ found reference own, references text = .ok found ∧ reference ∈ found ∧
    resolver.resolveReference reference source = .ok own ∧ own.value.isUndefined = true

/-- A text lacks a value if and only if one of its references ends without any. -/
theorem Settles.lacksValue_iff (settles : resolver.Settles text source found resolutions) :
    resolver.LacksValue source text ↔
      ∃ resolution ∈ resolutions, resolution.value.isUndefined = true := by
  constructor
  · intro lacks
    obtain ⟨all, reference, own, reads, member, resolves, undefined⟩ := lacks
    cases settles.reads.symm.trans reads
    exact ⟨own, (mem_mapM_iff settles.resolves).mpr ⟨reference, member, resolves⟩, undefined⟩
  · intro lacks
    obtain ⟨own, member, undefined⟩ := lacks
    obtain ⟨reference, among, resolves⟩ := (mem_mapM_iff settles.resolves).mp member
    exact ⟨found, reference, own, settles.reads, among, resolves, undefined⟩

/-- A text of which all is known is refused for the references that have no value, or else
resolved. -/
theorem Settles.resolve_raise (settles : resolver.Settles text source found resolutions)
    (loads : source.load = .ok context) (chosen : resolver.policy.chosen name = .ok .raise) :
    (resolver.LacksValue source text ∧ resolver.resolve (.text text) source name =
        .error (.unresolved (pathsWithoutValue found resolutions).eraseDups text)) ∨
      ¬ resolver.LacksValue source text ∧
        Succeeds (resolver.resolve (.text text) source name) := by
  rw [settles.lacksValue_iff]
  obtain ⟨fillings, read, rfl, rfl⟩ := settles.exists_ofText loads
  rw [← Filling.undefinedPaths_ne_nil_iff, resolve_eq_outcome loads read chosen, Filling.outcome,
    Filling.eraseDups_pathsWithoutValue]
  by_cases complete : Filling.undefinedPaths fillings = []
  · right
    simp only [complete, ne_eq, not_true_eq_false, not_false_eq_true, and_false, ↓reduceIte,
      true_and]
    exact succeeds_ok _
  · left
    simp only [complete, ne_eq, not_false_eq_true, and_self, ↓reduceIte]

/-- Under the strict policy, resolving a text fails exactly by lacking a value. -/
theorem Settles.resolve_eq_error_iff (settles : resolver.Settles text source found resolutions)
    (loads : source.load = .ok context) (chosen : resolver.policy.chosen name = .ok .raise)
    {fault : Fault} :
    resolver.resolve (.text text) source name = .error fault ↔ resolver.LacksValue source text ∧
      fault = .unresolved (pathsWithoutValue found resolutions).eraseDups text := by
  cases settles.resolve_raise loads chosen with
  | inl refused =>
    rw [refused.2, Except.error.injEq, eq_comm, and_iff_right refused.1]
  | inr resolved =>
    obtain ⟨complete, resolution, made⟩ := resolved
    exact iff_of_false (fun failed => by cases made.symm.trans failed) fun lacks => complete lacks.1

/-- Under the strict policy, resolving a text succeeds if and only if it lacks no value. -/
theorem Settles.resolve_succeeds_iff (settles : resolver.Settles text source found resolutions)
    (loads : source.load = .ok context) (chosen : resolver.policy.chosen name = .ok .raise) :
    Succeeds (resolver.resolve (.text text) source name) ↔ ¬ resolver.LacksValue source text := by
  cases settles.resolve_raise loads chosen with
  | inl refused =>
    rw [refused.2]
    exact iff_of_false (not_succeeds_error _) (not_not_intro refused.1)
  | inr resolved => exact iff_of_true resolved.2 resolved.1

/-- The references in all texts of a value are read, resolved and shown without a fault. -/
def SettlesWithin (resolver : Resolver) (template : Value) (source : Context.Source) : Prop :=
  ∀ text ∈ template.texts, ∃ found resolutions, resolver.Settles text source found resolutions

/-- Under the strict policy, a template is resolved if and only if none of its texts lacks a value.
-/
theorem resolveDeep_raise_succeeds_iff (loads : source.load = .ok context)
    (chosen : resolver.policy.chosen name = .ok .raise)
    (settled : resolver.SettlesWithin template source) :
    Succeeds (resolver.resolveDeep template source name) ↔
      ∀ text ∈ template.texts, ¬ resolver.LacksValue source text := by
  rw [succeeds_iff_of_failsFirst fun _ => resolveDeep_eq_error_iff loads chosen]
  apply forall₂_congr
  intro text inside
  obtain ⟨found, resolutions, settles⟩ := settled text inside
  exact settles.resolve_succeeds_iff loads chosen

/-- The first text that lacks a value is the one that is blamed. -/
theorem resolveDeep_raise_eq_error_iff (loads : source.load = .ok context)
    (chosen : resolver.policy.chosen name = .ok .raise)
    (settled : resolver.SettlesWithin template source) {fault : Fault} :
    resolver.resolveDeep template source name = .error fault ↔
      ∃ before text after found resolutions, template.texts = before ++ text :: after ∧
        (∀ earlier ∈ before, ¬ resolver.LacksValue source earlier) ∧
        resolver.LacksValue source text ∧ resolver.Settles text source found resolutions ∧
        fault = .unresolved (pathsWithoutValue found resolutions).eraseDups text := by
  rw [resolveDeep_eq_error_iff loads chosen]
  constructor
  · intro fails
    obtain ⟨before, text, after, parts, succeed, failed⟩ := fails
    obtain ⟨found, resolutions, settles⟩ :=
      settled text (parts ▸ List.mem_append_right before List.mem_cons_self)
    obtain ⟨lacks, same⟩ := (settles.resolve_eq_error_iff loads chosen).mp failed
    refine ⟨before, text, after, found, resolutions, parts, ?_, lacks, settles, same⟩
    intro earlier member
    obtain ⟨_, _, settlesEarlier⟩ := settled earlier (parts ▸ List.mem_append_left _ member)
    exact (settlesEarlier.resolve_succeeds_iff loads chosen).mp (succeed earlier member)
  · intro lacks
    obtain ⟨before, text, after, found, resolutions, parts, complete, lacks, settles, same⟩ := lacks
    refine ⟨before, text, after, parts, ?_, ?_⟩
    · intro earlier member
      obtain ⟨_, _, settlesEarlier⟩ := settled earlier (parts ▸ List.mem_append_left _ member)
      exact (settlesEarlier.resolve_succeeds_iff loads chosen).mpr (complete earlier member)
    · exact (settles.resolve_eq_error_iff loads chosen).mpr ⟨lacks, same⟩

/-- **The strict policy on a whole value.** Where the references in all texts of a value are read,
resolved and shown without a fault, the value is refused exactly if one of them has no value. The
fault is then that of the first text with such a reference, and it names the paths of all such
references of this text, each once, in order. -/
theorem resolveDeep_strict (loads : source.load = .ok context)
    (chosen : resolver.policy.chosen name = .ok .raise)
    (settled : resolver.SettlesWithin template source) :
    ((∃ paths text, resolver.resolveDeep template source name =
        .error (.unresolved paths text)) ↔
      ∃ text ∈ template.texts, resolver.LacksValue source text) ∧
    ∀ fault, resolver.resolveDeep template source name = .error fault ↔
      ∃ before text after found resolutions, template.texts = before ++ text :: after ∧
        (∀ earlier ∈ before, ¬ resolver.LacksValue source earlier) ∧
        resolver.LacksValue source text ∧ resolver.Settles text source found resolutions ∧
        fault = .unresolved (pathsWithoutValue found resolutions).eraseDups text := by
  refine ⟨⟨?refused, ?lacks⟩, fun _ => resolveDeep_raise_eq_error_iff loads chosen settled⟩
  case refused =>
    intro refused
    obtain ⟨paths, text, failed⟩ := refused
    by_contra complete
    have succeeds := (resolveDeep_raise_succeeds_iff loads chosen settled).mpr
      fun text inside lacks => complete ⟨text, inside, lacks⟩
    exact not_succeeds_error _ (failed ▸ succeeds)
  case lacks =>
    intro lacks
    obtain ⟨text, inside, lacksValue⟩ := lacks
    cases outcome : resolver.resolveDeep template source name with
    | ok result =>
      have complete := (resolveDeep_raise_succeeds_iff loads chosen settled).mp ⟨result, outcome⟩
      exact absurd lacksValue (complete text inside)
    | error fault =>
      obtain ⟨before, blamed, after, found, resolutions, -, -, -, -, same⟩ :=
        (resolveDeep_raise_eq_error_iff loads chosen settled).mp outcome
      exact ⟨_, blamed, congrArg Except.error same⟩

/-- The text that is blamed lacks two paths, one of them twice; what the text behind it lacks is not
told. -/
theorem resolveDeep_strict_nested :
    default.resolveDeep
        (.list [.text "{{a}}", .map [(.null, .text "{{b}}{{b|first}}{{c}}")], .text "{{d}}"])
        (.live ⟨[], [("a", .text "x")], []⟩) (some "raise") =
      .error (.unresolved ["b", "c"] "{{b}}{{b|first}}{{c}}") := by
  let source : Context.Source := .live ⟨[], [("a", .text "x")], []⟩
  have first : default.Settles "{{a}}" source
      [⟨"{{a}}", "a", ["a"], [⟨"a", []⟩], [], 0, 5⟩] [⟨.text "x", true, [], []⟩] :=
    ⟨rfl, rfl, List.forall_mem_singleton.mpr ⟨_, rfl⟩⟩
  have second : default.Settles "{{b}}{{b|first}}{{c}}" source
      [⟨"{{b}}", "b", ["b"], [⟨"b", []⟩], [], 0, 5⟩,
        ⟨"{{b|first}}", "b", ["b"], [⟨"b", []⟩], [⟨"first", [], "first"⟩], 5, 16⟩,
        ⟨"{{c}}", "c", ["c"], [⟨"c", []⟩], [], 16, 21⟩]
      [⟨.undefined, false, [.unresolvedPath "b"], ["b"]⟩,
        ⟨.undefined, false, [.unresolvedPath "b"], ["b"]⟩,
        ⟨.undefined, false, [.unresolvedPath "c"], ["c"]⟩] := by
    refine ⟨rfl, rfl, ?_⟩
    simp only [List.forall_mem_cons]
    exact ⟨⟨_, rfl⟩, ⟨_, rfl⟩, ⟨_, rfl⟩, List.forall_mem_nil _⟩
  have third : default.Settles "{{d}}" source
      [⟨"{{d}}", "d", ["d"], [⟨"d", []⟩], [], 0, 5⟩]
      [⟨.undefined, false, [.unresolvedPath "d"], ["d"]⟩] :=
    ⟨rfl, rfl, List.forall_mem_singleton.mpr ⟨_, rfl⟩⟩
  refine ((resolveDeep_strict rfl rfl ?settled).2 _).mpr
    ⟨["{{a}}"], _, ["{{d}}"], _, _, rfl, ?complete, ?lacks, second, rfl⟩
  case settled =>
    intro text inside
    have listed : text ∈ ["{{a}}", "{{b}}{{b|first}}{{c}}", "{{d}}"] := inside
    simp only [List.mem_cons, List.not_mem_nil, or_false] at listed
    rcases listed with rfl | rfl | rfl
    · exact ⟨_, _, first⟩
    · exact ⟨_, _, second⟩
    · exact ⟨_, _, third⟩
  case complete =>
    intro earlier member lacks
    rw [List.mem_singleton.mp member, first.lacksValue_iff] at lacks
    obtain ⟨resolution, among, undefined⟩ := lacks
    rw [List.mem_singleton.mp among] at undefined
    cases undefined
  case lacks => exact second.lacksValue_iff.mpr ⟨_, List.mem_cons_self, rfl⟩

/-- Two texts that lack one path each: the fault names the path of the first text only. -/
theorem resolveDeep_strict_first :
    (∃ found resolutions, default.Settles "{{a}}" (.live .empty) found resolutions ∧
      pathsWithoutValue found resolutions = ["a"]) ∧
    (∃ found resolutions, default.Settles "{{b}}" (.live .empty) found resolutions ∧
      pathsWithoutValue found resolutions = ["b"]) ∧
    default.resolveDeep (.list [.text "{{a}}", .text "{{b}}"]) (.live .empty) (some "raise") =
      .error (.unresolved ["a"] "{{a}}") :=
  ⟨⟨_, _, ⟨rfl, rfl, List.forall_mem_singleton.mpr ⟨_, rfl⟩⟩, rfl⟩,
    ⟨_, _, ⟨rfl, rfl, List.forall_mem_singleton.mpr ⟨_, rfl⟩⟩, rfl⟩, rfl⟩

end Stencil.Resolver
