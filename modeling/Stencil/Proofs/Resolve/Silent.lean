import Stencil.Proofs.Resolve.Policy
import Stencil.Proofs.Transform.Undefined

/-!
# Texts on which nothing is reported

A text on which nothing is reported should have a value in every place. With the built-in
transformations there is one exception: a pipeline that asks an empty list for its first or last
item, and does not replace what it gets. The main statement is `resolve_silent`;
`resolve_silent_first` is the shortest such text.
-/

namespace Stencil

/-- Where nothing is reported on the fillings of a text, nothing is reported on any of them. -/
theorem Filling.diagnostics_eq_nil_of_mem {registry : Registry} {values : Fields Value}
    {text : String} {fillings : List Filling} (read : ofText registry values text = .ok fillings)
    (silent : diagnostics fillings = []) {filling : Filling} (member : filling ∈ fillings) :
    filling.resolution.diagnostics = [] := by
  -- only the first reference of each raw text is reported on, and the others are resolved like it
  obtain ⟨first, among, same⟩ : ∃ first ∈ firstOn (·.reference.raw) fillings,
      first.reference.raw = filling.reference.raw := exists_mem_firstOn member
  rw [← (alike_of_mem_ofText read (mem_of_mem_firstOn among) member same).2]
  exact List.flatMap_eq_nil_iff.mp silent first among

namespace Reference

/-- The pipeline of a reference loses the value that its path leads to. -/
def LosesValue (dateTemplate : String) (values : Fields Value) (reference : Reference) : Prop :=
  ∃ value, reference.pathValue values = .ok value ∧
    Builtin.LosesValue dateTemplate value reference.steps

variable {dateTemplate : String} {values : Fields Value} {reference : Reference}

/-- A path on which nothing is reported leads somewhere. -/
theorem isUndefined_of_pathDiagnostics {value : Value}
    (silent : reference.pathDiagnostics value = []) : value.isUndefined = false := by
  unfold pathDiagnostics at silent
  split_ifs at silent with empty undefined
  exact Bool.eq_false_iff.mpr undefined

/-- A reference on which nothing is reported ends without a value exactly if its pipeline loses
it. -/
theorem isUndefined_iff_losesValue {resolution : Resolution}
    (resolves : reference.resolve (Builtin.registry dateTemplate) values = .ok resolution)
    (silent : resolution.diagnostics = []) :
    resolution.value.isUndefined = true ↔ reference.LosesValue dateTemplate values := by
  obtain ⟨value, leads, made⟩ := Outcome.bind_eq_ok.mp resolves
  cases made
  obtain ⟨onPath, onSteps⟩ := List.append_eq_nil_iff.mp silent
  have present : ¬ value.isUndefined = true :=
    Bool.eq_false_iff.mp (isUndefined_of_pathDiagnostics onPath)
  refine (Builtin.isUndefined_applyAll_iff onSteps).trans ?_
  rw [or_iff_right fun start => present start.1]
  constructor
  · intro loses
    exact ⟨value, leads, loses⟩
  · intro loses
    obtain ⟨other, alsoLeads, loses⟩ := loses
    cases leads.symm.trans alsoLeads
    exact loses

end Reference

namespace Filling

variable {dateTemplate text : String} {values : Fields Value} {fillings : List Filling}

/-- Among fillings on which nothing is reported, those without a value are the ones whose references
lose theirs. -/
theorem isUndefined_iff_losesValue
    (read : ofText (Builtin.registry dateTemplate) values text = .ok fillings)
    (silent : diagnostics fillings = []) {filling : Filling} (member : filling ∈ fillings) :
    filling.resolution.value.isUndefined = true ↔
      filling.reference.LosesValue dateTemplate values := by
  have filled := (ofText_eq_ok_iff.mp read).2 filling member
  exact Reference.isUndefined_iff_losesValue (ofReference_eq_ok_iff.mp filled).2.1
    (diagnostics_eq_nil_of_mem read silent member)

/-- In a silent text, the undefined paths are those of references that lose their value on the way.
-/
theorem mem_undefinedPaths_iff
    (read : ofText (Builtin.registry dateTemplate) values text = .ok fillings)
    (silent : diagnostics fillings = []) {path : String} :
    path ∈ undefinedPaths fillings ↔ ∃ reference ∈ fillings.map (·.reference),
      reference.LosesValue dateTemplate values ∧ reference.path = path := by
  unfold undefinedPaths
  rw [mem_pathsWhere]
  simp only [List.mem_map, exists_exists_and_eq_and]
  apply exists_congr
  intro filling
  apply and_congr_right
  intro member
  exact and_congr_left' (isUndefined_iff_losesValue read silent member)

end Filling

namespace Resolver

variable {configured : Policy} {dateTemplate text : String} {source : Context.Source}
  {context : Context}

/-- **Silent texts.** Where nothing is reported on a text under the policy `literal`, a reference of
it ends without a value exactly if its pipeline asks an end of a list for an item that is not there
and then hands the undefined value on. If no reference does, all policies agree; otherwise the
policy `raise` ends with a fault that names the paths of those that do. -/
theorem resolve_silent {name : Option String} {resolution : Resolution}
    (loads : source.load = .ok context) (chosen : configured.chosen name = .ok .literal)
    (resolves : (builtin configured dateTemplate).resolve (.text text) source name =
      .ok resolution)
    (silent : resolution.diagnostics = []) :
    ∃ found, references text = .ok found ∧
      (∀ reference ∈ found, ∃ own,
        (builtin configured dateTemplate).resolveReference reference source = .ok own ∧
        (own.value.isUndefined = true ↔ reference.LosesValue dateTemplate context.merged)) ∧
      ((∀ reference ∈ found, ¬ reference.LosesValue dateTemplate context.merged) →
        ∀ policy, (builtin configured dateTemplate).YieldsUnder policy text source
          (.ok resolution)) ∧
      ((∃ reference ∈ found, reference.LosesValue dateTemplate context.merged) →
        ∃ paths, (builtin configured dateTemplate).YieldsUnder .raise text source
            (.error (.unresolved paths text)) ∧
          ∀ path, path ∈ paths ↔ ∃ reference ∈ found,
            reference.LosesValue dateTemplate context.merged ∧ reference.path = path) := by
  have asked : (builtin configured dateTemplate).policy.chosen name = .ok .literal := chosen
  rw [resolve_text loads asked, resolveText_eq] at resolves
  obtain ⟨fillings, read, concludes⟩ := Outcome.bind_eq_ok.mp resolves
  rw [Filling.outcome_of_ne_raise (by decide)] at concludes
  cases concludes
  obtain ⟨reads, filled⟩ := Filling.ofText_eq_ok_iff.mp read
  have yields (policy : Policy) := yieldsUnder_outcome loads read policy
  refine ⟨_, reads, ?own, ?agree, ?refuse⟩
  case own =>
    intro reference among
    obtain ⟨filling, member, rfl⟩ := List.mem_map.mp among
    refine ⟨filling.resolution, ?_, Filling.isUndefined_iff_losesValue read silent member⟩
    rw [resolveReference_eq loads]
    exact (Filling.ofReference_eq_ok_iff.mp (filled filling member)).2.1
  case agree =>
    intro kept policy
    have defined : Filling.undefinedPaths fillings = [] := by
      apply List.eq_nil_iff_forall_not_mem.mpr
      intro path listed
      obtain ⟨reference, among, loses, -⟩ :=
        (Filling.mem_undefinedPaths_iff read silent).mp listed
      exact kept reference among loses
    have outcome := yields policy
    rwa [Filling.outcome_of_undefinedPaths_eq_nil filled defined policy .literal] at outcome
  case refuse =>
    intro lossy
    obtain ⟨reference, among, loses⟩ := lossy
    have listed : reference.path ∈ Filling.undefinedPaths fillings :=
      (Filling.mem_undefinedPaths_iff read silent).mpr ⟨reference, among, loses, rfl⟩
    have outcome := yields .raise
    rw [Filling.outcome, if_pos ⟨rfl, List.ne_nil_of_mem listed⟩] at outcome
    exact ⟨_, outcome, fun path => Filling.mem_undefinedPaths_iff read silent⟩

/-- What is missing in an empty list is replaced by a later step, beside a list that has a last
item. -/
theorem resolve_silent_replaced :
    default.YieldsUnder .keep "{{a|first|default:x}} {{b|last}}"
      (.live ⟨[], [("a", .list []), ("b", .list [.null, .text "y"])], []⟩)
      (.ok ⟨.text "x y", true, [], []⟩) ∧
    default.YieldsUnder .raise "{{a|first|default:x}} {{b|last}}"
      (.live ⟨[], [("a", .list []), ("b", .list [.null, .text "y"])], []⟩)
      (.ok ⟨.text "x y", true, [], []⟩) := by
  let context : Context := ⟨[], [("a", .list []), ("b", .list [.null, .text "y"])], []⟩
  let fillings : List Filling :=
    [⟨⟨"{{a|first|default:x}}", "a", ["a"], [⟨"a", []⟩],
        [⟨"first", [], "first"⟩, ⟨"default", ["x"], "default:x"⟩], 0, 21⟩,
        ⟨.text "x", true, [], []⟩, some "x"⟩,
      ⟨⟨"{{b|last}}", "b", ["b"], [⟨"b", []⟩], [⟨"last", [], "last"⟩], 22, 32⟩,
        ⟨.text "y", true, [], []⟩, some "y"⟩]
  have filled : Filling.ofText default.registry context.merged
      "{{a|first|default:x}} {{b|last}}" = .ok fillings := by
    refine Filling.ofText_eq_ok_iff.mpr ⟨rfl, ?_⟩
    simp only [fillings, List.forall_mem_cons]
    exact ⟨Filling.ofReference_eq_ok_iff.mpr ⟨rfl, rfl, rfl⟩,
      Filling.ofReference_eq_ok_iff.mpr ⟨rfl, rfl, rfl⟩,
      fun filling member => (List.not_mem_nil member).elim⟩
  have resolves : default.resolve (.text "{{a|first|default:x}} {{b|last}}") (.live context) none =
      .ok ⟨.text "x y", true, [], []⟩ := by
    rw [resolve_eq_outcome rfl filled rfl]
    rfl
  obtain ⟨found, reads, own, agree, -⟩ := resolve_silent rfl rfl resolves rfl
  obtain ⟨read, fill⟩ := Filling.ofText_eq_ok_iff.mp filled
  cases read.symm.trans reads
  have kept := agree fun reference member loses => by
    obtain ⟨filling, among, rfl⟩ := List.mem_map.mp member
    obtain ⟨resolution, alone, undefined⟩ := own filling.reference member
    have made := (Filling.ofReference_eq_ok_iff.mp (fill filling among)).2.1
    cases ((resolveReference_eq rfl filling.reference).trans made).symm.trans alone
    have lost := undefined.mpr loses
    simp only [fillings, List.mem_cons, List.not_mem_nil, or_false] at among
    rcases among with rfl | rfl
    · cases lost
    · cases lost
  exact ⟨kept .keep, kept .raise⟩

/-- The first item of an empty list: nothing is reported, the reference has no value, and the
policies differ. -/
theorem resolve_silent_first :
    default.resolve (.text "{{a|first}}") (.live ⟨[], [("a", .list [])], []⟩) none =
      .ok ⟨.text "undefined", true, [], []⟩ ∧
    (∃ found own, references "{{a|first}}" = .ok [found] ∧
      default.resolveReference found (.live ⟨[], [("a", .list [])], []⟩) = .ok own ∧
      own.value.isUndefined = true) ∧
    default.resolve (.text "{{a|first}}") (.live ⟨[], [("a", .list [])], []⟩) (some "empty") =
      .ok ⟨.text "", true, [], []⟩ ∧
    default.resolve (.text "{{a|first}}") (.live ⟨[], [("a", .list [])], []⟩) (some "raise") =
      .error (.unresolved ["a"] "{{a|first}}") :=
  ⟨rfl, ⟨_, _, rfl, rfl, rfl⟩, rfl, rfl⟩

end Resolver
end Stencil
