import Stencil.Proofs.Resolve.Deep
import Stencil.Proofs.Resolve.Foresight
import Stencil.Proofs.Resolve.Preview
import Stencil.Proofs.Resolve.Safe

/-!
# When there is an answer

Under a policy that puts something in the place of references without a value, a resolver should
answer whatever the template and the context are. It does so exactly for safe texts, provided that
no integer at hand is too long to be written. The main statement is `answers_iff`; `answers_sign`
is a template for which the promise fails.
-/

namespace Stencil.Resolver

open Outcome

variable {resolver : Resolver} {template : Value} {text : String} {source : Context.Source}
  {context : Context}

/-- A call asks for a policy that puts something in the place of references without a value. -/
def IsLenient (resolver : Resolver) (name : Option String) : Prop :=
  ∃ policy, resolver.policy.chosen name = .ok policy ∧ policy ≠ .raise

/-- A resolver answers what is asked of a template and of the texts in it. -/
structure Answers (resolver : Resolver) (template : Value) (source : Context.Source) : Prop where
  references : ∀ text ∈ template.texts, Succeeds (references text)
  problems : ∀ text ∈ template.texts, Succeeds (resolver.problems text)
  resolve : ∀ text ∈ template.texts, ∀ name, resolver.IsLenient name →
    Succeeds (resolver.resolve (.text text) source name)
  resolveDeep : ∀ name, resolver.IsLenient name →
    Succeeds (resolver.resolveDeep template source name)
  unresolvedPaths : ∀ text ∈ template.texts, Succeeds (resolver.unresolvedPaths text source)
  canResolveAll : ∀ text ∈ template.texts, Succeeds (resolver.canResolveAll text source)
  preview : ∀ text ∈ template.texts, Succeeds (resolver.preview text source)

/-- If every hole of a text is safe, its references have fillings. -/
theorem exists_ofText_of_holesAreSafe (keeps : resolver.registry.KeepsWritable)
    (writable : context.isWritable = true) (safe : HolesAreSafe text) :
    ∃ fillings, Filling.ofText resolver.registry context.merged text = .ok fillings := by
  obtain ⟨found, reads, sound⟩ := holesAreSafe_iff.mp safe
  obtain ⟨fillings, read, -⟩ := Filling.exists_ofText_of_succeeds reads fun reference member =>
    Filling.ofReference_succeeds keeps writable (sound reference member)
  exact ⟨fillings, read⟩

/-- A text whose references have fillings is resolved under a lenient policy. -/
theorem resolveText_succeeds {registry : Registry} {values : Fields Value} {policy : Policy}
    {fillings : List Filling} (read : Filling.ofText registry values text = .ok fillings)
    (lenient : policy ≠ .raise) : Succeeds (resolveText registry policy values text) := by
  rw [resolveText_eq, read, ok_bind, Filling.outcome_of_ne_raise lenient]
  exact succeeds_ok _

/-- If every text of a template has fillings, all questions about the template are answered. -/
theorem answers_of_fillings (loads : source.load = .ok context)
    (filled : ∀ text ∈ template.texts, ∃ fillings,
      Filling.ofText resolver.registry context.merged text = .ok fillings) :
    resolver.Answers template source where
  references text inside := by
    obtain ⟨fillings, read⟩ := filled text inside
    exact ⟨_, (Filling.ofText_eq_ok_iff.mp read).1⟩
  problems text inside := by
    obtain ⟨fillings, read⟩ := filled text inside
    exact succeeds_map_iff.mpr ⟨_, (Filling.ofText_eq_ok_iff.mp read).1⟩
  resolve text inside name asked := by
    obtain ⟨fillings, read⟩ := filled text inside
    obtain ⟨policy, chosen, lenient⟩ := asked
    rw [resolve_text loads chosen]
    exact resolveText_succeeds read lenient
  resolveDeep name asked := by
    obtain ⟨policy, chosen, lenient⟩ := asked
    rw [resolveDeep, chosen, loads]
    refine resolveWithin_succeeds template fun text inside => ?_
    obtain ⟨fillings, read⟩ := filled text inside
    exact resolveText_succeeds read lenient
  unresolvedPaths text inside := by
    obtain ⟨fillings, read⟩ := filled text inside
    exact ⟨_, unresolvedPaths_eq loads read⟩
  canResolveAll text inside := by
    obtain ⟨fillings, read⟩ := filled text inside
    exact succeeds_map_iff.mpr ⟨_, unresolvedPaths_eq loads read⟩
  preview text inside := by
    obtain ⟨fillings, read⟩ := filled text inside
    exact ⟨_, preview_eq loads read⟩

/-- The references of a text that is resolved in every context are sound. -/
theorem holesAreSafe_of_answers {found : List Reference} (reads : references text = .ok found)
    (everywhere : ∀ source context, source.load = .ok context → context.isWritable = true →
      Succeeds (resolver.resolve (.text text) source (some "keep"))) :
    HolesAreSafe text := by
  refine holesAreSafe_iff.mpr ⟨found, reads, fun reference member => ?_⟩
  refine List.all_eq_true.mpr (lookup_succeeds_iff.mp fun values writable => ?_)
  -- the values of a context with one layer are any that are given
  let context : Context := ⟨values, [], []⟩
  have loads : (Context.Source.live context).load = .ok context := rfl
  obtain ⟨resolution, resolves⟩ := everywhere _ context loads writable
  obtain ⟨fillings, read, -⟩ := exists_ofText_of_resolve loads resolves
  cases reads.symm.trans (Filling.ofText_eq_ok_iff.mp read).1
  obtain ⟨filling, among, rfl⟩ := List.mem_map.mp member
  obtain ⟨body, -, hole⟩ := Reference.exists_ofHole_of_mem reads member
  obtain ⟨value, leads, -⟩ := Filling.exists_resolve_path read among
  rw [Context.resolve, Reference.parse_path hole] at leads
  exact ⟨value, leads⟩

/-- **A resolver answers** for every template whose texts are safe, in every context whose integers
can be written; and a text that is not safe has a context for which it does not. -/
theorem answers_iff (keeps : resolver.registry.KeepsWritable) :
    (∀ source context, source.load = .ok context → context.isWritable = true →
      resolver.Answers template source) ↔ ∀ text ∈ template.texts, HolesAreSafe text := by
  constructor
  · intro everywhere text inside
    have empty := everywhere (.live .empty) .empty rfl rfl
    obtain ⟨found, reads⟩ := empty.references text inside
    refine @holesAreSafe_of_answers resolver _ _ reads fun source context loads writable => ?_
    exact (everywhere source context loads writable).resolve text inside (some "keep")
      ⟨.keep, rfl, by decide⟩
  · intro safe source context loads writable
    exact answers_of_fillings loads fun text inside =>
      exists_ofText_of_holesAreSafe keeps writable (safe text inside)

/-- Names of digits and indexes in their places, a name that denotes no position but comes first,
and braces that open nothing. -/
theorem answers_iff_digits :
    default.Answers
      (.list [.text "{{a.1[0].b|nope}} \x7b\x7b",
        .map [(.null, .text "{{²|round:x}}{{}}")]])
      (.live ⟨[("a", .tuple [.null, .list [.text "{{a.²}}"]])], [("²", .float .nan)], []⟩) := by
  refine (answers_iff (Builtin.registry_keepsWritable _)).mpr ?_ _ _ rfl rfl
  intro text inside
  have texts : text ∈ ["{{a.1[0].b|nope}} \x7b\x7b", "{{²|round:x}}{{}}"] := inside
  simp only [List.mem_cons, List.not_mem_nil, or_false] at texts
  rcases texts with rfl | rfl
  · exact holesAreSafe_iff.mpr ⟨_, rfl, by decide⟩
  · exact holesAreSafe_iff.mpr ⟨_, rfl, by decide⟩

/-- A digit without a place in decimal notation counts into no list, and resolution ends with a
fault where the path leads nowhere. -/
theorem answers_sign :
    default.resolve (.text "{{a.²}}") (.live ⟨[], [("a", .list [.text "x"])], []⟩) none =
      .error (.notInteger 10 "²") :=
  rfl

end Stencil.Resolver
