import Stencil.Proofs.Resolve.Memo
import Stencil.Proofs.Resolve.Path

/-!
# Templates against a context

What a resolver makes of a template is told by the references of the template and what each of them
resolves to on its own. The main statement is `resolve_eq_ok_iff`: the resolved text is the template
with every reference replaced, and what is reported is what the distinct references report.
-/

namespace Stencil

/-- A text without a pair of opening braces has no hole. -/
theorem Token.bodies_eq_nil {text : List Char} (plain : ¬ ['{', '{'] <:+: text) :
    bodies (tokens text) = [] := by
  induction text using tokens_induction with
  | nil => rfl
  | char c rest solid ih =>
    rw [tokens_cons solid]
    exact ih fun inside => plain (List.infix_cons inside)
  | hole body rest found ih =>
    exact absurd (List.prefix_append ['{', '{'] (body ++ ['}', '}'] ++ rest)).isInfix plain

theorem Reference.ofTokens_of_bodies_eq_nil {position : Nat} {tokens : List Token}
    (none : Token.bodies tokens = []) : ofTokens position tokens = .ok [] := by
  induction tokens generalizing position with
  | nil => rfl
  | cons token rest ih =>
    cases token with
    | char c => exact ih none
    | hole body => cases none

/-- A text without a pair of opening braces has no references. -/
theorem references_of_not_holdsBraces {text : String} (plain : holdsBraces text = false) :
    references text = .ok [] := by
  refine Reference.ofTokens_of_bodies_eq_nil (Token.bodies_eq_nil fun inside => ?_)
  rw [holdsBraces, (Text.occursIn_iff _ _).mpr inside] at plain
  cases plain

/-- The distinct references of fillings are those of the first filling of each source. -/
theorem Filling.distinctReferences_map (fillings : List Filling) :
    distinctReferences (fillings.map (·.reference)) =
      (firstOn (·.reference.raw) fillings).map (·.reference) :=
  firstOn_map Reference.raw Filling.reference fillings

namespace Resolver

variable {resolver : Resolver} {text : String} {source : Context.Source} {context : Context}

/-- The text that a reference is replaced by when it is resolved on its own: the text of its value,
or what the policy puts in the place of one that has none. -/
def replacement (resolver : Resolver) (policy : Policy) (source : Context.Source)
    (reference : Reference) : Outcome String := do
  let resolution ← resolver.resolveReference reference source
  if resolution.value.isUndefined then return policy.placeholder reference.raw
  else resolution.value.substitution

/-- With a context, a reference is resolved among its merged values. -/
theorem resolveReference_eq (loads : source.load = .ok context) (reference : Reference) :
    resolver.resolveReference reference source =
      reference.resolve resolver.registry context.merged := by
  rw [resolveReference, loads]
  rfl

/-- The replacement of a reference is that of its filling. -/
theorem replacement_eq (loads : source.load = .ok context) (policy : Policy)
    (reference : Reference) :
    resolver.replacement policy source reference =
      Filling.ofReference resolver.registry context.merged reference >>= fun filling =>
        .ok (filling.replacement policy) := by
  rw [replacement, resolveReference_eq loads, Filling.ofReference]
  cases reference.resolve resolver.registry context.merged with
  | error fault => rfl
  | ok resolution =>
    rw [Outcome.ok_bind, Outcome.ok_bind, Value.shown?]
    split_ifs
    · rfl
    · cases resolution.value.substitution <;> rfl

/-- Resolving a template is resolving its text among the values of the context. -/
theorem resolve_text (loads : source.load = .ok context) {name : Option String} {policy : Policy}
    (chosen : resolver.policy.chosen name = .ok policy) :
    resolver.resolve (.text text) source name =
      resolveText resolver.registry policy context.merged text := by
  rw [resolve]
  split_ifs with braces
  · rw [chosen, loads]
    rfl
  · -- the shortcut for a text without references agrees with the whole pass
    have none := references_of_not_holdsBraces (Bool.not_eq_true _ ▸ braces)
    have empty : Filling.ofText resolver.registry context.merged text = .ok [] :=
      Filling.ofText_eq_ok_iff.mpr ⟨none, by simp⟩
    rw [resolveText_eq, empty, Outcome.ok_bind, Filling.outcome, if_neg fun strict => strict.2 rfl]
    simp [Filling.resolutionOf, Filling.replacements, splice, Filling.unresolvedPaths,
      Filling.pathsWhere, Filling.diagnostics]

/-- A text with fillings is resolved to their outcome. -/
theorem resolve_eq_outcome (loads : source.load = .ok context) {fillings : List Filling}
    (read : Filling.ofText resolver.registry context.merged text = .ok fillings)
    {name : Option String} {policy : Policy}
    (chosen : resolver.policy.chosen name = .ok policy) :
    resolver.resolve (.text text) source name = Filling.outcome policy text fillings := by
  rw [resolve_text loads chosen, resolveText_eq, read]
  rfl

/-- References that are replaced one by one have fillings. -/
theorem exists_of_replacements (loads : source.load = .ok context) {policy : Policy}
    {found : List Reference} {replacements : List String}
    (replaced : found.mapM (resolver.replacement policy source) = .ok replacements) :
    ∃ fillings : List Filling, found = fillings.map (·.reference) ∧
      replacements = fillings.map (·.replacement policy) ∧
      ∀ filling ∈ fillings,
        Filling.ofReference resolver.registry context.merged filling.reference = .ok filling := by
  refine Outcome.exists_of_mapM_eq_ok (fun reference replacement taken => ?_) replaced
  rw [replacement_eq loads] at taken
  obtain ⟨filling, filled, same⟩ := Outcome.bind_eq_ok.mp taken
  obtain ⟨rfl, -⟩ := Filling.ofReference_eq_ok_iff.mp filled
  exact ⟨filling, rfl, Except.ok.inj same, filled⟩

/-- The distinct references of a text are resolved as its fillings are. -/
theorem mapM_distinctReferences (loads : source.load = .ok context) {fillings : List Filling}
    (filled : ∀ filling ∈ fillings,
      Filling.ofReference resolver.registry context.merged filling.reference = .ok filling) :
    (distinctReferences (fillings.map (·.reference))).mapM (resolver.resolveReference · source) =
      .ok ((firstOn (·.reference.raw) fillings).map (·.resolution)) := by
  rw [Filling.distinctReferences_map]
  refine Outcome.mapM_map_eq_ok fun filling member => ?_
  rw [resolveReference_eq loads]
  exact (Filling.ofReference_eq_ok_iff.mp (filled filling (mem_of_mem_firstOn member))).2.1

/-- The resolution of a text, told by its references and the resolutions of the distinct ones. -/
theorem resolutionOf_eq {fillings : List Filling}
    (read : Filling.ofText resolver.registry context.merged text = .ok fillings)
    (policy : Policy) :
    Filling.resolutionOf policy text fillings =
      let resolutions := (firstOn (·.reference.raw) fillings).map (·.resolution)
      { value := .text (String.ofList (splice text.toList 0
          ((fillings.map (·.reference)).zip (fillings.map (·.replacement policy)))))
        resolved := resolutions.all (·.resolved)
        diagnostics := resolutions.flatMap (·.diagnostics)
        unresolvedPaths := (resolutions.flatMap (·.unresolvedPaths)).eraseDups } := by
  have filled := (Filling.ofText_eq_ok_iff.mp read).2
  have firstFilled : ∀ filling ∈ firstOn (·.reference.raw) fillings,
      Filling.ofReference resolver.registry context.merged filling.reference = .ok filling :=
    fun filling first => filled filling (mem_of_mem_firstOn first)
  dsimp only
  rw [List.zip_map', List.all_map, List.flatMap_map, List.flatMap_map,
    Filling.eraseDups_flatMap_unresolvedPaths firstFilled, Filling.resolutionOf,
    ← Filling.unresolvedPaths_firstOn read, Filling.isEmpty_unresolvedPaths]
  rfl

/-- **The resolved text.** Under a policy that puts something in the place of references without a
value, a template is resolved exactly if its references are read and each can be replaced on its
own. The resolved text is the template with every reference replaced by its own text, and what is
reported is what the first reference of each raw text reports, in order. -/
theorem resolve_eq_ok_iff {name : Option String} {policy : Policy} {resolution : Resolution}
    (loads : source.load = .ok context) (chosen : resolver.policy.chosen name = .ok policy)
    (lenient : policy ≠ .raise) :
    resolver.resolve (.text text) source name = .ok resolution ↔
      ∃ found replacements resolutions,
        references text = .ok found ∧
        found.mapM (resolver.replacement policy source) = .ok replacements ∧
        (distinctReferences found).mapM (resolver.resolveReference · source) = .ok resolutions ∧
        resolution = {
          value := .text (String.ofList (splice text.toList 0 (found.zip replacements)))
          resolved := resolutions.all (·.resolved)
          diagnostics := resolutions.flatMap (·.diagnostics)
          unresolvedPaths := (resolutions.flatMap (·.unresolvedPaths)).eraseDups } := by
  rw [resolve_text loads chosen, resolveText_eq, Outcome.bind_eq_ok]
  have succeeds (fillings : List Filling) :
      Filling.outcome policy text fillings = .ok (Filling.resolutionOf policy text fillings) :=
    if_neg fun strict => lenient strict.1
  constructor
  · rintro ⟨fillings, read, concludes⟩
    obtain ⟨reads, filled⟩ := Filling.ofText_eq_ok_iff.mp read
    rw [succeeds, resolutionOf_eq read] at concludes
    refine ⟨_, fillings.map (·.replacement policy), _, reads, ?_,
      mapM_distinctReferences loads filled, (Except.ok.inj concludes).symm⟩
    refine Outcome.mapM_map_eq_ok fun filling member => ?_
    rw [replacement_eq loads, filled filling member]
    rfl
  · rintro ⟨found, replacements, resolutions, reads, replaced, distinct, rfl⟩
    obtain ⟨fillings, rfl, rfl, filled⟩ := exists_of_replacements loads replaced
    have read := Filling.ofText_eq_ok_iff.mpr ⟨reads, filled⟩
    cases distinct.symm.trans (mapM_distinctReferences loads filled)
    exact ⟨fillings, read, by rw [succeeds, resolutionOf_eq read]⟩

/-- A value that looks like a reference is not resolved again. -/
theorem resolve_eq_ok_iff_braces :
    ∃ found replacements,
      references "{{a}} {{b}}{{a}}" = .ok found ∧
      found.mapM (default.replacement .literal (.live ⟨[("a", .text "{{b}}")], [], []⟩)) =
        .ok replacements ∧
      Value.text "{{b}} undefined{{b}}" =
        .text (String.ofList (splice "{{a}} {{b}}{{a}}".toList 0 (found.zip replacements))) := by
  have resolves : default.resolve (.text "{{a}} {{b}}{{a}}")
      (.live ⟨[("a", .text "{{b}}")], [], []⟩) none =
      .ok ⟨.text "{{b}} undefined{{b}}", false, [.unresolvedPath "b"], ["b"]⟩ := rfl
  obtain ⟨found, replacements, resolutions, reads, replaced, -, same⟩ :=
    (resolve_eq_ok_iff rfl rfl (by decide)).mp resolves
  exact ⟨found, replacements, reads, replaced, congrArg Resolution.value same⟩

end Resolver
end Stencil
